import StyleProbe.Css.Stylesheet
import StyleProbe.Proofs.Css.Component.Lossless

/-!
# Segments of a style sheet

A segment is a run of whole items: gaps, rules, at-rules and the closing
braces of groups, each with all of its own tokens. `Segment` says which
rules a segment holds and how many groups are open before and after it, and
nothing of it depends on what follows: `Segment.rulesFrom_append` cuts a
segment off the front of any token list.

The first part has one equation of `rulesFrom` for each kind of item.
-/

namespace StyleProbe.Css

open Component (WellFormedAll flattenAll read read_flattenAll_closing)

/-- The token starts the prelude of a rule where `depth` groups are open. -/
structure StartsRule (depth : Nat) (first : Token) : Prop where
  noGap : ¬ (first = .whitespace ∨ first = .semicolon)
  noAtRule : ∀ name, first ≠ .atKeyword name
  noEnd : ¬ (first = .closing .curly ∧ 0 < depth)

/-- A token that does not end the prelude of a rule. -/
def NoBrace (t : Token) : Prop := t ≠ .opening .curly

/-- A token that does not end the prelude of an at-rule. -/
def NoEnd (t : Token) : Prop := t ≠ .opening .curly ∧ t ≠ .semicolon

theorem endsAtPrelude_eq_false_iff {t : Token} :
    endsAtPrelude t = false ↔ NoEnd t := by
  simp [endsAtPrelude, NoEnd]

/-- Every token is a gap, starts an at-rule, ends a group or starts a
rule. -/
theorem kind_of_first (depth : Nat) (first : Token) :
    (first = .whitespace ∨ first = .semicolon) ∨
      (∃ name, first = .atKeyword name) ∨
      (first = .closing .curly ∧ 0 < depth) ∨ StartsRule depth first := by
  by_cases hgap : first = .whitespace ∨ first = .semicolon
  · exact .inl hgap
  by_cases hat : ∃ name, first = .atKeyword name
  · exact .inr (.inl hat)
  by_cases hend : first = .closing .curly ∧ 0 < depth
  · exact .inr (.inr (.inl hend))
  · exact .inr (.inr (.inr ⟨hgap, fun name h => hat ⟨name, h⟩, hend⟩))

/-! ## One item -/

section Items

variable {depth : Nat} {name : String} {prelude ts : List Token}
  {block : List Component}

theorem dropWhile_prelude (hprelude : ∀ t ∈ prelude, NoEnd t) {t : Token}
    (ht : endsAtPrelude t = true) :
    (prelude ++ t :: ts).dropWhile (fun t => !endsAtPrelude t) = t :: ts := by
  rw [List.dropWhile_append_of_pos, List.dropWhile_cons_of_neg (by simp [ht])]
  intro u hu
  rw [endsAtPrelude_eq_false_iff.mpr (hprelude u hu)]
  rfl

@[simp] theorem rulesFrom_nil : rulesFrom depth [] = [] := by
  rw [rulesFrom]

theorem rulesFrom_gap {t : Token} (h : t = .whitespace ∨ t = .semicolon) :
    rulesFrom depth (t :: ts) = rulesFrom depth ts := by
  rw [rulesFrom.eq_def]
  exact if_pos h

theorem rulesFrom_end :
    rulesFrom (depth + 1) (.closing .curly :: ts) = rulesFrom depth ts := by
  rw [rulesFrom.eq_def]
  simp

/-- An at-rule goes by what its prelude runs into. -/
theorem rulesFrom_atKeyword :
    rulesFrom depth (.atKeyword name :: ts) =
      match ts.dropWhile (fun t => !endsAtPrelude t) with
      | .opening .curly :: body =>
        if isGrouping name then rulesFrom (depth + 1) body
        else rulesFrom depth (read (some (.bracket .curly)) body).rest
      | _ :: after => rulesFrom depth after
      | [] => [] := by
  rw [rulesFrom.eq_def]
  dsimp only
  rw [if_neg (by simp), if_neg (by simp)]
  split <;> simp_all only

/-- A rule goes by the first opening brace after its first token. -/
theorem rulesFrom_startsRule {first : Token} (h : StartsRule depth first) :
    rulesFrom depth (first :: ts) =
      match ts.dropWhile (· != .opening .curly) with
      | _ :: body =>
        { prelude := first :: ts.takeWhile (· != .opening .curly)
          block := (read (some (.bracket .curly)) body).values } ::
            rulesFrom depth (read (some (.bracket .curly)) body).rest
      | [] => [] := by
  rw [rulesFrom.eq_def]
  dsimp only
  rw [if_neg h.noGap, if_neg h.noEnd]
  cases first with
  | atKeyword name => exact absurd rfl (h.noAtRule name)
  | _ =>
    dsimp only
    split <;> simp_all only

theorem rulesFrom_statement (hprelude : ∀ t ∈ prelude, NoEnd t) :
    rulesFrom depth (.atKeyword name :: (prelude ++ .semicolon :: ts)) =
      rulesFrom depth ts := by
  rw [rulesFrom_atKeyword, dropWhile_prelude hprelude (by rfl)]

theorem rulesFrom_group (hname : isGrouping name = true)
    (hprelude : ∀ t ∈ prelude, NoEnd t) :
    rulesFrom depth
        (.atKeyword name :: (prelude ++ .opening .curly :: ts)) =
      rulesFrom (depth + 1) ts := by
  rw [rulesFrom_atKeyword, dropWhile_prelude hprelude (by rfl)]
  exact if_pos hname

theorem rulesFrom_skipped (hname : isGrouping name = false)
    (hprelude : ∀ t ∈ prelude, NoEnd t) (hblock : WellFormedAll block) :
    rulesFrom depth
        (.atKeyword name :: (prelude ++ .opening .curly ::
          (flattenAll block ++ .closing .curly :: ts))) =
      rulesFrom depth ts := by
  rw [rulesFrom_atKeyword, dropWhile_prelude hprelude (by rfl)]
  dsimp only
  rw [if_neg (by simp [hname]), read_flattenAll_closing .curly hblock]

theorem rulesFrom_rule {first : Token} (hfirst : StartsRule depth first)
    (hprelude : ∀ t ∈ prelude, NoBrace t) (hblock : WellFormedAll block) :
    rulesFrom depth
        (first :: (prelude ++ .opening .curly ::
          (flattenAll block ++ .closing .curly :: ts))) =
      ⟨first :: prelude, block⟩ :: rulesFrom depth ts := by
  have hbefore : ∀ t ∈ prelude, (t != .opening .curly) = true := by
    intro t ht
    exact bne_iff_ne.mpr (hprelude t ht)
  rw [rulesFrom_startsRule hfirst, List.dropWhile_append_of_pos hbefore,
    List.takeWhile_append_of_pos hbefore, List.dropWhile_cons_of_neg (by simp),
    List.takeWhile_cons_of_neg (by simp)]
  dsimp only
  rw [read_flattenAll_closing .curly hblock, List.append_nil]

theorem rulesFrom_unopened {first : Token} (hfirst : StartsRule depth first)
    (hprelude : ∀ t ∈ prelude, NoBrace t) :
    rulesFrom depth (first :: prelude) = [] := by
  have hnone : prelude.dropWhile (· != .opening .curly) = [] := by
    apply dropWhile_eq_nil.mpr
    intro t ht
    exact bne_iff_ne.mpr (hprelude t ht)
  rw [rulesFrom_startsRule hfirst, hnone]

theorem rulesFrom_unended (hprelude : ∀ t ∈ prelude, NoEnd t) :
    rulesFrom depth (.atKeyword name :: prelude) = [] := by
  have hnone : prelude.dropWhile (fun t => !endsAtPrelude t) = [] := by
    apply dropWhile_eq_nil.mpr
    intro t ht
    rw [endsAtPrelude_eq_false_iff.mpr (hprelude t ht)]
    rfl
  rw [rulesFrom_atKeyword, hnone]

end Items

/-- What holds of all tokens of a style sheet, and of every bracket that ends
something, holds of the tokens of its rules. -/
theorem forall_mem_rulesFrom {P : Token → Prop}
    (hclosing : ∀ bracket, P (.closing bracket)) {depth : Nat}
    {ts : List Token} (h : ∀ t ∈ ts, P t) :
    ∀ rule ∈ rulesFrom depth ts,
      (∀ t ∈ rule.prelude, P t) ∧ ∀ t ∈ flattenAll rule.block, P t := by
  -- What comes after an item was there before.
  have hdrop : ∀ {p : Token → Bool} {rest body : List Token} {t : Token},
      rest.dropWhile p = t :: body → ∀ u ∈ body, u ∈ rest := by
    intro p rest body t heq u hu
    apply (List.dropWhile_sublist p).subset
    rw [heq]
    exact List.mem_cons_of_mem t hu
  fun_induction rulesFrom depth ts with
  | case1 => simp
  | case2 depth first rest _ ih =>
    exact ih fun t ht => h t (List.mem_cons_of_mem first ht)
  | case3 depth first rest _ _ ih =>
    exact ih fun t ht => h t (List.mem_cons_of_mem first ht)
  | case4 depth rest name body hbody _ _ _ ih =>
    exact ih fun t ht => h t (List.mem_cons_of_mem _ (hdrop hbody t ht))
  | case5 depth rest name body hbody _ _ _ ih =>
    exact ih fun t ht => h t (List.mem_cons_of_mem _
      (hdrop hbody t (Component.mem_of_mem_rest_read ht)))
  | case6 depth rest name t after _ hafter _ _ ih =>
    exact ih fun u hu => h u (List.mem_cons_of_mem _ (hdrop hafter u hu))
  | case7 => simp
  | case8 depth first rest _ _ t body hbody reading _ ih =>
    have hbody' : ∀ u ∈ body, P u := fun u hu =>
      h u (List.mem_cons_of_mem first (hdrop hbody u hu))
    intro rule hrule
    rcases List.mem_cons.mp hrule with rfl | hrule
    · constructor
      · intro u hu
        rcases List.mem_cons.mp hu with rfl | hu
        · exact h _ List.mem_cons_self
        · exact h u (List.mem_cons_of_mem first
            ((List.takeWhile_sublist _).subset hu))
      · intro u hu
        rcases Component.mem_or_closing_of_mem_read hu with hu |
          ⟨bracket, rfl⟩
        · exact hbody' u hu
        · exact hclosing bracket
    · exact ih (fun u hu => hbody' u (Component.mem_of_mem_rest_read hu))
        rule hrule
  | case9 => simp

/-! ## Runs of items -/

/-- `Segment depth ts rs depth'`: the tokens `ts` are whole items that hold
the rules `rs` and take `depth` open groups to `depth'`. -/
inductive Segment : Nat → List Token → List Rule → Nat → Prop
  | nil (depth : Nat) : Segment depth [] [] depth
  | gap {depth depth' t ts rs} (h : t = .whitespace ∨ t = .semicolon)
      (more : Segment depth ts rs depth') : Segment depth (t :: ts) rs depth'
  | close {depth depth' ts rs} (more : Segment depth ts rs depth') :
      Segment (depth + 1) (.closing .curly :: ts) rs depth'
  | statement {depth depth' name prelude ts rs}
      (hprelude : ∀ t ∈ prelude, NoEnd t)
      (more : Segment depth ts rs depth') :
      Segment depth (.atKeyword name :: (prelude ++ .semicolon :: ts)) rs
        depth'
  | group {depth depth' name prelude ts rs} (hname : isGrouping name = true)
      (hprelude : ∀ t ∈ prelude, NoEnd t)
      (more : Segment (depth + 1) ts rs depth') :
      Segment depth (.atKeyword name :: (prelude ++ .opening .curly :: ts)) rs
        depth'
  | skipped {depth depth' name prelude block ts rs}
      (hname : isGrouping name = false)
      (hprelude : ∀ t ∈ prelude, NoEnd t) (hblock : WellFormedAll block)
      (more : Segment depth ts rs depth') :
      Segment depth
        (.atKeyword name :: (prelude ++ .opening .curly ::
          (flattenAll block ++ .closing .curly :: ts))) rs depth'
  | rule {depth depth' first prelude block ts rs}
      (hfirst : StartsRule depth first)
      (hprelude : ∀ t ∈ prelude, NoBrace t) (hblock : WellFormedAll block)
      (more : Segment depth ts rs depth') :
      Segment depth
        (first :: (prelude ++ .opening .curly ::
          (flattenAll block ++ .closing .curly :: ts)))
        (⟨first :: prelude, block⟩ :: rs) depth'

namespace Segment

variable {depth depth' depth'' : Nat} {ts ts' : List Token}
  {rs rs' : List Rule}

/-- **A segment is cut off whole**: what follows it is read as if it stood
alone, with the groups that are open by then. -/
theorem rulesFrom_append (h : Segment depth ts rs depth')
    (rest : List Token) :
    rulesFrom depth (ts ++ rest) = rs ++ rulesFrom depth' rest := by
  induction h with
  | nil => rfl
  | gap hgap _ ih =>
    rw [List.cons_append, rulesFrom_gap hgap, ih]
  | close _ ih =>
    rw [List.cons_append, rulesFrom_end, ih]
  | statement hprelude _ ih =>
    rw [List.cons_append, List.append_assoc, List.cons_append,
      rulesFrom_statement hprelude, ih]
  | group hname hprelude _ ih =>
    rw [List.cons_append, List.append_assoc, List.cons_append,
      rulesFrom_group hname hprelude, ih]
  | skipped hname hprelude hblock _ ih =>
    simp only [List.cons_append, List.append_assoc]
    rw [rulesFrom_skipped hname hprelude hblock, ih]
  | rule hfirst hprelude hblock _ ih =>
    simp only [List.cons_append, List.append_assoc]
    rw [rulesFrom_rule hfirst hprelude hblock, ih]

theorem append (h : Segment depth ts rs depth')
    (h' : Segment depth' ts' rs' depth'') :
    Segment depth (ts ++ ts') (rs ++ rs') depth'' := by
  induction h with
  | nil => exact h'
  | gap hgap _ ih => exact .gap hgap (ih h')
  | close _ ih => exact .close (ih h')
  | statement hprelude _ ih =>
    rw [List.cons_append, List.append_assoc]
    exact .statement hprelude (ih h')
  | group hname hprelude _ ih =>
    rw [List.cons_append, List.append_assoc]
    exact .group hname hprelude (ih h')
  | skipped hname hprelude hblock _ ih =>
    simp only [List.cons_append, List.append_assoc]
    exact .skipped hname hprelude hblock (ih h')
  | rule hfirst hprelude hblock _ ih =>
    simp only [List.cons_append, List.append_assoc]
    exact .rule hfirst hprelude hblock (ih h')

/-- With nothing after it, a segment holds all the rules. -/
theorem rulesFrom_eq (h : Segment depth ts rs depth') :
    rulesFrom depth ts = rs := by
  have hwhole := h.rulesFrom_append []
  rw [List.append_nil, rulesFrom_nil, List.append_nil] at hwhole
  exact hwhole

end Segment

/-! ## What a rule says -/

/-- What is read off a rule: its selector and its declarations. -/
def Rule.content (rule : Rule) : String × List Declaration :=
  (rule.selector, rule.declarations)

/-- What is read off the rules of a style sheet, in order. -/
def contents (ts : List Token) : List (String × List Declaration) :=
  (rules ts).map Rule.content

@[simp] theorem contents_nil : contents [] = [] := by
  rw [contents, rules, rulesFrom_nil]
  rfl

theorem Rule.selector_eq (rule : Rule) :
    rule.selector =
      Text.trim (String.join (rule.prelude.map Token.text)) := by
  have htext : ∀ ts : List Token,
      ts.foldr (fun t s => t.text ++ s) "" = String.join (ts.map Token.text) := by
    intro ts
    induction ts with
    | nil => rfl
    | cons t ts ih => rw [List.foldr_cons, ih, List.map_cons, String.join_cons]
  rw [Rule.selector, htext]

theorem Rule.mem_selector {rule : Rule} {t : Token} {c : Char}
    (ht : t ∈ rule.prelude) (hc : c ∈ t.text.toList)
    (hblank : Text.isBlank c = false) : c ∈ rule.selector.toList := by
  rw [Rule.selector_eq, Text.toList_trim]
  refine mem_trimBy ?_ hblank
  rw [String.toList_join, List.mem_flatMap]
  exact ⟨t.text, List.mem_map_of_mem ht, hc⟩

end StyleProbe.Css
