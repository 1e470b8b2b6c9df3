import Mathlib.Data.List.Basic
import StyleProbe.Proofs.Css.Component.Case
import StyleProbe.Proofs.Css.Stylesheet.Segment

/-!
# Style sheets and letter case

A style sheet in small letters has the same rules and declarations, in small
letters. What ends a rule, a prelude or a declaration is punctuation, and the
names that matter, those of grouping at-rules and the word `important`, are
recognized in any case. A property is in small letters as it is; a selector
and a value are written in small letters, as their tokens were read.

Main statements: `rulesFrom_map_lowered` and `declarations_lowered`.
-/

namespace StyleProbe.Css

open Component (loweredAll flattenAll read)

/-! ## Rules -/

/-- The rule with all its names written small. -/
def Rule.lowered (rule : Rule) : Rule :=
  ⟨rule.prelude.map Token.lowered, loweredAll rule.block⟩

theorem isGrouping_lowerAscii (name : String) :
    isGrouping (Text.lowerAscii name) = isGrouping name := by
  rw [isGrouping, Text.lowerAscii_lowerAscii, isGrouping]

theorem endsAtPrelude_lowered (t : Token) :
    endsAtPrelude t.lowered = endsAtPrelude t := by
  simp only [endsAtPrelude, Bool.beq_eq_decide_eq,
    Token.lowered_eq_iff (u := .opening .curly) trivial,
    Token.lowered_eq_iff (u := .semicolon) trivial]

theorem gap_lowered_iff {t : Token} :
    t.lowered = .whitespace ∨ t.lowered = .semicolon ↔
      t = .whitespace ∨ t = .semicolon := by
  rw [Token.lowered_eq_iff (u := .whitespace) trivial,
    Token.lowered_eq_iff (u := .semicolon) trivial]

theorem StartsRule.lowered {depth : Nat} {first : Token}
    (h : StartsRule depth first) : StartsRule depth first.lowered where
  noGap := fun hgap => h.noGap (gap_lowered_iff.mp hgap)
  noAtRule := by
    intro name heq
    cases first with
    | atKeyword own => exact h.noAtRule own rfl
    | _ => cases heq
  noEnd := by
    rw [Token.lowered_eq_iff (u := .closing .curly) trivial]
    exact h.noEnd

theorem dropWhile_prelude_map_lowered (ts : List Token) :
    (ts.map Token.lowered).dropWhile (fun t => !endsAtPrelude t) =
      (ts.dropWhile fun t => !endsAtPrelude t).map Token.lowered := by
  rw [List.dropWhile_map]
  simp only [Function.comp_def, endsAtPrelude_lowered]

theorem bne_brace_lowered (t : Token) :
    (t.lowered != .opening .curly) = (t != .opening .curly) := by
  simp only [bne, Bool.beq_eq_decide_eq,
    Token.lowered_eq_iff (u := .opening .curly) trivial]

theorem dropWhile_brace_map_lowered (ts : List Token) :
    (ts.map Token.lowered).dropWhile (· != .opening .curly) =
      (ts.dropWhile (· != .opening .curly)).map Token.lowered := by
  rw [List.dropWhile_map]
  simp only [Function.comp_def, bne_brace_lowered]

theorem takeWhile_brace_map_lowered (ts : List Token) :
    (ts.map Token.lowered).takeWhile (· != .opening .curly) =
      (ts.takeWhile (· != .opening .curly)).map Token.lowered := by
  rw [List.takeWhile_map]
  simp only [Function.comp_def, bne_brace_lowered]

/-- **Lowered tokens hold the same rules**, lowered. -/
theorem rulesFrom_map_lowered (depth : Nat) (ts : List Token) :
    rulesFrom depth (ts.map Token.lowered) =
      (rulesFrom depth ts).map Rule.lowered := by
  have hbrace : Token.lowered (.opening .curly) = .opening .curly := rfl
  have hname : ∀ name, Token.lowered (.atKeyword name) =
      .atKeyword (Text.lowerAscii name) := fun _ => rfl
  fun_induction rulesFrom depth ts with
  | case1 depth => rw [List.map_nil, rulesFrom_nil, List.map_nil]
  | case2 depth first rest hgap ih =>
    rw [List.map_cons, rulesFrom_gap (gap_lowered_iff.mpr hgap), ih]
  | case3 depth first rest hgap hend ih =>
    obtain ⟨rfl, hdepth⟩ := hend
    obtain ⟨outer, rfl⟩ := Nat.exists_eq_add_one.mpr hdepth
    rw [List.map_cons]
    exact rulesFrom_end.trans ih
  | case4 depth rest name body hbody hgroup _ _ ih =>
    rw [List.map_cons, hname, rulesFrom_atKeyword,
      dropWhile_prelude_map_lowered, hbody, List.map_cons, hbrace]
    dsimp only
    rw [isGrouping_lowerAscii]
    exact (if_pos hgroup).trans ih
  | case5 depth rest name body hbody hgroup _ _ ih =>
    rw [List.map_cons, hname, rulesFrom_atKeyword,
      dropWhile_prelude_map_lowered, hbody, List.map_cons, hbrace]
    dsimp only
    rw [isGrouping_lowerAscii, Component.read_map_lowered]
    exact (if_neg hgroup).trans ih
  | case6 depth rest name t after hnoBrace hafter _ _ ih =>
    rw [List.map_cons, hname, rulesFrom_atKeyword,
      dropWhile_prelude_map_lowered, hafter, List.map_cons]
    split
    · rename_i heq
      have ht := (Token.lowered_eq_iff (u := .opening .curly) trivial).mp
        (List.cons.inj heq).1
      exact absurd ht hnoBrace
    · rename_i heq
      rw [← (List.cons.inj heq).2]
      exact ih
    · rename_i heq
      cases heq
  | case7 depth rest name hnone _ _ =>
    rw [List.map_cons, hname, rulesFrom_atKeyword,
      dropWhile_prelude_map_lowered, hnone]
    rfl
  | case8 depth first rest hgap hend t body hbody reading hat ih =>
    have hfirst : StartsRule depth first := ⟨hgap, hat, hend⟩
    rw [List.map_cons, rulesFrom_startsRule hfirst.lowered,
      dropWhile_brace_map_lowered, hbody, takeWhile_brace_map_lowered,
      List.map_cons]
    dsimp only
    rw [Component.read_map_lowered]
    exact congrArg _ ih
  | case9 depth first rest hgap hend hnone hat =>
    have hfirst : StartsRule depth first := ⟨hgap, hat, hend⟩
    rw [List.map_cons, rulesFrom_startsRule hfirst.lowered,
      dropWhile_brace_map_lowered, hnone]
    rfl

/-! ## Declarations -/

/-- The declaration with its value written small; its property is. -/
def Declaration.lowered (declaration : Declaration) : Declaration :=
  ⟨declaration.property, Text.lowerAscii declaration.value⟩

/-- A semicolon is lowered to itself, and nothing else is lowered to one. -/
theorem lowered_eq_semicolon_iff {value : Component} :
    value.lowered = .token .semicolon ↔ value = .token .semicolon := by
  cases value with
  | token t =>
    rw [Component.lowered, Component.token.injEq, Component.token.injEq,
      Token.lowered_eq_iff (u := .semicolon) trivial]
  | function name body => simp [Component.lowered]
  | block bracket body => simp [Component.lowered]

theorem splitAtSemicolons_loweredAll (values : List Component) :
    splitAtSemicolons (loweredAll values) =
      (splitAtSemicolons values).map loweredAll := by
  induction values with
  | nil => rfl
  | cons value values ih =>
    by_cases hsemicolon : value = .token .semicolon
    · subst hsemicolon
      exact congrArg _ ih
    · have hlowered : value.lowered ≠ .token .semicolon := fun h =>
        hsemicolon (lowered_eq_semicolon_iff.mp h)
      rw [loweredAll, splitAtSemicolons, splitAtSemicolons, ih]
      · cases splitAtSemicolons values <;> rfl
      · exact hsemicolon
      · exact hlowered

theorem dropImportant_loweredAll (values : List Component) :
    dropImportant (loweredAll values) = loweredAll (dropImportant values) := by
  have hreverse : (loweredAll values).reverse = loweredAll values.reverse := by
    simp [Component.loweredAll_eq_map]
  unfold dropImportant
  rw [hreverse]
  rcases values.reverse with _ | ⟨last, _ | ⟨mark, before⟩⟩
  · rfl
  · cases last with
    | token t => cases t <;> rfl
    | _ => rfl
  cases last with
  | token t =>
    cases t with
    | ident word =>
      cases mark with
      | token t =>
        cases t with
        | delim char =>
          by_cases hmark : char = '!'
          · subst hmark
            have hbefore : (loweredAll before).reverse =
                loweredAll before.reverse := by
              simp [Component.loweredAll_eq_map]
            have hself : Char.toLower '!' = '!' := rfl
            simp only [loweredAll, Component.lowered, Token.lowered, hself,
              Text.sameIgnoringCase, Text.lowerAscii_lowerAscii, hbefore,
              Component.trim_loweredAll]
            exact (apply_ite loweredAll _ _ _).symm
          · have hmark' : char.toLower ≠ '!' := Text.toLower_ne rfl hmark
            simp [loweredAll, Component.lowered, Token.lowered, hmark, hmark']
        | _ => rfl
      | _ => rfl
    | _ => rfl
  | _ => rfl

theorem mem_of_mem_dropImportant {values : List Component} {value : Component}
    (h : value ∈ dropImportant values) : value ∈ values := by
  unfold dropImportant at h
  split at h
  · rename_i word before hreverse
    split at h
    · rw [← List.mem_reverse, hreverse]
      have hbefore := mem_of_mem_trimBy h
      simp [List.mem_reverse.mp hbefore]
    · exact h
  · exact h

/-- **Lowered component values form the same declaration**, lowered. -/
theorem ofComponents?_loweredAll {values : List Component}
    (h : ∀ t ∈ flattenAll values, t.Lexed) :
    Declaration.ofComponents? (loweredAll values) =
      (Declaration.ofComponents? values).map Declaration.lowered := by
  unfold Declaration.ofComponents?
  rw [Component.trim_loweredAll]
  have hvalues : ∀ v ∈ Component.trim values, v ∈ values := fun v =>
    mem_of_mem_trimBy
  generalize Component.trim values = trimmed at hvalues ⊢
  rcases trimmed with _ | ⟨first, afterName⟩
  · rfl
  cases first with
  | token t =>
    cases t with
    | ident name =>
      simp only [loweredAll, Component.lowered, Token.lowered,
        Component.trim_loweredAll]
      have hname : ∀ v ∈ Component.trim afterName, v ∈ afterName := fun v =>
        mem_of_mem_trimBy
      generalize Component.trim afterName = trimmed at hname ⊢
      rcases trimmed with _ | ⟨second, afterColon⟩
      · rfl
      cases second with
      | token t =>
        cases t with
        | colon =>
          simp only [loweredAll, Component.lowered, Token.lowered,
            Component.trim_loweredAll, dropImportant_loweredAll]
          have hlexed : ∀ t ∈ flattenAll
              (dropImportant (Component.trim afterColon)), t.Lexed := by
            intro t ht
            obtain ⟨v, hv, ht⟩ := Component.mem_flattenAll.mp ht
            have hv' := mem_of_mem_trimBy (mem_of_mem_dropImportant hv)
            have hmem := hname v (List.mem_cons_of_mem _ hv')
            exact h t (Component.mem_flattenAll.mpr
              ⟨v, hvalues v (List.mem_cons_of_mem _ hmem), ht⟩)
          have hvalue := Component.serialize_loweredAll hlexed
          cases hdrop : dropImportant (Component.trim afterColon) with
          | nil => rfl
          | cons v rest =>
            rw [hdrop] at hvalue
            simp [loweredAll, Declaration.lowered, Text.lowerAscii_lowerAscii,
              ← hvalue]
        | _ => rfl
      | _ => rfl
    | _ => rfl
  | _ => rfl

theorem mem_of_mem_splitAtSemicolons {values part : List Component}
    (hpart : part ∈ splitAtSemicolons values) :
    ∀ value ∈ part, value ∈ values := by
  intro value hvalue
  fun_induction splitAtSemicolons values generalizing part with
  | case1 =>
    obtain rfl := List.mem_singleton.mp hpart
    exact hvalue
  | case2 values ih =>
    rcases List.mem_cons.mp hpart with rfl | hpart
    · cases hvalue
    · exact List.mem_cons_of_mem _ (ih hpart hvalue)
  | case3 first values _ part' more hsplit ih =>
    rw [hsplit] at ih
    rcases List.mem_cons.mp hpart with rfl | hpart
    · rcases List.mem_cons.mp hvalue with rfl | hvalue
      · exact List.mem_cons_self
      · exact List.mem_cons_of_mem first (ih List.mem_cons_self hvalue)
    · exact List.mem_cons_of_mem first
        (ih (List.mem_cons_of_mem part' hpart) hvalue)
  | case4 first values =>
    obtain rfl := List.mem_singleton.mp hpart
    obtain rfl := List.mem_singleton.mp hvalue
    exact List.mem_cons_self

theorem selector_lowered {rule : Rule} (h : ∀ t ∈ rule.prelude, t.Lexed) :
    rule.lowered.selector = Text.lowerAscii rule.selector := by
  have htext : ∀ ts : List Token, (∀ t ∈ ts, t.Lexed) →
      String.join ((ts.map Token.lowered).map Token.text) =
        Text.lowerAscii (String.join (ts.map Token.text)) := by
    intro ts hts
    induction ts with
    | nil => rfl
    | cons t ts ih =>
      rw [List.map_cons, List.map_cons, List.map_cons, String.join_cons,
        String.join_cons, Text.lowerAscii_append,
        (hts t List.mem_cons_self).text_lowered,
        ih fun u hu => hts u (List.mem_cons_of_mem t hu)]
  rw [Rule.selector_eq, Rule.selector_eq, Rule.lowered, htext _ h,
    Text.trim_lowerAscii]

/-- **A lowered rule has the same declarations**, lowered. -/
theorem declarations_lowered {rule : Rule}
    (h : ∀ t ∈ flattenAll rule.block, t.Lexed) :
    rule.lowered.declarations =
      rule.declarations.map Declaration.lowered := by
  have hparts : ∀ part ∈ splitAtSemicolons rule.block,
      Declaration.ofComponents? (loweredAll part) =
        (Declaration.ofComponents? part).map Declaration.lowered := by
    intro part hpart
    apply ofComponents?_loweredAll
    intro t ht
    obtain ⟨v, hv, ht⟩ := Component.mem_flattenAll.mp ht
    exact h t (Component.mem_flattenAll.mpr
      ⟨v, mem_of_mem_splitAtSemicolons hpart v hv, ht⟩)
  rw [Rule.declarations, Rule.lowered, splitAtSemicolons_loweredAll,
    List.filterMap_map, Rule.declarations, List.map_filterMap]
  exact List.filterMap_congr hparts

end StyleProbe.Css
