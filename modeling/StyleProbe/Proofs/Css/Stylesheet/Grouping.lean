import StyleProbe.Proofs.Css.Stylesheet.WellFormed

/-!
# Where a group ends

The block of a grouping at-rule is walked on the tokens of the style sheet
itself, so nothing but the walk decides where the block ends. It ends at its
own closing brace when the block is a run of whole items. An item that the
closing brace cuts short does not stop there: the prelude of a rule runs
over the brace up to the next opening brace, and what comes after the group
is read as part of it.

`SelfContained` is the property of a block that keeps the walk in step.
Main statements: `exists_segment` (a balanced list is a run of whole items
and at most one that is cut short) and `contents_group_iff` (a group is read
apart from everything after it exactly when its block is self-contained).
-/

namespace StyleProbe.Css

open Component (WellFormedAll flattenAll Balanced balanced_iff_closes closes
  closes_of_append exists_contents)

/-! ## Items that are cut short -/

/-- The tokens are none at all, or an item that is not over yet: the prelude
of a rule or of an at-rule. -/
inductive CutShort (depth : Nat) : List Token → Prop
  | nothing : CutShort depth []
  | rule {first prelude} (hfirst : StartsRule depth first)
      (hprelude : ∀ t ∈ prelude, NoBrace t) :
      CutShort depth (first :: prelude)
  | atRule {name prelude} (hprelude : ∀ t ∈ prelude, NoEnd t) :
      CutShort depth (.atKeyword name :: prelude)

theorem noBrace_or_exists_brace (ts : List Token) :
    (∀ t ∈ ts, NoBrace t) ∨
      ∃ prelude more, ts = prelude ++ .opening .curly :: more ∧
        ∀ t ∈ prelude, NoBrace t := by
  cases hfind : ts.find? (· == .opening .curly) with
  | none =>
    left
    intro t ht
    exact ne_of_beq_false (by simpa using List.find?_eq_none.mp hfind t ht)
  | some t =>
    obtain ⟨ht, prelude, more, rfl, hprelude⟩ :=
      List.find?_eq_some_iff_append.mp hfind
    cases eq_of_beq ht
    refine .inr ⟨prelude, more, rfl, ?_⟩
    intro t ht
    exact ne_of_beq_false (by simpa using hprelude t ht)

theorem noEnd_or_exists_end (ts : List Token) :
    (∀ t ∈ ts, NoEnd t) ∨
      ∃ prelude t more, ts = prelude ++ t :: more ∧
        (t = .opening .curly ∨ t = .semicolon) ∧
        ∀ t ∈ prelude, NoEnd t := by
  cases hfind : ts.find? endsAtPrelude with
  | none =>
    left
    intro t ht
    exact endsAtPrelude_eq_false_iff.mp
      (eq_false_of_ne_true (List.find?_eq_none.mp hfind t ht))
  | some t =>
    obtain ⟨ht, prelude, more, rfl, hprelude⟩ :=
      List.find?_eq_some_iff_append.mp hfind
    refine .inr ⟨prelude, t, more, rfl, by simpa [endsAtPrelude] using ht, ?_⟩
    intro t ht
    exact endsAtPrelude_eq_false_iff.mp (by simpa using hprelude t ht)

/-- The tokens have a whole item in front, and what follows it still closes
what is open by then. -/
def ItemFirst (depth : Nat) (ts : List Token) : Prop :=
  ∃ item more rs depth' pending, ts = item ++ more ∧ item ≠ [] ∧
    Segment depth item rs depth' ∧ closes pending more = true

section Items

variable {depth : Nat} {pending : List Bracket} {ts : List Token}

theorem exists_block {before more : List Token}
    (h : closes pending (before ++ .opening .curly :: more) = true) :
    ∃ block after pending', WellFormedAll block ∧
      more = flattenAll block ++ .closing .curly :: after ∧
      closes pending' after = true := by
  obtain ⟨around, hmore⟩ := closes_of_append before h
  have hinner : closes (.curly :: around) more = true := hmore
  obtain ⟨block, after, hblock, rfl, hafter⟩ := exists_contents hinner
  exact ⟨block, after, around, hblock, rfl, hafter⟩

theorem cutShort_or_itemFirst_of_startsRule {first : Token}
    (hfirst : StartsRule depth first) (h : closes pending ts = true) :
    CutShort depth (first :: ts) ∨ ItemFirst depth (first :: ts) := by
  rcases noBrace_or_exists_brace ts with hts | ⟨prelude, more, rfl, hprelude⟩
  · exact .inl (.rule hfirst hts)
  · obtain ⟨block, after, pending', hblock, rfl, hafter⟩ := exists_block h
    refine .inr ⟨_, after, _, depth, pending', ?_, by simp,
      .rule hfirst hprelude hblock (.nil depth), hafter⟩
    simp

theorem cutShort_or_itemFirst_of_atKeyword (name : String)
    (h : closes pending ts = true) :
    CutShort depth (.atKeyword name :: ts) ∨
      ItemFirst depth (.atKeyword name :: ts) := by
  rcases noEnd_or_exists_end ts with hts |
    ⟨prelude, t, more, rfl, rfl | rfl, hprelude⟩
  · exact .inl (.atRule hts)
  · right
    by_cases hname : isGrouping name = true
    · obtain ⟨around, hmore⟩ := closes_of_append prelude h
      refine ⟨.atKeyword name :: (prelude ++ [.opening .curly]), more, [],
        depth + 1, .curly :: around, ?_, by simp, ?_, hmore⟩
      · simp
      · exact .group hname hprelude (.nil _)
    · obtain ⟨block, after, pending', hblock, rfl, hafter⟩ := exists_block h
      refine ⟨.atKeyword name :: (prelude ++ .opening .curly ::
        (flattenAll block ++ [.closing .curly])), after, [], depth, pending',
        ?_, by simp, ?_, hafter⟩
      · simp
      · exact .skipped (eq_false_of_ne_true hname) hprelude hblock (.nil depth)
  · right
    obtain ⟨around, hmore⟩ := closes_of_append prelude h
    refine ⟨.atKeyword name :: (prelude ++ [.semicolon]), more, [], depth,
      around, ?_, by simp, ?_, hmore⟩
    · simp
    · exact .statement hprelude (.nil depth)

/-- Where there are tokens, they are an item cut short or have a whole one
in front. -/
theorem cutShort_or_itemFirst (depth : Nat) (first : Token)
    (h : closes pending (first :: ts) = true) :
    CutShort depth (first :: ts) ∨ ItemFirst depth (first :: ts) := by
  obtain ⟨around, hts⟩ := closes_of_append [first] h
  rcases kind_of_first depth first with hgap | ⟨name, rfl⟩ |
    ⟨rfl, hdepth⟩ | hfirst
  · exact .inr ⟨[first], ts, [], depth, around, rfl, by simp,
      .gap hgap (.nil depth), hts⟩
  · exact cutShort_or_itemFirst_of_atKeyword name hts
  · obtain ⟨depth, rfl⟩ := Nat.exists_eq_add_one.mpr hdepth
    exact .inr ⟨[.closing .curly], ts, [], depth, around, rfl, by simp,
      .close (.nil depth), hts⟩
  · exact cutShort_or_itemFirst_of_startsRule hfirst hts

/-- Tokens that close what is open are a run of whole items, and then at
most one item that is cut short. -/
theorem exists_segment (depth : Nat) (h : closes pending ts = true) :
    ∃ whole tail rs depth', ts = whole ++ tail ∧
      Segment depth whole rs depth' ∧ CutShort depth' tail := by
  induction hn : ts.length using Nat.strongRecOn
    generalizing pending ts depth with
  | _ n ih =>
  subst hn
  cases ts with
  | nil => exact ⟨[], [], [], depth, rfl, .nil depth, .nothing⟩
  | cons first ts =>
    rcases cutShort_or_itemFirst depth first h with hcut |
      ⟨item, more, rs, depth', around, heq, hne, hitem, hmore⟩
    · exact ⟨[], first :: ts, [], depth, rfl, .nil depth, hcut⟩
    · rw [heq] at ih ⊢
      have hlt : more.length < (item ++ more).length := by
        have hpos := List.length_pos_iff.mpr hne
        rw [List.length_append]
        omega
      obtain ⟨whole, tail, rs', depth'', rfl, hwhole, htail⟩ :=
        ih more.length hlt depth' hmore rfl
      exact ⟨item ++ whole, tail, rs ++ rs', depth'',
        (List.append_assoc item whole tail).symm, hitem.append hwhole, htail⟩

end Items

/-! ## What tells the end of a group -/

/-- The style sheet of a rule `x` with nothing in it. -/
def marker : List Token := [.ident "x", .opening .curly, .closing .curly]

def markerRule : Rule := ⟨[.ident "x"], []⟩

section Marker

variable {depth : Nat}

theorem startsRule_ident (name : String) : StartsRule depth (.ident name) :=
  ⟨by simp, by simp, by simp⟩

/-- Where no group is open, a closing brace starts a prelude. -/
theorem startsRule_brace : StartsRule 0 (.closing .curly) :=
  ⟨by simp, by simp, by simp⟩

theorem segment_marker : Segment depth marker [markerRule] depth := by
  have hblock : WellFormedAll [] := trivial
  exact .rule (startsRule_ident "x") (List.forall_mem_nil NoBrace) hblock
    (.nil depth)

theorem rulesFrom_marker : rulesFrom depth marker = [markerRule] :=
  segment_marker.rulesFrom_eq

theorem contents_marker : contents marker = [markerRule.content] := by
  rw [contents, rules, rulesFrom_marker]
  rfl

/-- A rule with anything but the marker's name in its prelude is not the rule
of the marker. -/
theorem content_ne_of_mem {rule : Rule} {t : Token} {c : Char}
    (ht : t ∈ rule.prelude) (hc : c ∈ t.text.toList)
    (hblank : Text.isBlank c = false) (hne : c ≠ 'x') :
    rule.content ≠ markerRule.content := by
  intro heq
  have hselector : rule.selector = markerRule.selector :=
    congrArg Prod.fst heq
  have hmem : c ∈ rule.selector.toList := Rule.mem_selector ht hc hblank
  have hmarker : markerRule.selector.toList = ['x'] := by decide
  rw [hselector, hmarker] at hmem
  exact hne (List.mem_singleton.mp hmem)

/-- So a rule that takes such a token in its prelude and then runs into the
marker's block tells itself from the marker. -/
theorem contents_ne_of_mem {first : Token} {prelude : List Token} {t : Token}
    {c : Char} (hfirst : StartsRule depth first)
    (hprelude : ∀ t ∈ prelude, NoBrace t) (ht : t ∈ first :: prelude)
    (hc : c ∈ t.text.toList) (hblank : Text.isBlank c = false)
    (hne : c ≠ 'x') :
    (rulesFrom depth
      (first :: (prelude ++ [.opening .curly, .closing .curly]))).map
        Rule.content ≠ contents marker := by
  have hblock : WellFormedAll [] := trivial
  have hrule : rulesFrom depth
      (first :: (prelude ++ [.opening .curly, .closing .curly])) =
      ⟨first :: prelude, []⟩ :: rulesFrom depth [] :=
    rulesFrom_rule hfirst hprelude hblock
  rw [hrule, contents_marker]
  intro heq
  exact content_ne_of_mem ht hc hblank hne (List.cons.inj heq).1

theorem contents_brace_marker :
    contents (.closing .curly :: marker) ≠ contents marker := by
  have hprelude : ∀ t ∈ [.ident "x"], NoBrace t := by simp [NoBrace]
  have hc : '\x7d' ∈ (Token.closing .curly).text.toList := by decide
  exact contents_ne_of_mem startsRule_brace hprelude List.mem_cons_self hc
    (by decide) (by decide)

/-- Closing braces count the groups that are open. -/
theorem depth_eq_of_contents {depth' : Nat}
    (h : ∀ ts, (rulesFrom depth ts).map Rule.content =
      (rulesFrom depth' ts).map Rule.content) : depth = depth' := by
  have hbrace : ∀ depth, (rulesFrom (depth + 1)
      (.closing .curly :: marker)).map Rule.content = contents marker := by
    intro depth
    rw [rulesFrom_end, rulesFrom_marker, contents_marker]
    rfl
  induction depth generalizing depth' with
  | zero =>
    cases depth' with
    | zero => rfl
    | succ depth' =>
      have hfirst := (h (.closing .curly :: marker)).trans (hbrace depth')
      exact absurd hfirst contents_brace_marker
  | succ depth ih =>
    cases depth' with
    | zero =>
      have hfirst := (h (.closing .curly :: marker)).symm.trans (hbrace depth)
      exact absurd hfirst contents_brace_marker
    | succ depth' =>
      refine congrArg (· + 1) (ih fun ts => ?_)
      have hnext := h (.closing .curly :: ts)
      rwa [rulesFrom_end, rulesFrom_end] at hnext

end Marker

section Tail

variable {depth : Nat} {tail : List Token}

/-- What an item cut short makes of a last closing brace is no rule. -/
theorem CutShort.rulesFrom_brace (h : CutShort depth tail) :
    rulesFrom depth (tail ++ [.closing .curly]) = [] := by
  cases h with
  | nothing =>
    cases depth with
    | zero => exact rulesFrom_unopened startsRule_brace (by simp)
    | succ depth => rw [List.nil_append, rulesFrom_end, rulesFrom_nil]
  | rule hfirst hprelude =>
    refine rulesFrom_unopened hfirst
      (List.forall_mem_append.mpr ⟨hprelude, ?_⟩)
    simp [NoBrace]
  | atRule hprelude =>
    refine rulesFrom_unended (List.forall_mem_append.mpr ⟨hprelude, ?_⟩)
    simp [NoEnd]

theorem rulesFrom_atRule_marker {name : String} {prelude : List Token}
    (hprelude : ∀ t ∈ prelude, NoEnd t) :
    rulesFrom depth
      (.atKeyword name :: (prelude ++ .closing .curly :: marker)) = [] := by
  have hlonger : ∀ t ∈ prelude ++ [.closing .curly, .ident "x"], NoEnd t :=
    List.forall_mem_append.mpr ⟨hprelude, by simp [NoEnd]⟩
  have hblock : WellFormedAll [] := trivial
  have hts : prelude ++ .closing .curly :: marker =
      prelude ++ [.closing .curly, .ident "x"] ++
        [.opening .curly, .closing .curly] := by
    simp [marker]
  rw [hts]
  by_cases hname : isGrouping name = true
  · refine (rulesFrom_group hname hlonger).trans ?_
    rw [rulesFrom_end, rulesFrom_nil]
  · have hskipped := eq_false_of_ne_true hname
    refine (rulesFrom_skipped hskipped hlonger hblock).trans ?_
    exact rulesFrom_nil

/-- Where whatever follows a closing brace is read apart from what comes
before, nothing is cut short and one group is open. -/
theorem CutShort.eq_nil_of_apart (hcut : CutShort depth tail)
    (h : ∀ after,
      (rulesFrom depth (tail ++ .closing .curly :: after)).map Rule.content =
        contents after) :
    tail = [] ∧ depth = 1 := by
  have hmarker := h marker
  cases hcut with
  | nothing =>
    cases depth with
    | zero => exact absurd hmarker contents_brace_marker
    | succ depth =>
      have hdepth : depth = 0 := by
        apply depth_eq_of_contents
        intro ts
        rw [← rulesFrom_end]
        exact h ts
      exact ⟨rfl, congrArg (· + 1) hdepth⟩
  | rule hfirst hprelude =>
    have hlonger : ∀ t ∈ _ ++ [.closing .curly, .ident "x"], NoBrace t :=
      List.forall_mem_append.mpr ⟨hprelude, by simp [NoBrace]⟩
    have hc : '\x7d' ∈ (Token.closing .curly).text.toList := by decide
    have hne := contents_ne_of_mem hfirst hlonger (by simp) hc (by decide)
      (by decide)
    rw [List.append_assoc] at hne
    exact absurd hmarker hne
  | atRule hprelude =>
    rw [List.cons_append, rulesFrom_atRule_marker hprelude, contents_marker]
      at hmarker
    cases hmarker

end Tail

/-! ## Groups -/

/-- The block of a group is whole items that leave the group open, and they
hold the rules that the block has on its own. The second part does not
follow from the first: where a rule of the block starts with a brace, the
walk can leave the group and enter another before the block is over. -/
def SelfContained (body : List Token) : Prop :=
  ∃ rs, Segment 1 body rs 1 ∧ rs.map Rule.content = contents body

/-- A well-formed style sheet is self-contained. -/
theorem selfContained_tokensAll {items : List Item}
    (h : Item.WellFormedSheet items) :
    SelfContained (Item.tokensAll items) := by
  refine ⟨Item.rulesAll items, Item.segmentAll items h 1, ?_⟩
  rw [contents, rules, (Item.segmentAll items h 0).rulesFrom_eq]

section Group

variable {name : String} {prelude body : List Token}

theorem contents_group (hname : GroupName name)
    (hprelude : ∀ t ∈ prelude, NoEnd t) (ts : List Token) :
    contents (.atKeyword name :: (prelude ++ .opening .curly :: ts)) =
      (rulesFrom 1 ts).map Rule.content := by
  rw [contents, rules, rulesFrom_group (groupName_iff.mp hname) hprelude]

theorem SelfContained.rulesFrom_one (h : SelfContained body)
    (after : List Token) :
    (rulesFrom 1 (body ++ .closing .curly :: after)).map Rule.content =
      contents body ++ contents after := by
  obtain ⟨rs, hbody, hrs⟩ := h
  rw [hbody.rulesFrom_append, rulesFrom_end, List.map_append, hrs]
  rfl

/-- A balanced block that is always left at its own closing brace is
self-contained. -/
theorem selfContained_of_apart (hbody : Balanced body)
    (h : ∀ after,
      (rulesFrom 1 (body ++ .closing .curly :: after)).map Rule.content =
        contents body ++ contents after) :
    SelfContained body := by
  obtain ⟨whole, tail, rs, depth, rfl, hwhole, hcut⟩ :=
    exists_segment 1 (balanced_iff_closes.mp hbody)
  have hsplit : ∀ after,
      rs.map Rule.content ++
          (rulesFrom depth (tail ++ .closing .curly :: after)).map
            Rule.content =
        contents (whole ++ tail) ++ contents after := by
    intro after
    rw [← h after, List.append_assoc, hwhole.rulesFrom_append,
      List.map_append]
  -- With nothing after the group, the whole items are all there is.
  have hrs : rs.map Rule.content = contents (whole ++ tail) := by
    have hlast := hsplit []
    rw [hcut.rulesFrom_brace, contents_nil] at hlast
    simpa using hlast
  have hapart : ∀ after,
      (rulesFrom depth (tail ++ .closing .curly :: after)).map Rule.content =
        contents after := by
    intro after
    have hafter := hsplit after
    rw [hrs] at hafter
    exact List.append_cancel_left hafter
  obtain ⟨rfl, rfl⟩ := hcut.eq_nil_of_apart hapart
  rw [List.append_nil] at hrs ⊢
  exact ⟨rs, hwhole, hrs⟩

/-- **A group is read apart from what follows it exactly when its block is
self-contained.** Otherwise some continuation tells the difference. -/
theorem contents_group_iff (hname : GroupName name)
    (hprelude : ∀ t ∈ prelude, NoEnd t) (hbody : Balanced body) :
    (∀ after,
      contents (.atKeyword name :: (prelude ++ .opening .curly ::
        (body ++ .closing .curly :: after))) =
        contents body ++ contents after) ↔ SelfContained body := by
  constructor
  · intro h
    refine selfContained_of_apart hbody ?_
    intro after
    rw [← contents_group hname hprelude]
    exact h after
  · intro h after
    rw [contents_group hname hprelude]
    exact h.rulesFrom_one after

end Group

theorem selfContained_marker : SelfContained marker :=
  ⟨[markerRule], segment_marker, contents_marker.symm⟩

/-- After such a block, a rule keeps its own selector. -/
theorem contents_group_marker :
    Balanced marker ∧
      contents (.atKeyword "media" :: ([] ++ .opening .curly ::
        (marker ++ .closing .curly :: marker))) =
        [("x", []), ("x", [])] := by
  have hname : GroupName "media" := groupName_iff.mpr (by decide +kernel)
  have hbody : Balanced marker :=
    balanced_iff_closes.mpr (by decide +kernel)
  have hapart := (contents_group_iff hname (List.forall_mem_nil NoEnd)
    hbody).mpr selfContained_marker
  refine ⟨hbody, ?_⟩
  rw [hapart, contents_marker]
  decide +kernel

/-- A rule that the closing brace cuts short takes the next rule with it:
the block of that rule goes to a selector that starts inside the group. -/
theorem rules_group_cutShort {name : String}
    {prelude whole prelude' next : List Token} {first : Token}
    {rs : List Rule} {depth : Nat} {block : List Component}
    (hname : GroupName name) (hprelude : ∀ t ∈ prelude, NoEnd t)
    (hwhole : Segment 1 whole rs depth) (hfirst : StartsRule depth first)
    (hcut : ∀ t ∈ prelude', NoBrace t) (hnext : ∀ t ∈ next, NoBrace t)
    (hblock : WellFormedAll block) (ts : List Token) :
    rules (.atKeyword name :: (prelude ++ .opening .curly ::
      (whole ++ first :: (prelude' ++ .closing .curly :: (next ++
        .opening .curly :: (flattenAll block ++ .closing .curly :: ts)))))) =
      rs ++ ⟨first :: (prelude' ++ .closing .curly :: next), block⟩ ::
        rulesFrom depth ts := by
  have hlonger : ∀ t ∈ prelude' ++ .closing .curly :: next, NoBrace t :=
    List.forall_mem_append.mpr
      ⟨hcut, List.forall_mem_cons.mpr ⟨by simp [NoBrace], hnext⟩⟩
  have hprelude' : ∀ more, prelude' ++ .closing .curly :: (next ++ more) =
      prelude' ++ .closing .curly :: next ++ more := by
    intro more
    simp
  rw [rules, rulesFrom_group (groupName_iff.mp hname) hprelude,
    hwhole.rulesFrom_append, hprelude', rulesFrom_rule hfirst hlonger hblock]

/-- After a block that is only half a rule, a rule has a selector with the
half rule and the closing brace in it. -/
theorem contents_group_halfRule :
    Balanced [.ident "a"] ∧
      contents (.atKeyword "media" :: ([] ++ .opening .curly ::
        ([.ident "a"] ++ .closing .curly :: marker))) = [("a\x7dx", [])] ∧
      contents [.ident "a"] ++ contents marker = [("x", [])] := by
  have hname : GroupName "media" := groupName_iff.mpr (by decide +kernel)
  have hnext : ∀ t ∈ [.ident "x"], NoBrace t := by simp [NoBrace]
  have hblock : WellFormedAll [] := trivial
  refine ⟨balanced_iff_closes.mpr (by decide +kernel), ?_, ?_⟩
  · have hrules := rules_group_cutShort hname (List.forall_mem_nil NoEnd)
      (.nil 1) (startsRule_ident "a") (List.forall_mem_nil NoBrace) hnext
      hblock []
    refine (congrArg (List.map Rule.content) hrules).trans ?_
    rw [rulesFrom_nil]
    decide +kernel
  · rw [contents, rules,
      rulesFrom_unopened (startsRule_ident "a") (List.forall_mem_nil NoBrace),
      contents_marker]
    decide +kernel

end StyleProbe.Css
