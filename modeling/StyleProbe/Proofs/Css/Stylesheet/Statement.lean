import StyleProbe.Proofs.Css.Stylesheet.Grouping

/-!
# Where a statement ends

An at-rule without a block is a statement. Its prelude is a list of component
values and its semicolon is the first one outside of them, but the walk does
not look at brackets: it takes the first semicolon or opening brace for the
end of the prelude, at whatever depth. What is left of the statement is then
walked as the start of what follows it.

Main statements: `readsOn_statement_iff_segment` (a statement is passed over
whole exactly when its tokens are whole items that hold no rule) and
`readsOn_statement_iff_noEnd` (where no at-keyword is nested in the prelude,
that is when no semicolon and no opening brace is nested in it either).
-/

namespace StyleProbe.Css

open Component (WellFormedAll flatten flattenAll Balanced balanced_iff_closes
  closes closes_plain closes_of_append closes_append closing_mem_of_closes
  exists_contents)

/-- Behind the tokens the walk goes on as if they had not been there, with
`depth'` groups open. -/
def ReadsOn (depth : Nat) (ts : List Token) (depth' : Nat) : Prop :=
  ∀ after, (rulesFrom depth (ts ++ after)).map Rule.content =
    (rulesFrom depth' after).map Rule.content

/-! ## The prelude of a statement -/

/-- A component value that ends no statement. What is inside a function,
parentheses or square brackets does not matter. -/
def EndsNothing (value : Component) : Prop :=
  value ≠ .token .semicolon ∧ ∀ body, value ≠ .block .curly body

/-- The tokens are component values that a statement can have before its
semicolon. Such tokens are balanced. -/
def StatementPrelude (ts : List Token) : Prop :=
  ∃ values, WellFormedAll values ∧ flattenAll values = ts ∧
    ∀ value ∈ values, EndsNothing value

/-! ## Whole items -/

section Passed

variable {depth depth' : Nat} {ts : List Token}

theorem Segment.readsOn (h : Segment depth ts [] depth') :
    ReadsOn depth ts depth' :=
  fun after => congrArg (List.map Rule.content) (h.rulesFrom_append after)

/-- Where the walk goes on behind an item cut short that has a semicolon,
there is none. -/
theorem CutShort.eq_nil_of_readsOn (hcut : CutShort depth ts)
    (hsemicolon : ts ≠ [] → .semicolon ∈ ts) (h : ReadsOn depth ts depth') :
    ts = [] ∧ depth = depth' := by
  cases hcut with
  | nothing => exact ⟨rfl, depth_eq_of_contents h⟩
  | @rule first prelude hfirst hprelude =>
    -- The block of the marker would go to a rule with the semicolon.
    have hlonger : ∀ t ∈ prelude ++ [.ident "x"], NoBrace t :=
      List.forall_mem_append.mpr ⟨hprelude, by simp [NoBrace]⟩
    have hmem : Token.semicolon ∈ first :: prelude ++ [.ident "x"] :=
      List.mem_append_left [.ident "x"] (hsemicolon (by simp))
    have hc : ';' ∈ Token.semicolon.text.toList := by decide
    have hne := contents_ne_of_mem hfirst hlonger hmem hc (by decide)
      (by decide)
    have hmarker := h marker
    rw [rulesFrom_marker] at hmarker
    rw [List.append_assoc, contents_marker] at hne
    exact absurd hmarker hne
  | atRule hprelude =>
    rcases List.mem_cons.mp (hsemicolon (by simp)) with heq | hmem
    · cases heq
    · exact absurd rfl (hprelude _ hmem).2

/-- Tokens up to a semicolon that are passed over are whole items. -/
theorem ReadsOn.segment (h : ReadsOn depth (ts ++ [.semicolon]) depth')
    {pending : List Bracket} (hcloses : closes pending ts = true) :
    Segment depth (ts ++ [.semicolon]) [] depth' := by
  have hmore : closes (pending ++ []) (ts ++ [.semicolon]) = true :=
    closes_append hcloses rfl
  obtain ⟨whole, tail, rs, inner, heq, hwhole, hcut⟩ :=
    exists_segment depth hmore
  have hsplit : ∀ after, rs.map Rule.content ++
      (rulesFrom inner (tail ++ after)).map Rule.content =
        (rulesFrom depth' after).map Rule.content := by
    intro after
    rw [← h after, heq, List.append_assoc, hwhole.rulesFrom_append,
      List.map_append]
  -- With nothing after the semicolon there is no rule.
  have hrs : rs = [] := by
    have hlast := hsplit []
    rw [rulesFrom_nil, List.map_nil, List.append_eq_nil_iff] at hlast
    exact List.map_eq_nil_iff.mp hlast.1
  subst hrs
  have htail : tail ≠ [] → .semicolon ∈ tail := by
    intro hne
    obtain ⟨front, last, rfl⟩ := (List.eq_nil_or_concat tail).resolve_left hne
    rw [List.concat_eq_append, ← List.append_assoc] at heq
    obtain ⟨-, hlast⟩ := List.append_inj' heq rfl
    cases hlast
    simp
  obtain ⟨rfl, rfl⟩ := hcut.eq_nil_of_readsOn htail hsplit
  rw [heq, List.append_nil]
  exact hwhole

/-- Whole items that hold no rule and no at-rule are gaps and the ends of
groups. -/
theorem Segment.mem_of_no_atKeyword (h : Segment depth ts [] depth')
    (hname : ∀ name, .atKeyword name ∉ ts) :
    ∀ t ∈ ts, t = .whitespace ∨ t = .semicolon ∨ t = .closing .curly := by
  generalize hrs : ([] : List Rule) = rs at h
  induction h with
  | nil => simp
  | gap hgap _ ih =>
    refine List.forall_mem_cons.mpr ⟨hgap.imp id Or.inl, ih ?_ hrs⟩
    exact fun name hmem => hname name (List.mem_cons_of_mem _ hmem)
  | close _ ih =>
    refine List.forall_mem_cons.mpr ⟨.inr (.inr rfl), ih ?_ hrs⟩
    exact fun name hmem => hname name (List.mem_cons_of_mem _ hmem)
  | statement => exact absurd List.mem_cons_self (hname _)
  | group => exact absurd List.mem_cons_self (hname _)
  | skipped => exact absurd List.mem_cons_self (hname _)
  | rule => cases hrs

end Passed

/-! ## Nested semicolons and braces -/

section Nested

variable {depth : Nat} {name : String} {t : Token}
  {before more : List Token}

/-- What may end the prelude too early inside a function or a block has the
bracket around it still to be closed. -/
theorem exists_pending_of_body {first : Token} {bracket : Bracket}
    {body : List Component} (hfirst : NoEnd first)
    (hbody : WellFormedAll body)
    (hends : t = .opening .curly ∨ t = .semicolon)
    (heq : first :: (flattenAll body ++ [.closing bracket]) =
      before ++ t :: more) :
    ∃ pending, closes pending (t :: more) = true ∧ bracket ∈ pending := by
  cases before with
  | nil =>
    obtain ⟨rfl, -⟩ := List.cons.inj heq
    exact (hends.elim hfirst.1 hfirst.2).elim
  | cons u before =>
    have hmore : flattenAll body ++ [.closing bracket] = before ++ t :: more :=
      (List.cons.inj heq).2
    rcases List.eq_nil_or_concat more with rfl | ⟨inner, last, rfl⟩
    · obtain ⟨-, hlast⟩ := List.append_inj' hmore rfl
      cases hlast
      rcases hends with heq | heq <;> cases heq
    · rw [List.concat_eq_append, ← List.cons_append, ← List.append_assoc]
        at hmore
      obtain ⟨hinner, hlast⟩ := List.append_inj' hmore rfl
      cases hlast
      have hbalanced : closes [] (before ++ t :: inner) = true := by
        rw [← hinner]
        exact balanced_iff_closes.mp ⟨body, hbody, rfl⟩
      obtain ⟨pending, hpending⟩ := closes_of_append before hbalanced
      have hclosed : closes [bracket] [.closing bracket] = true := by
        simp [closes]
      refine ⟨pending ++ [bracket], ?_, by simp⟩
      rw [List.concat_eq_append, ← List.cons_append]
      exact closes_append hpending hclosed

/-- In a component value that ends no statement, the bracket is no brace. -/
theorem EndsNothing.exists_pending {value : Component}
    (h : EndsNothing value) (hvalue : value.WellFormed)
    (hends : t = .opening .curly ∨ t = .semicolon)
    (heq : flatten value = before ++ t :: more) :
    ∃ pending bracket, closes pending (t :: more) = true ∧
      bracket ∈ pending ∧ bracket ≠ .curly := by
  cases value with
  | token first =>
    cases before with
    | cons u before => simp [flatten] at heq
    | nil =>
      obtain ⟨rfl, -⟩ := List.cons.inj heq
      rcases hends with rfl | rfl
      · cases hvalue
      · exact absurd rfl h.1
  | function name body =>
    have hfirst : NoEnd (.function name) := by simp [NoEnd]
    obtain ⟨pending, hcloses, hmem⟩ :=
      exists_pending_of_body hfirst hvalue hends heq
    exact ⟨pending, .round, hcloses, hmem, by simp⟩
  | block bracket body =>
    have hbracket : bracket ≠ .curly := by
      rintro rfl
      exact h.2 body rfl
    have hfirst : NoEnd (.opening bracket) := by simpa [NoEnd] using hbracket
    obtain ⟨pending, hcloses, hmem⟩ :=
      exists_pending_of_body hfirst hvalue hends heq
    exact ⟨pending, bracket, hcloses, hmem, hbracket⟩

/-- So in the prelude of a statement it is always in such a bracket. -/
theorem StatementPrelude.exists_pending
    (h : StatementPrelude (before ++ t :: more))
    (hends : t = .opening .curly ∨ t = .semicolon) :
    ∃ pending bracket, closes pending (t :: more) = true ∧
      bracket ∈ pending ∧ bracket ≠ .curly := by
  obtain ⟨values, hvalues, heq, hnothing⟩ := h
  induction values generalizing before with
  | nil => simp [flattenAll] at heq
  | cons value values ih =>
    obtain ⟨hvalue, hvalues⟩ := hvalues
    obtain ⟨hfirst, hnothing⟩ := List.forall_mem_cons.mp hnothing
    rw [flattenAll] at heq
    rcases List.append_eq_append_iff.mp heq with
      ⟨mid, rfl, hrest⟩ | ⟨mid, hflat, hrest⟩
    · exact ih hvalues hrest hnothing
    · cases mid with
      | nil =>
        have hnext : flattenAll values = [] ++ t :: more := hrest.symm
        exact ih hvalues hnext hnothing
      | cons u mid =>
        obtain ⟨rfl, rfl⟩ := List.cons.inj hrest
        obtain ⟨pending, bracket, hcloses, hmem, hne⟩ :=
          hfirst.exists_pending hvalue hends hflat
        have hvalues' : closes [] (flattenAll values) = true :=
          balanced_iff_closes.mp ⟨values, hvalues, rfl⟩
        refine ⟨pending, bracket, ?_, hmem, hne⟩
        have hwhole := closes_append hcloses hvalues'
        rwa [List.append_nil] at hwhole

/-- Past a semicolon or a block that ends the prelude too early, the walk
goes on in what is left of the statement. -/
theorem ReadsOn.exists_left {pending : List Bracket} {bracket : Bracket}
    (h : ReadsOn depth
      (.atKeyword name :: (before ++ t :: more ++ [.semicolon])) depth)
    (hbefore : ∀ t ∈ before, NoEnd t)
    (hends : t = .opening .curly ∨ t = .semicolon)
    (hcloses : closes pending (t :: more) = true)
    (hmem : bracket ∈ pending) :
    ∃ depth' left pending', left <:+ more ∧ closes pending' left = true ∧
      bracket ∈ pending' ∧ ReadsOn depth' (left ++ [.semicolon]) depth := by
  have hstatement : ∀ after, (rulesFrom depth (.atKeyword name ::
      (before ++ t :: (more ++ [.semicolon] ++ after)))).map Rule.content =
        (rulesFrom depth after).map Rule.content := by
    intro after
    rw [← h after]
    simp only [List.cons_append, List.append_assoc]
  rcases hends with rfl | rfl
  · have hblock : closes (.curly :: pending) more = true := hcloses
    by_cases hname : isGrouping name = true
    · refine ⟨depth + 1, more, .curly :: pending, List.suffix_rfl, hblock,
        List.mem_cons_of_mem _ hmem, fun after => ?_⟩
      rw [← hstatement after, rulesFrom_group hname hbefore]
    · obtain ⟨block, left, hwf, rfl, hleft⟩ := exists_contents hblock
      have hsuffix : left <:+ flattenAll block ++ .closing .curly :: left :=
        (List.suffix_cons _ left).trans (List.suffix_append _ _)
      refine ⟨depth, left, pending, hsuffix, hleft, hmem, fun after => ?_⟩
      rw [← hstatement after]
      simp only [List.cons_append, List.append_assoc]
      rw [rulesFrom_skipped (eq_false_of_ne_true hname) hbefore hwf]
  · refine ⟨depth, more, pending, List.suffix_rfl, hcloses, hmem,
      fun after => ?_⟩
    rw [← hstatement after, rulesFrom_statement hbefore]

end Nested

/-! ## Statements -/

section Statement

variable {depth : Nat} {name : String} {prelude : List Token}

/-- **A statement is passed over whole exactly when its tokens are whole
items that hold no rule** and leave as many groups open. -/
theorem readsOn_statement_iff_segment (hprelude : Balanced prelude) :
    ReadsOn depth (.atKeyword name :: (prelude ++ [.semicolon])) depth ↔
      Segment depth (.atKeyword name :: (prelude ++ [.semicolon])) []
        depth := by
  have hcloses : closes [] (.atKeyword name :: prelude) = true := by
    rw [closes_plain rfl]
    exact balanced_iff_closes.mp hprelude
  constructor
  · intro h
    exact h.segment hcloses
  · intro h
    exact h.readsOn

/-- `url(a.css)` -/
def fileUrl : List Token :=
  [.function "url", .ident "a", .delim '.', .ident "css", .closing .round]

/-- A style sheet in a file is imported without a trace. -/
theorem readsOn_statement_fileUrl :
    Balanced fileUrl ∧
      ReadsOn 0 (.atKeyword "import" :: (fileUrl ++ [.semicolon])) 0 := by
  have hprelude : Balanced fileUrl :=
    balanced_iff_closes.mpr (by decide +kernel)
  have hnoEnd : ∀ t ∈ fileUrl, NoEnd t := by simp [fileUrl, NoEnd]
  exact ⟨hprelude, (readsOn_statement_iff_segment hprelude).mpr
    (.statement hnoEnd (.nil 0))⟩

/-- `url(data:;base64,YQ)` -/
def dataUrl : List Token :=
  [.function "url", .ident "data", .colon, .semicolon, .ident "base64",
    .comma, .ident "YQ", .closing .round]

/-- A style sheet in the statement itself is not: the statement ends at the
semicolon in the function, and what comes after it is read as the selector of
the next rule. -/
theorem contents_statement_dataUrl :
    StatementPrelude dataUrl ∧
      contents (.atKeyword "import" :: (dataUrl ++ .semicolon :: marker)) =
        [("base64,YQ);x", [])] ∧
      contents marker = [("x", [])] := by
  have hnothing : ∀ value ∈ [Component.function "url" [.token (.ident "data"),
      .token .colon, .token .semicolon, .token (.ident "base64"),
      .token .comma, .token (.ident "YQ")]], EndsNothing value := by
    simp [EndsNothing]
  refine ⟨⟨_, ?_, ?_, hnothing⟩, ?_, ?_⟩
  · simp [WellFormedAll, Component.WellFormed, Token.isPlain]
  · rfl
  · decide +kernel
  · decide +kernel

/-- **Where no at-keyword is nested in its prelude, a statement is passed
over whole exactly when no semicolon and no opening brace is nested in it.**
Otherwise the walk goes on inside a function or a block, and the bracket that
closes it starts a rule. -/
theorem readsOn_statement_iff_noEnd (hprelude : StatementPrelude prelude)
    (hname : ∀ name', .atKeyword name' ∉ prelude) :
    ReadsOn depth (.atKeyword name :: (prelude ++ [.semicolon])) depth ↔
      ∀ t ∈ prelude, NoEnd t := by
  constructor
  · intro h
    rcases noEnd_or_exists_end prelude with hnoEnd |
      ⟨before, t, more, rfl, hends, hbefore⟩
    · exact hnoEnd
    · obtain ⟨pending, bracket, hcloses, hmem, hne⟩ :=
        hprelude.exists_pending hends
      obtain ⟨depth', left, pending', hsuffix, hleft, hopen, hreads⟩ :=
        h.exists_left hbefore hends hcloses hmem
      have hnested : ∀ name', .atKeyword name' ∉ left ++ [.semicolon] := by
        intro name' hat
        rcases List.mem_append.mp hat with hat | hat
        · exact hname name' (List.mem_append_right before
            (List.mem_cons_of_mem t (hsuffix.subset hat)))
        · cases List.mem_singleton.mp hat
      have hclosing : .closing bracket ∈ left ++ [.semicolon] :=
        List.mem_append_left _ (closing_mem_of_closes hleft hopen)
      rcases (hreads.segment hleft).mem_of_no_atKeyword hnested _ hclosing
        with heq | heq | heq
      · cases heq
      · cases heq
      · cases heq
        exact absurd rfl hne
  · intro hnoEnd
    have hwhole : Segment depth
        (.atKeyword name :: (prelude ++ [.semicolon])) [] depth :=
      .statement hnoEnd (.nil depth)
    exact hwhole.readsOn

end Statement

end StyleProbe.Css
