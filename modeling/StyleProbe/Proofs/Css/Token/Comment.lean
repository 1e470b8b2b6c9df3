import StyleProbe.Proofs.Css.Token.Slash

/-!
# Comments

A comment starts at a slash and an asterisk where a token could start, and
ends at the first asterisk and slash behind them. It separates tokens and does
nothing else: what stands in front of it and what stands behind it are read
apart. Only a comment without an end is an error.

What is read in front of a comment is read alike at the end of the input,
unless a string or an escape takes the slash of the comment (`ReadsApart`).

Main statements: `afterComment?_eq_some_iff` (where a comment ends),
`tokenize_comment` (a comment separates) and `tokenize_eq_error_iff` (the only
error).
-/

namespace StyleProbe.Css

/-! ## The end of a comment -/

theorem afterComment?_cons {c : Char} {rest : List Char}
    (h : ¬ ['*', '/'] <+: c :: rest) :
    afterComment? (c :: rest) = afterComment? rest := by
  rw [afterComment?]
  rintro after rfl rfl
  exact h ⟨after, rfl⟩

/-- A comment has no end where the text holds no asterisk before a slash. -/
theorem afterComment?_eq_none_iff {cs : List Char} :
    afterComment? cs = none ↔ ¬ ['*', '/'] <:+: cs := by
  induction cs with
  | nil => simp [afterComment?]
  | cons c rest ih =>
    rw [List.infix_cons_iff, not_or]
    by_cases h : ['*', '/'] <+: c :: rest
    · obtain ⟨after, heq⟩ := h
      rw [← heq]
      simp [afterComment?]
    · rw [afterComment?_cons h, ih, and_iff_right h]

/-- A body that does not end a comment does not end one with its first
character and what follows the body. -/
theorem not_end_prefix_append {c : Char} {body : List Char}
    (h : ¬ ['*', '/'] <:+: c :: body) (after : List Char) :
    ¬ ['*', '/'] <+: c :: body ++ '*' :: '/' :: after := by
  intro hstart
  cases body with
  | nil => simp at hstart
  | cons d body =>
    simp only [List.cons_append, List.cons_prefix_cons] at hstart
    obtain ⟨rfl, rfl, -⟩ := hstart
    exact h ⟨[], body, rfl⟩

/-- **A comment ends at the first asterisk before a slash.** -/
theorem afterComment?_eq_some_iff {cs after : List Char} :
    afterComment? cs = some after ↔
      ∃ body, cs = body ++ '*' :: '/' :: after ∧ ¬ ['*', '/'] <:+: body := by
  constructor
  · intro h
    induction cs with
    | nil => cases h
    | cons c rest ih =>
      by_cases hend : ['*', '/'] <+: c :: rest
      · obtain ⟨tail, heq⟩ := hend
        rw [← heq] at h ⊢
        obtain rfl := Option.some.inj h
        exact ⟨[], rfl, by simp⟩
      · rw [afterComment?_cons hend] at h
        obtain ⟨body, rfl, hbody⟩ := ih h
        refine ⟨c :: body, rfl, ?_⟩
        rw [List.infix_cons_iff, not_or]
        exact ⟨fun hstart => hend (hstart.trans (List.prefix_append _ _)),
          hbody⟩
  · rintro ⟨body, rfl, hbody⟩
    induction body with
    | nil => rfl
    | cons c body ih =>
      have htail : ¬ ['*', '/'] <:+: body := fun h =>
        hbody (h.trans (List.suffix_cons c body).isInfix)
      rw [List.cons_append, afterComment?_cons, ih htail]
      exact not_end_prefix_append hbody after

theorem afterComment?_append {cs after : List Char}
    (h : afterComment? cs = some after) (more : List Char) :
    afterComment? (cs ++ more) = some (after ++ more) := by
  obtain ⟨body, rfl, hbody⟩ := afterComment?_eq_some_iff.mp h
  exact afterComment?_eq_some_iff.mpr ⟨body, by simp, hbody⟩

theorem tokenizeChars_closedComment {body : List Char}
    (h : ¬ ['*', '/'] <:+: body) (after : List Char) :
    tokenizeChars ('/' :: '*' :: (body ++ '*' :: '/' :: after)) =
      tokenizeChars after := by
  rw [tokenizeChars_comment, afterComment?_eq_some_iff.mpr ⟨body, rfl, h⟩]

/-! ## In front of a slash -/

/-- Where no comment starts, a token is scanned, also with a slash behind the
characters. -/
theorem tokenizeChars_cons_slash {c : Char} {rest : List Char}
    (h : ∀ after, c :: rest ≠ '/' :: '*' :: after) (more : List Char) :
    tokenizeChars (c :: rest ++ '/' :: more) =
      (tokenizeChars (scan c (rest ++ '/' :: more)).2).map
        ((scan c (rest ++ '/' :: more)).1 :: ·) := by
  apply tokenizeChars_cons
  intro after heq
  cases rest with
  | nil => simp at heq
  | cons d rest =>
    obtain ⟨rfl, hrest⟩ := List.cons.inj heq
    obtain ⟨rfl, -⟩ := List.cons.inj hrest
    exact h rest rfl

/-- The characters are read as the tokens, and so they are in front of a
slash, which is read apart from them with all that follows it. -/
structure ReadsApart (cs : List Char) (ts : List Token) : Prop where
  alone : tokenizeChars cs = .ok ts
  before_slash : ∀ more, tokenizeChars (cs ++ '/' :: more) =
    (tokenizeChars ('/' :: more)).map (ts ++ ·)

namespace ReadsApart

theorem nil : ReadsApart [] [] where
  alone := by rw [tokenizeChars]
  before_slash more := by
    rw [List.nil_append]
    cases tokenizeChars ('/' :: more) <;> rfl

theorem cons {c : Char} {rest : List Char} {ts : List Token}
    (hcomment : ∀ after, c :: rest ≠ '/' :: '*' :: after)
    (hslash : LeavesSlash (scan c) rest)
    (h : ReadsApart (scan c rest).2 ts) :
    ReadsApart (c :: rest) ((scan c rest).1 :: ts) where
  alone := by
    rw [tokenizeChars_cons hcomment, h.alone]
    rfl
  before_slash more := by
    rw [tokenizeChars_cons_slash hcomment, hslash more, h.before_slash]
    cases tokenizeChars ('/' :: more) <;> rfl

theorem comment {rest after : List Char} {ts : List Token}
    (hafter : afterComment? rest = some after) (h : ReadsApart after ts) :
    ReadsApart ('/' :: '*' :: rest) ts where
  alone := by rw [tokenizeChars_comment, hafter, ← h.alone]
  before_slash more := by
    rw [List.cons_append, List.cons_append, tokenizeChars_comment,
      afterComment?_append hafter, ← h.before_slash]

end ReadsApart

/-- **Characters are read apart from a slash behind them**, or there is a
backslash or a quote among them and the tokens are others with the slash. -/
theorem readsApart_or_ne {cs : List Char} {ts : List Token}
    (h : tokenizeChars cs = .ok ts) :
    ReadsApart cs ts ∨ (∃ c ∈ cs, isQuoting c = true) ∧
      ∀ more us, tokenizeChars (cs ++ '/' :: more) ≠ .ok (ts ++ us) := by
  refine tokenized_induction (P := fun cs ts => ReadsApart cs ts ∨
    (∃ c ∈ cs, isQuoting c = true) ∧
      ∀ more us, tokenizeChars (cs ++ '/' :: more) ≠ .ok (ts ++ us))
    (.inl .nil) ?_ ?_ h
  · intro rest after ts hafter ih
    refine ih.imp (ReadsApart.comment hafter) fun hother => ⟨?_, ?_⟩
    · obtain ⟨c, hc, hquoting⟩ := hother.1
      obtain ⟨body, rfl, -⟩ := afterComment?_eq_some_iff.mp hafter
      exact ⟨c, by simp [hc], hquoting⟩
    · intro more us heq
      rw [List.cons_append, List.cons_append, tokenizeChars_comment,
        afterComment?_append hafter] at heq
      exact hother.2 more us heq
  · intro c rest ts hcomment _ ih
    rcases scan_slash c rest with hslash | ⟨hslash, hquoting⟩
    · refine ih.imp (ReadsApart.cons hcomment hslash) fun hother => ⟨?_, ?_⟩
      · obtain ⟨d, hd, hquoting⟩ := hother.1
        exact ⟨d, List.mem_cons_of_mem c ((scan_suffix c rest).subset hd),
          hquoting⟩
      · intro more us heq
        rw [tokenizeChars_cons_slash hcomment, hslash more] at heq
        obtain ⟨tail, htail, hcons⟩ := exists_of_map_cons_eq_ok heq
        rw [← (List.cons.inj hcons).2] at htail
        exact hother.2 more us htail
    · refine .inr ⟨hquoting, fun more us heq => ?_⟩
      rw [tokenizeChars_cons_slash hcomment] at heq
      obtain ⟨tail, -, hcons⟩ := exists_of_map_cons_eq_ok heq
      exact (hslash more).1 (List.cons.inj hcons).1.symm

/-- Where a scan leaves characters that are read apart from a comment, so are
they with the scanned token in front. -/
theorem exists_readsApart_of_scan {c : Char} {rest before body : List Char}
    {ts : List Token} (hcomment : ∀ after, c :: rest ≠ '/' :: '*' :: after)
    (hleft : (scan c rest).2 = before ++ '/' :: '*' :: body)
    (h : ReadsApart before ts) :
    ∃ front ts', c :: rest = front ++ '/' :: '*' :: body ∧
      ReadsApart front ts' := by
  obtain ⟨taken, htaken⟩ := scan_suffix c rest
  rw [hleft, ← List.append_assoc] at htaken
  subst htaken
  have hfront : ∀ after, c :: (taken ++ before) ≠ '/' :: '*' :: after := by
    intro after heq
    refine hcomment (after ++ '/' :: '*' :: body) ?_
    rw [← List.cons_append, heq]
    rfl
  rcases scan_slash c (taken ++ before) with hslash | ⟨hslash, -⟩
  · rw [hslash ('*' :: body)] at hleft
    rw [← List.append_cancel_right hleft] at h
    exact ⟨c :: (taken ++ before), _, rfl, .cons hfront hslash h⟩
  · -- The slash of the comment is left, so it was not taken.
    have hlength := (hslash ('*' :: body)).2
    rw [hleft, List.length_append, List.length_cons] at hlength
    omega

/-- Where the tokens are not read, a comment without an end is the first thing
behind characters that are read apart from it. -/
theorem exists_readsApart_of_error {cs : List Char} {e : Error}
    (h : tokenizeChars cs = .error e) :
    e = .unterminatedComment ∧ ∃ before body ts,
      cs = before ++ '/' :: '*' :: body ∧ ¬ ['*', '/'] <:+: body ∧
        ReadsApart before ts := by
  fun_induction tokenizeChars cs with
  | case1 => cases h
  | case2 rest hcomment =>
    exact ⟨(Except.error.inj h).symm, [], rest, [], rfl,
      afterComment?_eq_none_iff.mp hcomment, .nil⟩
  | case3 rest after hcomment ih =>
    obtain ⟨he, before, body, ts, rfl, hbody, hapart⟩ := ih h
    obtain ⟨skipped, rfl, hskipped⟩ := afterComment?_eq_some_iff.mp hcomment
    refine ⟨he, '/' :: '*' :: (skipped ++ '*' :: '/' :: before), body, ts,
      by simp, hbody, .comment ?_ hapart⟩
    exact afterComment?_eq_some_iff.mpr ⟨skipped, rfl, hskipped⟩
  | case4 c rest hcomment step =>
    rename_i ih
    have herror : tokenizeChars step.2 = .error e := by
      cases htokens : tokenizeChars step.2 with
      | error e' =>
        rw [htokens] at h
        exact h
      | ok tokens =>
        rw [htokens] at h
        cases h
    obtain ⟨he, before, body, ts, hleft, hbody, hapart⟩ := ih herror
    have hne : ∀ after, c :: rest ≠ '/' :: '*' :: after := fun after heq =>
      hcomment after (List.cons.inj heq).1 (List.cons.inj heq).2
    obtain ⟨front, ts', hfront, hapart'⟩ :=
      exists_readsApart_of_scan hne hleft hapart
    exact ⟨he, front, body, ts', hfront, hbody, hapart'⟩

/-- The only error is a comment without an end, behind what is read apart. -/
theorem tokenizeChars_eq_error_iff {cs : List Char} {e : Error} :
    tokenizeChars cs = .error e ↔ e = .unterminatedComment ∧
      ∃ before body ts, cs = before ++ '/' :: '*' :: body ∧
        ¬ ['*', '/'] <:+: body ∧ ReadsApart before ts := by
  refine ⟨exists_readsApart_of_error, ?_⟩
  rintro ⟨rfl, before, body, ts, rfl, hbody, hapart⟩
  rw [hapart.before_slash, tokenizeChars_comment,
    afterComment?_eq_none_iff.mpr hbody]
  rfl

/-- What is read apart is what is read alike with a comment behind it. -/
theorem readsApart_iff {before body : List Char} {ts : List Token}
    (hbody : ¬ ['*', '/'] <:+: body) :
    ReadsApart before ts ↔ tokenizeChars before = .ok ts ∧
      tokenizeChars (before ++ '/' :: '*' :: body ++ ['*', '/']) = .ok ts := by
  have hsplit : before ++ '/' :: '*' :: body ++ ['*', '/'] =
      before ++ '/' :: '*' :: (body ++ '*' :: '/' :: []) := by
    simp
  rw [hsplit]
  constructor
  · intro hapart
    refine ⟨hapart.alone, ?_⟩
    rw [hapart.before_slash, tokenizeChars_closedComment hbody,
      ReadsApart.nil.alone]
    simp [Except.map]
  · rintro ⟨hbefore, hclosed⟩
    refine (readsApart_or_ne hbefore).resolve_right fun hne => ?_
    apply hne.2 ('*' :: (body ++ '*' :: '/' :: [])) []
    rw [hclosed, List.append_nil]

/-! ## Texts -/

section Texts

variable {a b c : String} {ts : List Token}

theorem toList_comment (a c b : String) :
    (a ++ "/*" ++ c ++ "*/" ++ b).toList =
      a.toList ++ '/' :: '*' :: (c.toList ++ '*' :: '/' :: b.toList) := by
  simp

/-- **A comment separates tokens and does nothing else.** In front of it
stands a text without escapes and strings, which is read as `ts`; whether
what follows the comment is read depends on itself alone. -/
theorem tokenize_comment
    (hplain : ∀ d ∈ a.toList, d ≠ '\\' ∧ d ≠ '"' ∧ d ≠ '\x27')
    (ha : tokenize a = .ok ts) (hc : ¬ ['*', '/'] <:+: c.toList)
    (b : String) :
    tokenize (a ++ "/*" ++ c ++ "*/" ++ b) = (tokenize b).map (ts ++ ·) := by
  have hapart : ReadsApart a.toList ts := by
    refine (readsApart_or_ne ha).resolve_right fun hne => ?_
    obtain ⟨d, hd, hquoting⟩ := hne.1
    obtain ⟨hbackslash, hdouble, hsingle⟩ := hplain d hd
    simp [isQuoting, hbackslash, hdouble, hsingle] at hquoting
  rw [tokenize, toList_comment, hapart.before_slash,
    tokenizeChars_closedComment hc]
  rfl

/-- A comment behind a slash, with a slash at its start and asterisks at its
end, between two texts that would be read together. -/
theorem tokenize_comment_slashes :
    (∀ d ∈ "fl/".toList, d ≠ '\\' ∧ d ≠ '"' ∧ d ≠ '\x27') ∧
      ¬ ['*', '/'] <:+: "/ **".toList ∧
      tokenize "fl/" = .ok [.ident "fl", .delim '/'] ∧
      tokenize ("fl/" ++ "/*" ++ "/ **" ++ "*/" ++ "ex(") =
        .ok [.ident "fl", .delim '/', .function "ex"] := by
  have hplain : ∀ d ∈ "fl/".toList, d ≠ '\\' ∧ d ≠ '"' ∧ d ≠ '\x27' := by
    simp
  have hbody : ¬ ['*', '/'] <:+: "/ **".toList := by decide
  have hbefore : tokenize "fl/" = .ok [.ident "fl", .delim '/'] := by
    with_unfolding_all rfl
  have hbehind : tokenize "ex(" = .ok [.function "ex"] := by
    with_unfolding_all rfl
  refine ⟨hplain, hbody, hbefore, ?_⟩
  rw [tokenize_comment hplain hbefore hbody, hbehind]
  rfl

/-- **Only a comment without an end is an error**: it starts where the text in
front of it is read to its end, and with an end the text would be read as
that. -/
theorem tokenize_eq_error_iff (css : String) (e : Error) :
    tokenize css = .error e ↔ e = .unterminatedComment ∧
      ∃ before body ts, css = before ++ "/*" ++ body ∧
        ¬ ['*', '/'] <:+: body.toList ∧ tokenize before = .ok ts ∧
        tokenize (css ++ "*/") = .ok ts := by
  have hclosed : ∀ before body : String,
      (before ++ "/*" ++ body ++ "*/").toList =
        before.toList ++ '/' :: '*' :: body.toList ++ ['*', '/'] := by
    simp
  refine tokenizeChars_eq_error_iff.trans (and_congr_right fun _ => ?_)
  constructor
  · rintro ⟨before, body, ts, hcss, hbody, hapart⟩
    obtain ⟨hbefore, hread⟩ := (readsApart_iff hbody).mp hapart
    have hcss' : css = String.ofList before ++ "/*" ++ String.ofList body := by
      apply String.toList_inj.mp
      simp [hcss]
    refine ⟨String.ofList before, String.ofList body, ts, hcss', ?_, ?_, ?_⟩
    · rwa [String.toList_ofList]
    · rwa [tokenize, String.toList_ofList]
    · rwa [tokenize, hcss', hclosed, String.toList_ofList,
        String.toList_ofList]
  · rintro ⟨before, body, ts, rfl, hbody, hbefore, hread⟩
    rw [tokenize, hclosed] at hread
    exact ⟨before.toList, body.toList, ts, by simp, hbody,
      (readsApart_iff hbody).mpr ⟨hbefore, hread⟩⟩

end Texts

end StyleProbe.Css
