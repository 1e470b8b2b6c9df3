import StyleProbe.Proofs.Css.Token.Scanners

/-!
# Scanning up to a slash

A slash is part of no number and no whitespace, and no name goes on with one.
So what is scanned in front of a slash is what is scanned at the end of the
input, with two exceptions: a string that was not closed goes on behind the
slash, and a backslash at the end of a name escapes it. Then another token is
scanned, and the slash is taken with it, whatever follows.

Main statements: `scan_suffix` (what a scan leaves is the end of what it was
given) and `scan_slash` (a slash is left or taken, and it is taken only where
a backslash or a quote stands in front of it).
-/

namespace StyleProbe.Css

/-! ## What is left -/

theorem suffix_cons_of_suffix {α : Type _} {left rest : List α}
    (h : left <:+ rest) (a : α) : left <:+ a :: rest :=
  h.trans (List.suffix_cons a rest)

theorem takeName_suffix (cs : List Char) : (takeName cs).2 <:+ cs := by
  fun_induction takeName cs with
  | case1 => exact List.suffix_rfl
  | case2 rest => exact List.suffix_rfl
  | case3 c rest _ ih =>
    exact suffix_cons_of_suffix (suffix_cons_of_suffix ih c) '\\'
  | case4 c rest _ _ ih => exact suffix_cons_of_suffix ih c
  | case5 c rest => exact List.suffix_rfl

theorem takeString_suffix (quote : Char) (cs : List Char) :
    (takeString quote cs).2 <:+ cs := by
  fun_induction takeString quote cs with
  | case1 => exact List.suffix_rfl
  | case2 => exact List.nil_suffix
  | case3 rest ih =>
    exact suffix_cons_of_suffix (suffix_cons_of_suffix ih '\n') '\\'
  | case4 c rest _ ih =>
    exact suffix_cons_of_suffix (suffix_cons_of_suffix ih c) '\\'
  | case5 rest => exact List.suffix_cons _ rest
  | case6 rest => exact List.suffix_rfl
  | case7 c rest _ _ _ _ ih => exact suffix_cons_of_suffix ih c

theorem takeSign_suffix (cs : List Char) : (takeSign cs).2 <:+ cs := by
  unfold takeSign
  split
  · exact List.suffix_cons ..
  · exact List.suffix_cons ..
  · exact List.suffix_rfl

theorem splitDigits_suffix (cs : List Char) :
    (Decimal.splitDigits cs).2 <:+ cs := List.dropWhile_suffix _

theorem takeFraction_suffix (cs : List Char) : (takeFraction cs).2 <:+ cs := by
  unfold takeFraction
  split
  · rename_i rest
    dsimp only
    split
    · exact List.suffix_rfl
    · exact suffix_cons_of_suffix (splitDigits_suffix rest) '.'
  · exact List.suffix_rfl

theorem takeExponent_suffix (cs : List Char) : (takeExponent cs).2 <:+ cs := by
  unfold takeExponent
  split
  · exact List.suffix_rfl
  · rename_i marker rest
    dsimp only
    split
    · exact suffix_cons_of_suffix
        ((splitDigits_suffix _).trans (takeSign_suffix rest)) marker
    · exact List.suffix_rfl

theorem takeNumber_suffix (cs : List Char) : (takeNumber cs).2 <:+ cs :=
  ((takeExponent_suffix _).trans (takeFraction_suffix _)).trans
    ((splitDigits_suffix _).trans (takeSign_suffix cs))

theorem scanString_suffix (quote : Char) (rest : List Char) :
    (scanString quote rest).2 <:+ rest := by
  have h := takeString_suffix quote rest
  unfold scanString
  split
  · rename_i heq
    rwa [heq] at h
  · rename_i heq
    rwa [heq] at h

theorem scanNumeric_suffix (cs : List Char) : (scanNumeric cs).2 <:+ cs := by
  have h := takeNumber_suffix cs
  unfold scanNumeric
  dsimp only
  split
  · exact (takeName_suffix _).trans h
  split
  · rename_i heq
    rw [heq] at h
    exact (List.suffix_cons ..).trans h
  · exact h

theorem scanNameLike_suffix (cs : List Char) : (scanNameLike cs).2 <:+ cs := by
  have h := takeName_suffix cs
  unfold scanNameLike
  split
  · rename_i heq
    rw [heq] at h
    exact (List.suffix_cons ..).trans h
  · rename_i heq
    rwa [heq] at h

/-- **What a scan leaves is the end of what it was given.** -/
theorem scan_suffix (c : Char) (rest : List Char) :
    (scan c rest).2 <:+ rest := by
  have h : (scan c rest).2 <:+ c :: rest := by
    unfold scan
    split
    · exact List.suffix_cons c rest
    split
    · exact suffix_cons_of_suffix (List.dropWhile_suffix _) c
    split
    · exact suffix_cons_of_suffix (scanString_suffix c rest) c
    split
    · exact scanNumeric_suffix _
    split
    · exact scanNameLike_suffix _
    split
    · exact suffix_cons_of_suffix (takeName_suffix rest) c
    split
    · exact suffix_cons_of_suffix (takeName_suffix rest) c
    · exact List.suffix_cons c rest
  rcases List.suffix_cons_iff.mp h with heq | h
  · have hlength := length_scan_le c rest
    rw [heq, List.length_cons] at hlength
    omega
  · exact h

/-! ## A slash that is left or taken -/

section Slash

variable {α : Type _}

/-- The scanner leaves a slash behind the characters, with all that follows
it, and takes what it takes of the characters alone. -/
def LeavesSlash (scanner : List Char → α × List Char) (cs : List Char) :
    Prop :=
  ∀ more, scanner (cs ++ '/' :: more) =
    ((scanner cs).1, (scanner cs).2 ++ '/' :: more)

/-- The scanner takes a slash behind the characters, and then it does not give
what it gives of the characters alone. -/
def TakesSlash (scanner : List Char → α × List Char) (cs : List Char) :
    Prop :=
  ∀ more, (scanner (cs ++ '/' :: more)).1 ≠ (scanner cs).1 ∧
    (scanner (cs ++ '/' :: more)).2.length ≤ more.length

variable {f g : List Char → α × List Char} {xs ys : List Char}

theorem LeavesSlash.congr (h : LeavesSlash g ys) (hsame : f xs = g ys)
    (hmore : ∀ more, f (xs ++ '/' :: more) = g (ys ++ '/' :: more)) :
    LeavesSlash f xs := by
  intro more
  rw [hmore, hsame, h more]

theorem TakesSlash.congr (h : TakesSlash g ys) (hsame : f xs = g ys)
    (hmore : ∀ more, f (xs ++ '/' :: more) = g (ys ++ '/' :: more)) :
    TakesSlash f xs := by
  intro more
  rw [hmore, hsame]
  exact h more

end Slash

/-! ## Names and strings -/

/-- A name takes a slash only behind a backslash. -/
theorem takeName_slash (cs : List Char) :
    LeavesSlash takeName cs ∨ TakesSlash takeName cs ∧ '\\' ∈ cs := by
  fun_induction takeName cs with
  | case1 => exact .inl fun more => rfl
  | case2 rest => exact .inl fun more => rfl
  | case3 c rest hc ih =>
    have hstep : ∀ cs, takeName ('\\' :: c :: cs) =
        (c :: (takeName cs).1, (takeName cs).2) := by
      intro cs
      rw [takeName, if_neg hc]
    refine ih.imp (fun h more => ?_) fun h => ⟨fun more => ?_, by simp⟩
    · rw [List.cons_append, List.cons_append, hstep, hstep, h more]
    · rw [List.cons_append, List.cons_append, hstep, hstep]
      exact ⟨by simpa using (h.1 more).1, (h.1 more).2⟩
  | case4 c rest hescape hc ih =>
    refine ih.imp (fun h more => ?_) fun h => ⟨fun more => ?_, by simp [h.2]⟩
    · rw [List.cons_append, takeName_cons hc, takeName_cons hc, h more]
    · rw [List.cons_append, takeName_cons hc, takeName_cons hc]
      exact ⟨by simpa using (h.1 more).1, (h.1 more).2⟩
  | case5 c rest hescape hc =>
    have hc' : isNameChar c = false := by simpa using hc
    by_cases hbackslash : c = '\\'
    · -- The backslash is the last character, and escapes the slash.
      subst hbackslash
      cases rest with
      | cons d tail => exact absurd rfl (hescape d tail rfl)
      | nil =>
        refine .inr ⟨fun more => ⟨List.cons_ne_nil _ _, ?_⟩, by simp⟩
        exact length_takeName_le more
    · refine .inl fun more => ?_
      rw [takeName_of_not_isNameChar hc', List.cons_append,
        takeName_of_not_isNameChar hc']
      · intro d tail heq
        exact hbackslash (List.cons.inj heq).1
      · intro d tail heq
        exact hbackslash (List.cons.inj heq).1

theorem takeString_escape (quote : Char) {c : Char} (hc : c ≠ '\n')
    (rest : List Char) :
    takeString quote ('\\' :: c :: rest) =
      ((takeString quote rest).1.map (c :: ·), (takeString quote rest).2) := by
  rw [takeString, if_neg hc]

/-- A string takes a slash if it is not closed; no quote is a slash. -/
theorem takeString_slash {quote : Char} (hquote : quote ≠ '/')
    (cs : List Char) :
    LeavesSlash (takeString quote) cs ∨ TakesSlash (takeString quote) cs := by
  have hcons : ∀ (c : Char) {taken kept : Option (List Char)},
      taken ≠ kept → taken.map (c :: ·) ≠ kept.map (c :: ·) :=
    fun c _ _ h heq => h
      ((Option.map_inj_right fun _ _ h => (List.cons.inj h).2).mp heq)
  fun_induction takeString quote cs with
  | case1 =>
    refine .inr fun more => ?_
    rw [List.nil_append, takeString_cons (by decide), if_neg hquote.symm,
      if_neg (by decide)]
    refine ⟨?_, length_takeString_le quote more⟩
    intro heq
    obtain ⟨_, -, hcontents⟩ := Option.map_eq_some_iff.mp heq
    cases hcontents
  | case2 =>
    refine .inr fun more => ?_
    rw [List.cons_append, List.nil_append,
      takeString_escape quote (by decide)]
    refine ⟨?_, length_takeString_le quote more⟩
    intro heq
    obtain ⟨_, -, hcontents⟩ := Option.map_eq_some_iff.mp heq
    cases hcontents
  | case3 rest ih => exact ih
  | case4 c rest hc ih =>
    refine ih.imp (fun h more => ?_) fun h more => ?_
    · rw [List.cons_append, List.cons_append, takeString_escape quote hc,
        takeString_escape quote hc, h more]
    · rw [List.cons_append, List.cons_append, takeString_escape quote hc,
        takeString_escape quote hc]
      exact ⟨hcons c (h more).1, (h more).2⟩
  | case5 rest hend hescape =>
    have hc := ne_backslash hend hescape
    refine .inl fun more => ?_
    rw [List.cons_append, takeString_cons hc, takeString_cons hc,
      if_pos rfl, if_pos rfl]
  | case6 rest hend hescape hc =>
    refine .inl fun more => ?_
    rw [List.cons_append, takeString_cons (by decide),
      takeString_cons (by decide), if_neg hc, if_neg hc, if_pos rfl,
      if_pos rfl]
    rfl
  | case7 c rest hend hescape hc hline ih =>
    have hbackslash := ne_backslash hend hescape
    have hstep : ∀ cs, takeString quote (c :: cs) =
        ((takeString quote cs).1.map (c :: ·), (takeString quote cs).2) := by
      intro cs
      rw [takeString_cons hbackslash, if_neg hc, if_neg hline]
    refine ih.imp (fun h more => ?_) fun h more => ?_
    · rw [List.cons_append, hstep, hstep, h more]
    · rw [List.cons_append, hstep, hstep]
      exact ⟨hcons c (h more).1, (h more).2⟩

/-! ## Numbers -/

theorem startsName_slash (cs more : List Char) :
    startsName (cs ++ '/' :: more) = startsName cs := by
  cases cs with
  | nil => rfl
  | cons c rest =>
    rw [List.cons_append, startsName_cons, startsName_cons]
    cases rest with
    | nil => rfl
    | cons d rest => rfl

theorem startsUnsigned_slash (cs more : List Char) :
    startsUnsigned (cs ++ '/' :: more) = startsUnsigned cs := by
  cases cs with
  | nil => rfl
  | cons c rest =>
    by_cases hpoint : c = '.'
    · subst hpoint
      cases rest with
      | nil => rfl
      | cons d rest => rfl
    · rw [List.cons_append, startsUnsigned_cons hpoint,
        startsUnsigned_cons hpoint]

theorem splitSign_slash (cs more : List Char) :
    Decimal.splitSign (cs ++ '/' :: more) =
      ((Decimal.splitSign cs).1, (Decimal.splitSign cs).2 ++ '/' :: more) := by
  cases cs with
  | nil => rfl
  | cons c rest =>
    by_cases hplus : c = '+'
    · subst hplus
      rfl
    by_cases hminus : c = '-'
    · subst hminus
      rfl
    · simp [Decimal.splitSign, hplus, hminus]

theorem startsNumber_slash (cs more : List Char) :
    startsNumber (cs ++ '/' :: more) = startsNumber cs := by
  rw [startsNumber, splitSign_slash, startsUnsigned_slash, startsNumber]

theorem dropWhile_slash {p : Char → Bool} (hp : p '/' = false)
    (cs more : List Char) :
    (cs ++ '/' :: more).dropWhile p = cs.dropWhile p ++ '/' :: more := by
  rw [List.dropWhile_append]
  split
  · rename_i h
    rw [List.isEmpty_iff.mp h, List.dropWhile_cons_of_neg (by simp [hp])]
    rfl
  · rfl

theorem splitDigits_slash (cs : List Char) :
    LeavesSlash Decimal.splitDigits cs := by
  intro more
  have htaken : (cs ++ '/' :: more).takeWhile Char.isDigit =
      cs.takeWhile Char.isDigit := by
    rw [List.takeWhile_append]
    split
    · rename_i hall
      rw [List.takeWhile_cons_of_neg (by decide), List.append_nil]
      exact (List.takeWhile_prefix _).eq_of_length hall |>.symm
    · rfl
  rw [Decimal.splitDigits, dropWhile_slash rfl, htaken]
  rfl

theorem takeSign_slash (cs : List Char) : LeavesSlash takeSign cs := by
  intro more
  cases cs with
  | nil => rfl
  | cons c rest =>
    by_cases hplus : c = '+'
    · subst hplus
      rfl
    by_cases hminus : c = '-'
    · subst hminus
      rfl
    · simp [takeSign, hplus, hminus]

theorem takeFraction_slash (cs : List Char) : LeavesSlash takeFraction cs := by
  intro more
  cases cs with
  | nil => rfl
  | cons c rest =>
    by_cases hpoint : c = '.'
    · subst hpoint
      rw [List.cons_append, takeFraction, takeFraction,
        splitDigits_slash rest more]
      dsimp only
      split <;> rfl
    · simp [takeFraction, hpoint]

theorem takeExponent_slash (cs : List Char) : LeavesSlash takeExponent cs := by
  intro more
  cases cs with
  | nil => rfl
  | cons marker rest =>
    rw [List.cons_append, takeExponent, takeExponent, takeSign_slash rest more]
    dsimp only
    rw [splitDigits_slash _ more]
    dsimp only
    split <;> rfl

theorem takeNumber_slash (cs : List Char) : LeavesSlash takeNumber cs := by
  intro more
  unfold takeNumber
  rw [takeSign_slash]
  dsimp only
  rw [splitDigits_slash]
  dsimp only
  rw [takeFraction_slash]
  dsimp only
  rw [takeExponent_slash]

/-! ## One token -/

theorem scanString_eq (quote : Char) (cs : List Char) :
    scanString quote cs =
      ((takeString quote cs).1.elim .badString (.string ∘ String.ofList),
        (takeString quote cs).2) := by
  unfold scanString
  split
  · rename_i heq
    rw [heq]
    rfl
  · rename_i heq
    rw [heq]
    rfl

theorem scanString_slash {quote : Char} (hquote : quote ≠ '/')
    (cs : List Char) :
    LeavesSlash (scanString quote) cs ∨ TakesSlash (scanString quote) cs := by
  have htoken : ∀ {xs ys : Option (List Char)}, xs ≠ ys →
      xs.elim Token.badString (.string ∘ String.ofList) ≠
        ys.elim Token.badString (.string ∘ String.ofList) := by
    intro xs ys h
    cases xs <;> cases ys <;> simp_all [String.ofList_inj]
  refine (takeString_slash hquote cs).imp (fun h more => ?_) fun h more => ?_
  · rw [scanString_eq, scanString_eq, h more]
  · rw [scanString_eq, scanString_eq]
    exact ⟨htoken (h more).1, (h more).2⟩

theorem takeName_eq_of_scanNameLike {xs ys : List Char}
    (h : (scanNameLike xs).1 = (scanNameLike ys).1) :
    (takeName xs).1 = (takeName ys).1 := by
  unfold scanNameLike at h
  split at h <;> split at h <;> simp_all [String.ofList_inj]

theorem length_scanNameLike_le (cs : List Char) :
    (scanNameLike cs).2.length ≤ (takeName cs).2.length := by
  unfold scanNameLike
  split <;> simp_all

theorem scanNameLike_slash (cs : List Char) :
    LeavesSlash scanNameLike cs ∨
      TakesSlash scanNameLike cs ∧ '\\' ∈ cs := by
  refine (takeName_slash cs).imp (fun h more => ?_)
    (.imp_left fun h more => ⟨?_, ?_⟩)
  · have hmore := h more
    rcases htaken : takeName cs with ⟨name, rest⟩
    rw [htaken] at hmore
    by_cases hcall : rest.head? = some '('
    · obtain ⟨after, rfl⟩ := List.head?_eq_some_iff.mp hcall
      rw [scanNameLike, hmore, scanNameLike, htaken]
      rfl
    · have hslash : (rest ++ '/' :: more).head? ≠ some '(' := by
        cases rest with
        | nil => simp
        | cons d after => exact hcall
      rw [scanNameLike_name hmore hslash, scanNameLike_name htaken hcall]
  · exact fun heq => (h more).1 (takeName_eq_of_scanNameLike heq)
  · exact (length_scanNameLike_le _).trans (h more).2

theorem scanNumeric_slash (cs : List Char) :
    LeavesSlash scanNumeric cs ∨ TakesSlash scanNumeric cs ∧ '\\' ∈ cs := by
  have hnumber := takeNumber_slash cs
  have hsuffix := takeNumber_suffix cs
  rcases htaken : takeNumber cs with ⟨digits, rest⟩
  rw [htaken] at hsuffix
  have hmore : ∀ more, takeNumber (cs ++ '/' :: more) =
      (digits, rest ++ '/' :: more) := by
    intro more
    rw [hnumber more, htaken]
  by_cases hname : startsName rest = true
  · -- Only the name of the unit can take the slash.
    have hunit : ∀ {xs rest : List Char}, takeNumber xs = (digits, rest) →
        startsName rest = true → scanNumeric xs =
          (.dimension (numberValue digits) (String.ofList (takeName rest).1),
            (takeName rest).2) := by
      intro xs rest hxs hrest
      simp only [scanNumeric, hxs, if_pos hrest]
    have hname' : ∀ more, startsName (rest ++ '/' :: more) = true := by
      intro more
      rw [startsName_slash, hname]
    refine (takeName_slash rest).imp (fun h more => ?_) fun h =>
      ⟨fun more => ?_, hsuffix.subset h.2⟩
    · rw [hunit (hmore more) (hname' more), hunit htaken hname, h more]
    · rw [hunit (hmore more) (hname' more), hunit htaken hname]
      refine ⟨fun heq => (h.1 more).1 ?_, (h.1 more).2⟩
      exact String.ofList_inj.mp (Token.dimension.inj heq).2
  · refine .inl fun more => ?_
    have hname' : ¬ startsName (rest ++ '/' :: more) = true := by
      rwa [startsName_slash]
    simp only [scanNumeric, hmore, htaken, if_neg hname, if_neg hname']
    cases rest with
    | nil => rfl
    | cons d after =>
      by_cases hpercent : d = '%'
      · subst hpercent
        rfl
      · simp [hpercent]

/-- A backslash or a quote. -/
def isQuoting (c : Char) : Bool :=
  c == '\\' || c == '"' || c == '\x27'

theorem markedName_slash (mark : String → Token)
    (hmark : ∀ {s t}, mark s = mark t → s = t) (cs : List Char) :
    LeavesSlash (fun cs =>
        (mark (String.ofList (takeName cs).1), (takeName cs).2)) cs ∨
      TakesSlash (fun cs =>
        (mark (String.ofList (takeName cs).1), (takeName cs).2)) cs ∧
          '\\' ∈ cs := by
  refine (takeName_slash cs).imp (fun h more => ?_)
    (.imp_left fun h more => ?_)
  · dsimp only
    rw [h more]
  · exact ⟨fun heq => (h more).1 (String.ofList_inj.mp (hmark heq)),
      (h more).2⟩

/-- The scan where neither a number nor a name starts: a mark and the name
behind it, or the character alone. -/
def scanMark (c : Char) (cs : List Char) : Token × List Char :=
  if c = '#' ∧ cs.head?.any isNameChar then
    (.hash (String.ofList (takeName cs).1), (takeName cs).2)
  else if c = '@' ∧ startsName cs then
    (.atKeyword (String.ofList (takeName cs).1), (takeName cs).2)
  else (.delim c, cs)

theorem scan_eq_scanMark {c : Char} {cs : List Char}
    (hpunctuation : punctuation? c = none) (hspace : ¬ isSpace c = true)
    (hquote : ¬ (c = '"' ∨ c = '\x27'))
    (hnumber : ¬ startsNumber (c :: cs) = true)
    (hname : ¬ startsName (c :: cs) = true) : scan c cs = scanMark c cs := by
  simp only [scan, hpunctuation, if_neg hspace, if_neg hquote, if_neg hnumber,
    if_neg hname]
  rfl

theorem scanMark_slash (c : Char) (cs : List Char) :
    LeavesSlash (scanMark c) cs ∨ TakesSlash (scanMark c) cs ∧ '\\' ∈ cs := by
  have hfirst : ∀ more, (cs ++ '/' :: more).head?.any isNameChar =
      cs.head?.any isNameChar := by
    intro more
    cases cs <;> rfl
  have hname := startsName_slash cs
  by_cases hhash : c = '#' ∧ cs.head?.any isNameChar = true
  · simp only [LeavesSlash, TakesSlash, scanMark, hfirst, if_pos hhash]
    exact markedName_slash .hash Token.hash.inj cs
  by_cases hat : c = '@' ∧ startsName cs = true
  · simp only [LeavesSlash, TakesSlash, scanMark, hfirst, hname,
      if_neg hhash, if_pos hat]
    exact markedName_slash .atKeyword Token.atKeyword.inj cs
  · refine .inl fun more => ?_
    simp only [scanMark, hfirst, hname, if_neg hhash, if_neg hat]

/-- **A slash behind a text is left or taken** by the token that starts
there, and it is taken only behind a backslash or a quote. -/
theorem scan_slash (c : Char) (rest : List Char) :
    LeavesSlash (scan c) rest ∨
      TakesSlash (scan c) rest ∧ ∃ d ∈ c :: rest, isQuoting d = true := by
  -- The test that chooses the scanner does not see the slash.
  have hnumber' := startsNumber_slash (c :: rest)
  have hname' := startsName_slash (c :: rest)
  have hescape : ∀ {cs : List Char}, '\\' ∈ cs → cs ⊆ c :: rest →
      ∃ d ∈ c :: rest, isQuoting d = true :=
    fun hmem hsub => ⟨'\\', hsub hmem, rfl⟩
  cases hpunctuation : punctuation? c with
  | some t => exact .inl fun more => by simp only [scan, hpunctuation]
  | none =>
    by_cases hspace : isSpace c = true
    · refine .inl fun more => ?_
      simp only [scan, hpunctuation, if_pos hspace]
      rw [dropWhile_slash rfl]
    by_cases hquote : c = '"' ∨ c = '\x27'
    · have hscan : scan c = scanString c := by
        funext rest
        simp only [scan, hpunctuation, if_neg hspace, if_pos hquote]
      have hc : c ≠ '/' ∧ isQuoting c = true := by
        rcases hquote with rfl | rfl <;> decide
      rw [hscan]
      exact (scanString_slash hc.1 rest).imp_right
        (⟨·, c, List.mem_cons_self, hc.2⟩)
    by_cases hnumber : startsNumber (c :: rest) = true
    · have hsame := scan_of_startsNumber hnumber
      have hmore : ∀ more, scan c (rest ++ '/' :: more) =
          scanNumeric (c :: rest ++ '/' :: more) :=
        fun more => scan_of_startsNumber ((hnumber' more).trans hnumber)
      exact (scanNumeric_slash (c :: rest)).imp (·.congr hsame hmore) fun h =>
        ⟨h.1.congr hsame hmore, hescape h.2 (List.Subset.refl _)⟩
    by_cases hname : startsName (c :: rest) = true
    · have hsame := scan_of_startsName hname
      have hmore : ∀ more, scan c (rest ++ '/' :: more) =
          scanNameLike (c :: rest ++ '/' :: more) :=
        fun more => scan_of_startsName ((hname' more).trans hname)
      exact (scanNameLike_slash (c :: rest)).imp (·.congr hsame hmore) fun h =>
        ⟨h.1.congr hsame hmore, hescape h.2 (List.Subset.refl _)⟩
    · have hsame : scan c rest = scanMark c rest :=
        scan_eq_scanMark hpunctuation hspace hquote hnumber hname
      have hmore : ∀ more, scan c (rest ++ '/' :: more) =
          scanMark c (rest ++ '/' :: more) := fun more =>
        scan_eq_scanMark hpunctuation hspace hquote
          (fun h => hnumber ((hnumber' more).symm.trans h))
          fun h => hname ((hname' more).symm.trans h)
      exact (scanMark_slash c rest).imp (·.congr hsame hmore) fun h =>
        ⟨h.1.congr hsame hmore, hescape h.2 (List.subset_cons_self c rest)⟩

end StyleProbe.Css
