import StyleProbe.Proofs.Binary32.Defined
import StyleProbe.Proofs.Css.Token.Named

/-!
# What tokens are like

Not every token is read from a text. A name that is read starts as names do,
whatever escapes follow; a string that is read has no line feed inside; a
number is a number; and a character stands for itself only where it starts
nothing else.

Main statement: `lexed_of_mem_tokenize`.
-/

namespace StyleProbe.Css

/-- The token is like one that was read from a text. -/
def Token.Lexed : Token → Prop
  | .ident name => startsName name.toList = true
  | .function name => startsName name.toList = true
  | .atKeyword name => startsName name.toList = true
  | .hash name => name ≠ ""
  | .string contents => '\n' ∉ contents.toList
  | .delim char =>
    punctuation? char = none ∧ isSpace char = false ∧ char ≠ '"' ∧
      char ≠ '\x27' ∧ char.isDigit = false ∧ isNameStart char = false
  | .number value => value ≠ .nan
  | .percentage value => value ≠ .nan
  | .dimension value unit => value ≠ .nan ∧ startsName unit.toList = true
  | _ => True

/-! ## Numbers -/

theorem numberValue_ne_nan (digits : List Char) : numberValue digits ≠ .nan := by
  unfold numberValue
  cases Decimal.read? digits with
  | none => simp [Binary32.zero]
  | some d => exact Binary32.ofDecimal_ne_nan d

/-! ## Names and strings -/

theorem takeName_cons {c : Char} (h : isNameChar c = true)
    (rest : List Char) :
    takeName (c :: rest) = (c :: (takeName rest).1, (takeName rest).2) := by
  rw [takeName.eq_def]
  split
  · rename_i hnil
    cases hnil
  · rename_i hescape
    cases hescape
    exact absurd h (by decide)
  · rename_i hcons
    cases hcons
    exact if_pos h

theorem takeName_append {cs : List Char}
    (h : ∀ c ∈ cs, isNameChar c = true) (rest : List Char) :
    takeName (cs ++ rest) = (cs ++ (takeName rest).1, (takeName rest).2) := by
  induction cs with
  | nil => rfl
  | cons c cs ih =>
    rw [List.cons_append, takeName_cons (h c List.mem_cons_self),
      ih fun d hd => h d (List.mem_cons_of_mem c hd)]
    rfl

theorem startsName_cons (c : Char) (cs : List Char) :
    startsName (c :: cs) =
      if c = '-' then cs.head?.any fun d => d == '-' || isNameStart d
      else isNameStart c := by
  by_cases hc : c = '-'
  · subst hc
    cases cs <;> rfl
  · cases cs <;> simp [startsName, hc]

theorem startsName_takeName {cs : List Char} (h : startsName cs = true) :
    startsName (takeName cs).1 = true := by
  cases cs with
  | nil => cases h
  | cons c rest =>
    have hc := isNameChar_of_startsName h
    rw [startsName_cons] at h
    rw [takeName_cons hc, startsName_cons]
    split at h
    · -- What follows a hyphen there is a name character too.
      rename_i hhyphen
      cases rest with
      | nil => cases h
      | cons d rest =>
        have hd : isNameChar d = true := by
          simp only [List.head?_cons, Option.any_some, Bool.or_eq_true,
            beq_iff_eq] at h
          rcases h with rfl | h
          · decide
          · exact isNameChar_of_isNameStart h
        rw [if_pos hhyphen, takeName_cons hd]
        exact h
    · rename_i hhyphen
      rwa [if_neg hhyphen]

/-- No name goes on at a character that is neither of a name nor the start of
an escape. -/
theorem takeName_of_not_isNameChar {c : Char} {rest : List Char}
    (h : isNameChar c = false)
    (hescape : ∀ d tail, c :: rest ≠ '\\' :: d :: tail) :
    takeName (c :: rest) = ([], c :: rest) := by
  rw [takeName.eq_def]
  split
  · rename_i hnil
    cases hnil
  · rename_i heq
    exact absurd heq (hescape _ _)
  · rename_i hcons
    cases hcons
    simp [h]

/-- A character is a backslash only if it is at the end or escapes
something. -/
theorem ne_backslash {c : Char} {rest : List Char}
    (hend : c = '\\' → rest = [] → False)
    (hescape : ∀ d tail, c = '\\' → rest = d :: tail → False) :
    c ≠ '\\' := by
  intro hc
  cases rest with
  | nil => exact hend hc rfl
  | cons d tail => exact hescape d tail hc rfl

theorem takeString_cons {quote c : Char} (hc : c ≠ '\\') (rest : List Char) :
    takeString quote (c :: rest) =
      if c = quote then (some [], rest)
      else if c = '\n' then (none, c :: rest)
      else ((takeString quote rest).1.map (c :: ·),
        (takeString quote rest).2) := by
  rw [takeString.eq_def]
  split
  · rename_i hnil
    cases hnil
  · rename_i heq
    cases heq
    exact absurd rfl hc
  · rename_i heq
    cases heq
    exact absurd rfl hc
  · rename_i heq
    cases heq
    rfl

theorem line_feed_not_mem_takeString {quote : Char} {cs contents : List Char}
    (h : (takeString quote cs).1 = some contents) : '\n' ∉ contents := by
  fun_induction takeString quote cs generalizing contents with
  | case1 => simp_all
  | case2 => simp_all
  | case3 rest ih => exact ih h
  | case4 c rest hc ih =>
    obtain ⟨inner, hinner, rfl⟩ := Option.map_eq_some_iff.mp h
    simp [ih hinner, Ne.symm hc]
  | case5 => simp_all
  | case6 => simp_all
  | case7 c rest _ _ hquote hc ih =>
    obtain ⟨inner, hinner, rfl⟩ := Option.map_eq_some_iff.mp h
    simp [ih hinner, Ne.symm hc]

/-! ## One token -/

theorem lexed_of_punctuation? {c : Char} {t : Token}
    (h : punctuation? c = some t) : t.Lexed := by
  unfold punctuation? at h
  split at h <;> cases h <;> trivial

theorem lexed_scanString (quote : Char) (rest : List Char) :
    (scanString quote rest).1.Lexed := by
  unfold scanString
  split
  · rename_i contents after heq
    have := line_feed_not_mem_takeString (congrArg Prod.fst heq)
    simpa [Token.Lexed] using this
  · trivial

theorem lexed_scanNumeric (cs : List Char) : (scanNumeric cs).1.Lexed := by
  have hvalue := numberValue_ne_nan (takeNumber cs).1
  unfold scanNumeric
  dsimp only
  split
  · rename_i hname
    refine ⟨hvalue, ?_⟩
    simpa using startsName_takeName hname
  · split
    · exact hvalue
    · exact hvalue

theorem lexed_scanNameLike {cs : List Char} (h : startsName cs = true) :
    (scanNameLike cs).1.Lexed := by
  have hname := startsName_takeName h
  unfold scanNameLike
  split
  · rename_i heq
    rw [heq] at hname
    simpa [Token.Lexed] using hname
  · rename_i heq
    rw [heq] at hname
    simpa [Token.Lexed] using hname

theorem startsNumber_of_isDigit {c : Char} (h : c.isDigit = true)
    (rest : List Char) : startsNumber (c :: rest) = true := by
  have hsign : Decimal.splitSign (c :: rest) = (false, c :: rest) := by
    unfold Decimal.splitSign
    split
    · rename_i hc
      cases hc
      cases h
    · rename_i hc
      cases hc
      cases h
    · rfl
  have hpoint : c ≠ '.' := by
    rintro rfl
    cases h
  rw [startsNumber, hsign]
  simp [startsUnsigned, hpoint, h]

theorem startsName_of_isNameStart {c : Char} (h : isNameStart c = true)
    (rest : List Char) : startsName (c :: rest) = true := by
  have hhyphen : c ≠ '-' := by
    rintro rfl
    cases h
  rw [startsName_cons, if_neg hhyphen, h]

/-- The token that a scan gives is like one that was read. -/
theorem lexed_scan (c : Char) (rest : List Char) : (scan c rest).1.Lexed := by
  unfold scan
  split
  · rename_i hpunctuation
    exact lexed_of_punctuation? hpunctuation
  split
  · trivial
  split
  · exact lexed_scanString c rest
  split
  · exact lexed_scanNumeric _
  split
  · rename_i hname
    exact lexed_scanNameLike hname
  split
  · rename_i hhash
    cases rest with
    | nil => cases hhash.2
    | cons d rest =>
      exact fun h => takeName_ne_nil hhash.2 (String.ofList_eq_empty_iff.mp h)
  split
  · rename_i hat
    simpa [Token.Lexed] using startsName_takeName hat.2
  · rename_i hpunctuation hspace hquote hnumber hname _ _
    rw [not_or] at hquote
    refine ⟨hpunctuation, by simpa using hspace, hquote.1, hquote.2, ?_, ?_⟩
    · exact Bool.eq_false_iff.mpr fun hdigit =>
        hnumber (startsNumber_of_isDigit hdigit rest)
    · exact Bool.eq_false_iff.mpr fun hstart =>
        hname (startsName_of_isNameStart hstart rest)

/-! ## All tokens -/

/-- Where no comment starts, a token is scanned. -/
theorem tokenizeChars_cons {c : Char} {rest : List Char}
    (h : ∀ after, c :: rest ≠ '/' :: '*' :: after) :
    tokenizeChars (c :: rest) =
      (tokenizeChars (scan c rest).2).map ((scan c rest).1 :: ·) := by
  rw [tokenizeChars]
  · cases tokenizeChars (scan c rest).2 <;> rfl
  · intro after hc hrest
    exact h after (by rw [hc, hrest])

/-- Where a comment starts, it is skipped. -/
theorem tokenizeChars_comment (rest : List Char) :
    tokenizeChars ('/' :: '*' :: rest) =
      match afterComment? rest with
      | none => .error .unterminatedComment
      | some after => tokenizeChars after := by
  rw [tokenizeChars]
  split
  · rename_i hnone
    rw [hnone]
  · rename_i hsome
    rw [hsome]

/-- **Every token of a text is like one that was read.** -/
theorem lexed_of_mem_tokenize {css : String} {ts : List Token}
    (h : tokenize css = .ok ts) : ∀ t ∈ ts, t.Lexed :=
  forall_mem_tokenizeChars lexed_scan h

end StyleProbe.Css
