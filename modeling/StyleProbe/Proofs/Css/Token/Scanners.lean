import StyleProbe.Proofs.Binary32.Spelling
import StyleProbe.Proofs.Css.Token.Lexed

/-!
# How far scanners go

Each scanner takes what is written for it and stops where that ends. A name
ends where no name character and no escape follows, a number where no digit,
fraction or exponent does. The first characters decide which scanner is used.

Main statements: `scan_of_startsName`, `scan_of_startsNumber`, `takeName_text`,
`takeNumber_text` and `tokenizeChars_of_startsName`.
-/

namespace StyleProbe

/-- The number is written with digits. -/
def Binary32.isFinite : Binary32 → Bool
  | .finite _ _ => true
  | _ => false

namespace Css

/-- The token's name is written without escapes. -/
def isName (name : String) : Bool :=
  name.toList.all isNameChar

/-- No name goes on here. -/
def endsName (after : List Char) : Bool :=
  (takeName after).1.isEmpty

/-! ## Numbers -/

theorem head?_of_not_startsUnsigned {after : List Char}
    (h : startsUnsigned after = false) :
    ∀ c ∈ after.head?, c.isDigit = false := by
  intro c hc
  unfold startsUnsigned at h
  split at h
  · cases hc
    rfl
  · cases hc
    exact h
  · cases hc

theorem takeFraction_of_not_startsUnsigned {after : List Char}
    (h : startsUnsigned after = false) : takeFraction after = ([], after) := by
  unfold takeFraction
  split
  · rename_i rest
    have hdigits : (Decimal.splitDigits rest).1 = [] := by
      cases rest with
      | nil => rfl
      | cons c rest =>
        have hc : c.isDigit = false := h
        simp [Decimal.splitDigits, hc]
    simp [hdigits]
  · rfl

theorem takeExponent_eq_of_nil {after : List Char}
    (h : (takeExponent after).1 = []) : takeExponent after = ([], after) := by
  unfold takeExponent at h ⊢
  split
  · rfl
  · rename_i marker rest
    dsimp only at h ⊢
    split
    · rename_i htaken
      rw [if_pos htaken] at h
      cases h
    · rfl

theorem takeSign_positional {digits whole fraction : List Char}
    (h : Decimal.Positional digits whole fraction) (negative : Bool)
    (after : List Char) :
    takeSign ((if negative then '-' :: digits else digits) ++ after) =
      (if negative then ['-'] else [], digits ++ after) := by
  cases negative with
  | true => rfl
  | false =>
    obtain ⟨c, rest, rfl, hc⟩ := h.exists_cons
    show takeSign (c :: (rest ++ after)) = ([], c :: (rest ++ after))
    unfold takeSign
    split
    · rename_i heq
      cases heq
      cases hc
    · rename_i heq
      cases heq
      cases hc
    · rfl

/-- **A positional spelling is taken whole** where no digit, fraction or
exponent follows. -/
theorem takeNumber_positional {digits whole fraction after : List Char}
    (h : Decimal.Positional digits whole fraction) (negative : Bool)
    (hunsigned : startsUnsigned after = false)
    (hexponent : (takeExponent after).1 = []) :
    takeNumber ((if negative then '-' :: digits else digits) ++ after) =
      (if negative then '-' :: digits else digits, after) := by
  have hdigit := head?_of_not_startsUnsigned hunsigned
  have hwhole : Decimal.splitDigits (digits ++ after) =
      (whole, (if fraction = [] then [] else '.' :: fraction) ++ after) := by
    rw [h.written, List.append_assoc]
    apply Decimal.splitDigits_append h.whole_digits
    split
    · exact hdigit
    · intro c hc
      cases hc
      rfl
  have hfraction : takeFraction
      ((if fraction = [] then [] else '.' :: fraction) ++ after) =
        (if fraction = [] then [] else '.' :: fraction, after) := by
    split
    · exact takeFraction_of_not_startsUnsigned hunsigned
    · rename_i hne
      have hsplit := Decimal.splitDigits_append h.fraction_digits hdigit
      show takeFraction ('.' :: (fraction ++ after)) = _
      simp only [takeFraction, hsplit]
      rw [if_neg (by simp [hne])]
  unfold takeNumber
  rw [takeSign_positional h]
  dsimp only
  rw [hwhole]
  dsimp only
  rw [hfraction]
  dsimp only
  rw [takeExponent_eq_of_nil hexponent, List.append_nil, List.append_assoc,
    ← h.written]
  cases negative <;> rfl

/-- **The text of a finite number is taken whole**, and it is that number. -/
theorem takeNumber_text {value : Binary32} (hfinite : value.isFinite = true)
    {after : List Char} (hunsigned : startsUnsigned after = false)
    (hexponent : (takeExponent after).1 = []) :
    takeNumber (value.text.toList ++ after) = (value.text.toList, after) ∧
      numberValue value.text.toList = value := by
  cases value with
  | finite negative k =>
    obtain ⟨digits, whole, fraction, htext, hwritten, -⟩ :=
      Binary32.exists_positional_text negative k
    constructor
    · rw [htext]
      exact takeNumber_positional hwritten negative hunsigned hexponent
    · rw [numberValue, Binary32.read?_text]
      rfl
  | infinity negative => cases hfinite
  | nan => cases hfinite

/-- The text of a finite number starts a number, whatever follows. -/
theorem startsNumber_text {value : Binary32} (hfinite : value.isFinite = true)
    (after : List Char) : startsNumber (value.text.toList ++ after) = true := by
  cases value with
  | finite negative k =>
    obtain ⟨digits, whole, fraction, htext, hwritten, -⟩ :=
      Binary32.exists_positional_text negative k
    obtain ⟨c, rest, rfl, hc⟩ := hwritten.exists_cons
    rw [htext]
    cases negative with
    | true =>
      have hpoint : c ≠ '.' := by
        rintro rfl
        cases hc
      show startsUnsigned (c :: (rest ++ after)) = true
      simp [startsUnsigned, hpoint, hc]
    | false => exact startsNumber_of_isDigit hc (rest ++ after)
  | infinity negative => cases hfinite
  | nan => cases hfinite

/-! ## What a character starts -/

theorem isDigit_of_isNameStart {c : Char} (h : isNameStart c = true) :
    c.isDigit = false := by
  rw [← Bool.not_eq_true, Char.isDigit_iff_toNat]
  have hnine : '9'.toNat = 57 := rfl
  simp only [isNameStart, Bool.or_eq_true, decide_eq_true_eq, beq_iff_eq] at h
  rcases h with (h | h) | rfl
  · rcases Bool.or_eq_true_iff.mp h with h | h
    · have := Text.isUpper_iff_toNat.mp h
      omega
    · have := Text.isLower_iff_toNat.mp h
      omega
  · omega
  · decide

theorem ordinary_of_isNameChar {c : Char} (h : isNameChar c = true) :
    punctuation? c = none ∧ isSpace c = false ∧ ¬ (c = '"' ∨ c = '\x27') := by
  refine ⟨?_, ?_, ?_⟩
  · unfold punctuation?
    split <;> first | exact absurd h (by decide) | rfl
  · apply Bool.eq_false_iff.mpr
    intro hspace
    simp only [isSpace, Bool.or_eq_true, beq_iff_eq] at hspace
    rcases hspace with (((rfl | rfl) | rfl) | rfl) | rfl <;>
      exact absurd h (by decide)
  · rintro (rfl | rfl) <;> exact absurd h (by decide)

theorem startsUnsigned_cons {c : Char} (h : c ≠ '.') (rest : List Char) :
    startsUnsigned (c :: rest) = c.isDigit := by
  simp [startsUnsigned, h]

theorem startsNumber_of_startsName {cs : List Char}
    (h : startsName cs = true) : startsNumber cs = false := by
  have hstart : ∀ {d : Char} (tail : List Char), isNameStart d = true →
      startsUnsigned (d :: tail) = false := by
    intro d tail hd
    have hpoint : d ≠ '.' := by
      rintro rfl
      cases hd
    rw [startsUnsigned_cons hpoint, isDigit_of_isNameStart hd]
  cases cs with
  | nil => cases h
  | cons c rest =>
    rw [startsName_cons] at h
    split at h
    · rename_i hhyphen
      subst hhyphen
      cases rest with
      | nil => cases h
      | cons d tail =>
        show startsUnsigned (d :: tail) = false
        simp only [List.head?_cons, Option.any_some, Bool.or_eq_true,
          beq_iff_eq] at h
        rcases h with rfl | hd
        · rfl
        · exact hstart tail hd
    · rename_i hhyphen
      have hsign : Decimal.splitSign (c :: rest) = (false, c :: rest) := by
        unfold Decimal.splitSign
        split
        · rename_i heq
          cases heq
          cases h
        · rename_i heq
          cases heq
          exact absurd rfl hhyphen
        · rfl
      rw [startsNumber, hsign]
      exact hstart rest h

/-- Where a name starts, a name is scanned. -/
theorem scan_of_startsName {c : Char} {rest : List Char}
    (h : startsName (c :: rest) = true) :
    scan c rest = scanNameLike (c :: rest) := by
  obtain ⟨hpunctuation, hspace, hquote⟩ :=
    ordinary_of_isNameChar (isNameChar_of_startsName h)
  unfold scan
  rw [hpunctuation]
  dsimp only
  rw [if_neg (by simp [hspace]), if_neg hquote,
    if_neg (by simp [startsNumber_of_startsName h]), if_pos h]

/-- Where a number starts, a number is scanned. -/
theorem scan_of_startsNumber {c : Char} {rest : List Char}
    (h : startsNumber (c :: rest) = true) :
    scan c rest = scanNumeric (c :: rest) := by
  have hordinary : punctuation? c = none ∧ isSpace c = false ∧
      ¬ (c = '"' ∨ c = '\x27') := by
    by_cases hplus : c = '+'
    · subst hplus
      decide
    by_cases hpoint : c = '.'
    · subst hpoint
      decide
    apply ordinary_of_isNameChar
    by_cases hminus : c = '-'
    · subst hminus
      decide
    · have hsign : Decimal.splitSign (c :: rest) = (false, c :: rest) := by
        simp [Decimal.splitSign, hplus, hminus]
      rw [startsNumber, hsign, startsUnsigned_cons hpoint] at h
      simp [isNameChar, h]
  obtain ⟨hpunctuation, hspace, hquote⟩ := hordinary
  unfold scan
  rw [hpunctuation]
  dsimp only
  rw [if_neg (by simp [hspace]), if_neg hquote, if_pos h]

/-! ## Names and strings -/

theorem takeName_of_endsName {after : List Char} (h : endsName after = true) :
    takeName after = ([], after) := by
  have hnil : (takeName after).1 = [] := List.isEmpty_iff.mp h
  fun_cases takeName after with
  | case1 => rfl
  | case2 rest => rfl
  | case3 c rest hc => simp [takeName, hc] at hnil
  | case4 c rest _ hc =>
    rw [takeName_cons hc] at hnil
    cases hnil
  | case5 c rest _ hc => rfl

/-- A name without escapes is taken whole where none goes on. -/
theorem takeName_text {name : String} (hname : isName name = true)
    {after : List Char} (hafter : endsName after = true) :
    takeName (name.toList ++ after) = (name.toList, after) := by
  rw [takeName_append (List.all_eq_true.mp hname), takeName_of_endsName hafter,
    List.append_nil]

theorem takeString_text {contents : List Char}
    (hplain : ∀ c ∈ contents, c ≠ '"' ∧ c ≠ '\\') (hline : '\n' ∉ contents)
    (after : List Char) :
    takeString '"' (contents ++ '"' :: after) = (some contents, after) := by
  induction contents with
  | nil => rfl
  | cons c contents ih =>
    obtain ⟨hquote, hescape⟩ := hplain c List.mem_cons_self
    have hrest := ih (fun d hd => hplain d (List.mem_cons_of_mem c hd))
      (fun h => hline (List.mem_cons_of_mem c h))
    have hc : c ≠ '\n' := by
      rintro rfl
      exact hline List.mem_cons_self
    rw [List.cons_append, takeString_cons hescape, if_neg hquote, if_neg hc,
      hrest]
    rfl

/-! ## What follows -/

theorem startsName_append {cs : List Char} (h : startsName cs = true)
    (rest : List Char) : startsName (cs ++ rest) = true := by
  cases cs with
  | nil => cases h
  | cons c cs =>
    rw [startsName_cons] at h
    rw [List.cons_append, startsName_cons]
    split
    · rename_i hhyphen
      rw [if_pos hhyphen] at h
      cases cs with
      | nil => cases h
      | cons d cs => exact h
    · rename_i hhyphen
      rwa [if_neg hhyphen] at h

theorem startsUnsigned_of_startsName {cs : List Char}
    (h : startsName cs = true) : startsUnsigned cs = false := by
  cases cs with
  | nil => cases h
  | cons c rest =>
    have hpoint : c ≠ '.' := by
      rintro rfl
      cases h
    rw [startsUnsigned_cons hpoint]
    rw [startsName_cons] at h
    split at h
    · rename_i hhyphen
      subst hhyphen
      rfl
    · exact isDigit_of_isNameStart h

theorem takeExponent_of_not_startsName {after : List Char}
    (h : startsName after = false) : (takeExponent after).1 = [] := by
  unfold takeExponent
  split
  · rfl
  · rename_i marker rest
    dsimp only
    split
    · rename_i hmarker
      simp only [Bool.and_eq_true, Bool.or_eq_true, beq_iff_eq] at hmarker
      rcases hmarker.1 with rfl | rfl
      · cases (startsName_of_isNameStart (c := 'e') rfl rest).symm.trans h
      · cases (startsName_of_isNameStart (c := 'E') rfl rest).symm.trans h
    · rfl

theorem endsName_cons {c : Char} (hc : isNameChar c = false)
    (hescape : c ≠ '\\') (rest : List Char) : endsName (c :: rest) = true := by
  rw [endsName, takeName_of_not_isNameChar hc]
  · rfl
  · intro d tail heq
    exact hescape (List.cons.inj heq).1

/-! ## Names in front -/

theorem exists_of_map_cons_eq_ok {read : Except Error (List Token)} {t : Token}
    {tokens : List Token} (h : read.map (t :: ·) = .ok tokens) :
    ∃ ts, read = .ok ts ∧ tokens = t :: ts := by
  cases read with
  | error e => cases h
  | ok ts => exact ⟨ts, rfl, (Except.ok.inj h).symm⟩

section Names

variable {cs name rest : List Char}

/-- A name that no parenthesis follows is no function. -/
theorem scanNameLike_name (htaken : takeName cs = (name, rest))
    (hcall : rest.head? ≠ some '(') :
    scanNameLike cs = (.ident (String.ofList name), rest) := by
  rw [scanNameLike, htaken]
  split
  · rename_i heq
    obtain ⟨-, rfl⟩ := Prod.mk.inj heq
    exact absurd rfl hcall
  · rename_i heq
    obtain ⟨rfl, rfl⟩ := Prod.mk.inj heq
    rfl

variable (h : startsName cs = true)

include h

/-- Where a name starts, a name is the first token. -/
theorem tokenizeChars_of_startsName :
    tokenizeChars cs =
      (tokenizeChars (scanNameLike cs).2).map ((scanNameLike cs).1 :: ·) := by
  cases cs with
  | nil => cases h
  | cons c cs =>
    rw [← scan_of_startsName h]
    apply tokenizeChars_cons
    intro after heq
    cases heq
    cases h

/-- A name before a parenthesis is that of a function. -/
theorem tokenizeChars_call (htaken : takeName cs = (name, '(' :: rest)) :
    tokenizeChars cs =
      (tokenizeChars rest).map (.function (String.ofList name) :: ·) := by
  rw [tokenizeChars_of_startsName h, scanNameLike, htaken]
  rfl

/-- Elsewhere it is a name. -/
theorem tokenizeChars_name (htaken : takeName cs = (name, rest))
    (hcall : rest.head? ≠ some '(') :
    tokenizeChars cs =
      (tokenizeChars rest).map (.ident (String.ofList name) :: ·) := by
  rw [tokenizeChars_of_startsName h, scanNameLike_name htaken hcall]

end Names

end Css

end StyleProbe
