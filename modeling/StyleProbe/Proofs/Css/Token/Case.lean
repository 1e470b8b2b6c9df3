import StyleProbe.Proofs.Binary32.Spelling
import StyleProbe.Proofs.Css.Token.Lexed
import StyleProbe.Proofs.Text.SmallLetters

/-!
# Tokens and letter case

Splitting a text into tokens commutes with lowering its ASCII letters. No
scanner tells a capital from its small letter: classes of characters hold
both or neither, every single character that a scanner looks for is no
letter, and the one letter it does look for, the mark of an exponent, may be
of either case. A number's value does not depend on the case of that mark.

Main statements: `scan_toLower` (one token), `tokenize_lowerAscii` (a text)
and `Token.Lexed.text_lowered` (writing).
-/

namespace StyleProbe.Css

open Text (toLower_eq_iff toLower_ne)

/-- The token with the letters of its name written small. -/
def Token.lowered : Token → Token
  | .ident name => .ident (Text.lowerAscii name)
  | .function name => .function (Text.lowerAscii name)
  | .atKeyword name => .atKeyword (Text.lowerAscii name)
  | .hash name => .hash (Text.lowerAscii name)
  | .string contents => .string (Text.lowerAscii contents)
  | .delim char => .delim char.toLower
  | .dimension value unit => .dimension value (Text.lowerAscii unit)
  | t => t

/-- The token has nothing that is lowered. -/
def Token.Nameless : Token → Prop
  | .ident _ | .function _ | .atKeyword _ | .hash _ | .string _ | .delim _
  | .dimension _ _ => False
  | _ => True

/-- No token is lowered to one without a name but that token itself. -/
theorem Token.lowered_eq_iff {t u : Token} (hu : u.Nameless) :
    t.lowered = u ↔ t = u := by
  constructor
  · rintro rfl
    cases t <;> first | rfl | cases hu
  · rintro rfl
    cases t <;> first | rfl | cases hu

/-! ## Character classes -/

theorem isSpace_toLower (c : Char) : isSpace c.toLower = isSpace c :=
  Text.apply_toLower isSpace (by decide) c

theorem isNameStart_toLower (c : Char) :
    isNameStart c.toLower = isNameStart c :=
  Text.apply_toLower isNameStart (by decide) c

theorem isNameChar_toLower (c : Char) : isNameChar c.toLower = isNameChar c :=
  Text.apply_toLower isNameChar (by decide) c

theorem punctuation?_toLower (c : Char) :
    punctuation? c.toLower = punctuation? c :=
  Text.apply_toLower punctuation? (by decide) c

theorem lowered_of_punctuation? {c : Char} {t : Token}
    (h : punctuation? c = some t) : t.lowered = t := by
  unfold punctuation? at h
  split at h <;> cases h <;> rfl

theorem startsName_map_toLower (cs : List Char) :
    startsName (cs.map Char.toLower) = startsName cs := by
  cases cs with
  | nil => rfl
  | cons c rest =>
    rw [List.map_cons, startsName_cons, startsName_cons, isNameStart_toLower]
    simp only [toLower_eq_iff (show '-'.isAlpha = false from rfl)]
    cases rest with
    | nil => rfl
    | cons d rest =>
      simp [isNameStart_toLower, Bool.beq_eq_decide_eq,
        toLower_eq_iff (show '-'.isAlpha = false from rfl)]

/-! ## Scanners -/

theorem takeName_map_toLower (cs : List Char) :
    takeName (cs.map Char.toLower) =
      ((takeName cs).1.map Char.toLower, (takeName cs).2.map Char.toLower) := by
  fun_induction takeName cs with
  | case1 => rfl
  | case2 rest => rfl
  | case3 c rest hc ih =>
    have hline : c.toLower ≠ '\n' := toLower_ne rfl hc
    simp [takeName, hline, ih]
  | case4 c rest hescape hname ih =>
    rw [List.map_cons, takeName_cons (by rwa [isNameChar_toLower]), ih]
    rfl
  | case5 c rest hescape hname =>
    rw [List.map_cons, takeName_of_not_isNameChar]
    · rfl
    · rw [isNameChar_toLower]
      simpa using hname
    · intro d tail heq
      obtain ⟨hc, hrest⟩ := List.cons.inj heq
      obtain rfl := (toLower_eq_iff rfl).mp hc
      cases rest with
      | nil => cases hrest
      | cons e rest => exact hescape e rest rfl rfl

theorem takeString_map_toLower {quote : Char} (hquote : quote.isAlpha = false)
    (cs : List Char) :
    takeString quote (cs.map Char.toLower) =
      ((takeString quote cs).1.map (List.map Char.toLower),
        (takeString quote cs).2.map Char.toLower) := by
  have hbackslash : Char.toLower '\\' = '\\' := rfl
  fun_induction takeString quote cs with
  | case1 => rfl
  | case2 => rfl
  | case3 rest ih => exact ih
  | case4 c rest hc ih =>
    have hline : c.toLower ≠ '\n' := toLower_ne rfl hc
    simp [takeString, hbackslash, hline, ih, Function.comp_def]
  | case5 rest hend hescape =>
    have hsame : quote.toLower = quote := (toLower_eq_iff hquote).mpr rfl
    rw [List.map_cons, hsame, takeString_cons (ne_backslash hend hescape),
      if_pos rfl]
    rfl
  | case6 rest hend hescape hc =>
    have hline : Char.toLower '\n' = '\n' := rfl
    rw [List.map_cons, hline, takeString_cons (by decide), if_neg hc,
      if_pos rfl]
    rfl
  | case7 c rest hend hescape hc hline ih =>
    have hplain : c.toLower ≠ '\\' :=
      toLower_ne rfl (ne_backslash hend hescape)
    rw [List.map_cons, takeString_cons hplain,
      if_neg (toLower_ne hquote hc),
      if_neg (toLower_ne rfl hline), ih]
    simp [Function.comp_def]

theorem afterComment?_map_toLower (cs : List Char) :
    afterComment? (cs.map Char.toLower) =
      (afterComment? cs).map (List.map Char.toLower) := by
  fun_induction afterComment? cs with
  | case1 => rfl
  | case2 rest => rfl
  | case3 c rest hend ih =>
    rw [List.map_cons, afterComment?.eq_def]
    split
    · rename_i hnil
      cases hnil
    · rename_i heq
      obtain ⟨hc, hrest⟩ := List.cons.inj heq
      obtain rfl := (toLower_eq_iff rfl).mp hc
      obtain ⟨d, tail, rfl, hd, -⟩ := List.map_eq_cons_iff.mp hrest
      obtain rfl := (toLower_eq_iff rfl).mp hd
      exact (hend tail rfl rfl).elim
    · rename_i heq
      cases heq
      exact ih

/-! ## Numbers -/

theorem splitSign_map_toLower (cs : List Char) :
    Decimal.splitSign (cs.map Char.toLower) =
      ((Decimal.splitSign cs).1,
        (Decimal.splitSign cs).2.map Char.toLower) := by
  cases cs with
  | nil => rfl
  | cons c rest =>
    by_cases hplus : c = '+'
    · subst hplus
      rfl
    by_cases hminus : c = '-'
    · subst hminus
      rfl
    have hplus' : c.toLower ≠ '+' := toLower_ne rfl hplus
    have hminus' : c.toLower ≠ '-' := toLower_ne rfl hminus
    simp [Decimal.splitSign, hplus, hminus, hplus', hminus']

theorem takeSign_map_toLower (cs : List Char) :
    takeSign (cs.map Char.toLower) =
      ((takeSign cs).1, (takeSign cs).2.map Char.toLower) := by
  cases cs with
  | nil => rfl
  | cons c rest =>
    by_cases hplus : c = '+'
    · subst hplus
      rfl
    by_cases hminus : c = '-'
    · subst hminus
      rfl
    have hplus' : c.toLower ≠ '+' := toLower_ne rfl hplus
    have hminus' : c.toLower ≠ '-' := toLower_ne rfl hminus
    simp [takeSign, hplus, hminus, hplus', hminus']

theorem splitDigits_map_toLower (cs : List Char) :
    Decimal.splitDigits (cs.map Char.toLower) =
      ((Decimal.splitDigits cs).1,
        (Decimal.splitDigits cs).2.map Char.toLower) := by
  have hclass : Char.isDigit ∘ Char.toLower = Char.isDigit :=
    funext Text.isDigit_toLower
  have hdigits : (cs.takeWhile Char.isDigit).map Char.toLower =
      cs.takeWhile Char.isDigit :=
    Text.map_toLower_of_isDigit fun c hc =>
      List.all_eq_true.mp List.all_takeWhile c hc
  rw [Decimal.splitDigits, List.takeWhile_map, List.dropWhile_map, hclass,
    hdigits]
  rfl

theorem takeFraction_map_toLower (cs : List Char) :
    takeFraction (cs.map Char.toLower) =
      ((takeFraction cs).1, (takeFraction cs).2.map Char.toLower) := by
  cases cs with
  | nil => rfl
  | cons c rest =>
    by_cases hpoint : c = '.'
    · subst hpoint
      have hlower : Char.toLower '.' = '.' := rfl
      simp only [List.map_cons, hlower, takeFraction, splitDigits_map_toLower]
      split <;> simp [hlower]
    · have hpoint' : c.toLower ≠ '.' := toLower_ne rfl hpoint
      simp [takeFraction, hpoint, hpoint']

theorem isExponentMark_toLower (c : Char) :
    (c.toLower == 'e' || c.toLower == 'E') = (c == 'e' || c == 'E') :=
  Text.apply_toLower (fun c => c == 'e' || c == 'E') (by decide) c

theorem map_toLower_splitDigits (cs : List Char) :
    (Decimal.splitDigits cs).1.map Char.toLower =
      (Decimal.splitDigits cs).1 :=
  Text.map_toLower_of_isDigit fun c hc =>
    List.all_eq_true.mp List.all_takeWhile c hc

theorem map_toLower_takeSign (cs : List Char) :
    (takeSign cs).1.map Char.toLower = (takeSign cs).1 := by
  unfold takeSign
  split <;> rfl

theorem map_toLower_takeFraction (cs : List Char) :
    (takeFraction cs).1.map Char.toLower = (takeFraction cs).1 := by
  unfold takeFraction
  split
  · rename_i rest
    have hpoint : Char.toLower '.' = '.' := rfl
    dsimp only
    split
    · rfl
    · rw [List.map_cons, hpoint, map_toLower_splitDigits]
  · rfl

theorem takeExponent_map_toLower (cs : List Char) :
    takeExponent (cs.map Char.toLower) =
      ((takeExponent cs).1.map Char.toLower,
        (takeExponent cs).2.map Char.toLower) := by
  cases cs with
  | nil => rfl
  | cons marker rest =>
    simp only [List.map_cons, takeExponent, takeSign_map_toLower,
      splitDigits_map_toLower, isExponentMark_toLower]
    split <;> simp [map_toLower_takeSign, map_toLower_splitDigits]

theorem takeNumber_map_toLower (cs : List Char) :
    takeNumber (cs.map Char.toLower) =
      ((takeNumber cs).1.map Char.toLower,
        (takeNumber cs).2.map Char.toLower) := by
  simp only [takeNumber, takeSign_map_toLower, splitDigits_map_toLower,
    takeFraction_map_toLower, takeExponent_map_toLower, List.map_append,
    map_toLower_takeSign, map_toLower_splitDigits, map_toLower_takeFraction]

theorem splitFraction_map_toLower (cs : List Char) :
    Decimal.splitFraction (cs.map Char.toLower) =
      ((Decimal.splitFraction cs).1,
        (Decimal.splitFraction cs).2.map Char.toLower) := by
  cases cs with
  | nil => rfl
  | cons c rest =>
    by_cases hpoint : c = '.'
    · subst hpoint
      exact splitDigits_map_toLower rest
    · have hpoint' : c.toLower ≠ '.' := toLower_ne rfl hpoint
      simp [Decimal.splitFraction, hpoint, hpoint']

theorem readExponent?_map_toLower (cs : List Char) :
    Decimal.readExponent? (cs.map Char.toLower) =
      Decimal.readExponent? cs := by
  cases cs with
  | nil => rfl
  | cons marker rest =>
    simp only [List.map_cons, Decimal.readExponent?, splitSign_map_toLower,
      isExponentMark_toLower]
    cases hall : (Decimal.splitSign rest).2.all Char.isDigit with
    | false => simp [hall, Function.comp_def, Text.isDigit_toLower]
    | true =>
      have hself : (Decimal.splitSign rest).2.map Char.toLower =
          (Decimal.splitSign rest).2 :=
        Text.map_toLower_of_isDigit (List.all_eq_true.mp hall)
      rw [hself, hall]

theorem read?_map_toLower (digits : List Char) :
    Decimal.read? (digits.map Char.toLower) = Decimal.read? digits := by
  simp only [Decimal.read?, splitSign_map_toLower, splitDigits_map_toLower,
    splitFraction_map_toLower, readExponent?_map_toLower]

/-- A numeral in small letters is the same number. -/
theorem numberValue_map_toLower (digits : List Char) :
    numberValue (digits.map Char.toLower) = numberValue digits := by
  rw [numberValue, read?_map_toLower, numberValue]

/-! ## One token -/

theorem startsUnsigned_map_toLower (cs : List Char) :
    startsUnsigned (cs.map Char.toLower) = startsUnsigned cs := by
  cases cs with
  | nil => rfl
  | cons c rest =>
    by_cases hpoint : c = '.'
    · subst hpoint
      cases rest with
      | nil => rfl
      | cons d rest => exact Text.isDigit_toLower d
    · have hpoint' : c.toLower ≠ '.' := toLower_ne rfl hpoint
      simp [startsUnsigned, hpoint, hpoint', Text.isDigit_toLower]

theorem startsNumber_map_toLower (cs : List Char) :
    startsNumber (cs.map Char.toLower) = startsNumber cs := by
  rw [startsNumber, splitSign_map_toLower, startsUnsigned_map_toLower,
    startsNumber]

theorem lowerAscii_ofList (cs : List Char) :
    Text.lowerAscii (String.ofList cs) =
      String.ofList (cs.map Char.toLower) := by
  rw [Text.lowerAscii, String.toList_ofList]

theorem scanString_map_toLower {quote : Char} (hquote : quote.isAlpha = false)
    (rest : List Char) :
    scanString quote (rest.map Char.toLower) =
      ((scanString quote rest).1.lowered,
        (scanString quote rest).2.map Char.toLower) := by
  rw [scanString, takeString_map_toLower hquote, scanString]
  rcases takeString quote rest with ⟨_ | contents, after⟩
  · rfl
  · simp [Token.lowered, lowerAscii_ofList]

theorem scanNumeric_map_toLower (cs : List Char) :
    scanNumeric (cs.map Char.toLower) =
      ((scanNumeric cs).1.lowered,
        (scanNumeric cs).2.map Char.toLower) := by
  simp only [scanNumeric, takeNumber_map_toLower, numberValue_map_toLower,
    startsName_map_toLower, takeName_map_toLower]
  split
  · simp [Token.lowered, lowerAscii_ofList]
  · rcases (takeNumber cs).2 with _ | ⟨c, after⟩
    · rfl
    · by_cases hpercent : c = '%'
      · subst hpercent
        rfl
      · have hpercent' : c.toLower ≠ '%' := toLower_ne rfl hpercent
        simp [hpercent, hpercent', Token.lowered]

theorem scanNameLike_map_toLower (cs : List Char) :
    scanNameLike (cs.map Char.toLower) =
      ((scanNameLike cs).1.lowered,
        (scanNameLike cs).2.map Char.toLower) := by
  simp only [scanNameLike, takeName_map_toLower]
  rcases takeName cs with ⟨name, _ | ⟨c, after⟩⟩
  · simp [Token.lowered, lowerAscii_ofList]
  · by_cases hparenthesis : c = '('
    · subst hparenthesis
      have hlower : Char.toLower '(' = '(' := rfl
      simp [hlower, Token.lowered, lowerAscii_ofList]
    · have hparenthesis' : c.toLower ≠ '(' := toLower_ne rfl hparenthesis
      simp [hparenthesis, hparenthesis', Token.lowered, lowerAscii_ofList]

/-- **A token is scanned alike** in small letters. -/
theorem scan_toLower (c : Char) (rest : List Char) :
    scan c.toLower (rest.map Char.toLower) =
      ((scan c rest).1.lowered, (scan c rest).2.map Char.toLower) := by
  have hspace : isSpace ∘ Char.toLower = isSpace := funext isSpace_toLower
  have hfirst : ∀ (p : Char → Bool), (∀ d, p d.toLower = p d) →
      (rest.map Char.toLower).head?.any p = rest.head?.any p := by
    intro p hp
    cases rest <;> simp [hp]
  unfold scan
  rw [punctuation?_toLower]
  split
  · rename_i t hpunctuation
    rw [lowered_of_punctuation? hpunctuation]
  simp only [isSpace_toLower, ← List.map_cons,
    toLower_eq_iff (show '"'.isAlpha = false from rfl),
    toLower_eq_iff (show '\x27'.isAlpha = false from rfl),
    toLower_eq_iff (show '#'.isAlpha = false from rfl),
    toLower_eq_iff (show '@'.isAlpha = false from rfl),
    startsNumber_map_toLower, startsName_map_toLower,
    hfirst isNameChar isNameChar_toLower]
  split
  · rw [List.dropWhile_map, hspace]
    rfl
  split
  · rename_i hquote
    rcases hquote with rfl | rfl
    · exact scanString_map_toLower rfl rest
    · exact scanString_map_toLower rfl rest
  split
  · exact scanNumeric_map_toLower _
  split
  · exact scanNameLike_map_toLower _
  split
  · simp [takeName_map_toLower, Token.lowered, lowerAscii_ofList]
  split
  · simp [takeName_map_toLower, Token.lowered, lowerAscii_ofList]
  · rfl

/-! ## All tokens -/

theorem tokenizeChars_map_toLower (cs : List Char) :
    tokenizeChars (cs.map Char.toLower) =
      (tokenizeChars cs).map (List.map Token.lowered) := by
  have hslash : Char.toLower '/' = '/' := rfl
  have hstar : Char.toLower '*' = '*' := rfl
  fun_induction tokenizeChars cs with
  | case1 =>
    rw [List.map_nil, tokenizeChars]
    rfl
  | case2 rest hcomment =>
    rw [List.map_cons, List.map_cons, hslash, hstar, tokenizeChars_comment,
      afterComment?_map_toLower, hcomment]
    rfl
  | case3 rest after hcomment ih =>
    rw [List.map_cons, List.map_cons, hslash, hstar, tokenizeChars_comment,
      afterComment?_map_toLower, hcomment]
    exact ih
  | case4 c rest hcomment step ih =>
    -- No comment starts in the lowered text either.
    have hcomment' : ∀ after, c.toLower :: rest.map Char.toLower ≠
        '/' :: '*' :: after := by
      intro after heq
      obtain ⟨hc, hrest⟩ := List.cons.inj heq
      obtain rfl := (toLower_eq_iff rfl).mp hc
      obtain ⟨d, tail, rfl, hd, -⟩ := List.map_eq_cons_iff.mp hrest
      obtain rfl := (toLower_eq_iff rfl).mp hd
      exact hcomment tail rfl rfl
    rw [List.map_cons, tokenizeChars_cons hcomment', scan_toLower]
    dsimp only
    rw [ih]
    cases tokenizeChars step.2 <;> rfl

/-- **Splitting into tokens commutes with lowering**, and fails alike. -/
theorem tokenize_lowerAscii (css : String) :
    tokenize (Text.lowerAscii css) =
      (tokenize css).map (List.map Token.lowered) := by
  rw [tokenize, Text.toList_lowerAscii, tokenizeChars_map_toLower]
  rfl

/-! ## Writing -/

/-- **A token that was read is written in small letters** if it is lowered:
no number that is read is written with letters. -/
theorem Token.Lexed.text_lowered {t : Token} (h : t.Lexed) :
    t.lowered.text = Text.lowerAscii t.text := by
  have hparenthesis : Text.lowerAscii "(" = "(" := by decide
  have hat : Text.lowerAscii "@" = "@" := by decide
  have hhash : Text.lowerAscii "#" = "#" := by decide
  have hquote : Text.lowerAscii "\"" = "\"" := by decide
  have hpercent : Text.lowerAscii "%" = "%" := by decide
  cases t with
  | ident name => rfl
  | function name =>
    rw [lowered, text, text, Text.lowerAscii_append, hparenthesis]
  | atKeyword name => rw [lowered, text, text, Text.lowerAscii_append, hat]
  | hash name => rw [lowered, text, text, Text.lowerAscii_append, hhash]
  | string contents =>
    rw [lowered, text, text, Text.lowerAscii_append, Text.lowerAscii_append,
      hquote]
  | badString => exact hquote.symm
  | delim char =>
    apply String.toList_inj.mp
    simp [lowered, text]
  | number value => exact (Binary32.lowerAscii_text h).symm
  | percentage value =>
    show value.text ++ "%" = Text.lowerAscii (value.text ++ "%")
    rw [Text.lowerAscii_append, Binary32.lowerAscii_text h, hpercent]
  | dimension value unit =>
    rw [lowered, text, text, Text.lowerAscii_append,
      Binary32.lowerAscii_text h.1]
  | opening bracket => cases bracket <;> decide
  | closing bracket => cases bracket <;> decide
  | _ => decide

end StyleProbe.Css
