import StyleProbe.Css.Error

/-!
# Tokenizing

A text is split into tokens from left to right. Every scanner below takes
the remaining characters and returns what it took with what is left over.
Only a comment that never ends is an error: unmatched quotes, stray
backslashes and malformed numbers all have tokens of their own.

Main statements: `length_scan_le` (every token takes at least one character,
so tokenizing ends) and the three unfolding equations of `tokenizeChars`.
-/

namespace StyleProbe.Css

/-! ## Character classes -/

/-- The whitespace of the style language. -/
def isSpace (c : Char) : Bool :=
  c == ' ' || c == '\n' || c == '\t' || c == '\r' || c == '\x0c'

/-- A character that can start a name. -/
def isNameStart (c : Char) : Bool :=
  c.isAlpha || 0x80 ≤ c.toNat || c == '_'

/-- A character that can go on a name. -/
def isNameChar (c : Char) : Bool :=
  isNameStart c || c.isDigit || c == '-'

/-- Whether a name starts here. -/
def startsName : List Char → Bool
  | '-' :: c :: _ => c == '-' || isNameStart c
  | c :: _ => isNameStart c
  | [] => false

/-- Whether a number without a sign starts here. -/
def startsUnsigned : List Char → Bool
  | '.' :: c :: _ => c.isDigit
  | c :: _ => c.isDigit
  | [] => false

/-- Whether a number starts here. -/
def startsNumber (cs : List Char) : Bool :=
  startsUnsigned (Decimal.splitSign cs).2

/-! ## Scanners -/

/-- Takes name characters and escapes. An escape is a backslash and any
character but a line feed, which stands for that character. -/
def takeName : List Char → List Char × List Char
  | [] => ([], [])
  | '\\' :: c :: rest =>
    if c = '\n' then ([], '\\' :: c :: rest)
    else (c :: (takeName rest).1, (takeName rest).2)
  | c :: rest =>
    if isNameChar c then (c :: (takeName rest).1, (takeName rest).2)
    else ([], c :: rest)

/-- Takes the inside of a string and its closing quote. The end of the input
closes a string too; a line feed breaks it, which gives no contents, and is
left. An escaped line feed stands for nothing. -/
def takeString (quote : Char) : List Char → Option (List Char) × List Char
  | [] => (some [], [])
  | '\\' :: [] => (some [], [])
  | '\\' :: c :: rest =>
    if c = '\n' then takeString quote rest
    else ((takeString quote rest).1.map (c :: ·), (takeString quote rest).2)
  | c :: rest =>
    if c = quote then (some [], rest)
    else if c = '\n' then (none, c :: rest)
    else ((takeString quote rest).1.map (c :: ·), (takeString quote rest).2)

/-- Takes a sign, if there is one. -/
def takeSign : List Char → List Char × List Char
  | '+' :: rest => (['+'], rest)
  | '-' :: rest => (['-'], rest)
  | rest => ([], rest)

/-- Takes a point with digits after it, if there is one. -/
def takeFraction : List Char → List Char × List Char
  | '.' :: rest =>
    let (digits, after) := Decimal.splitDigits rest
    if digits.isEmpty then ([], '.' :: rest) else ('.' :: digits, after)
  | rest => ([], rest)

/-- Takes an exponent, if there is one: `e`, a sign or none, and digits. -/
def takeExponent : List Char → List Char × List Char
  | [] => ([], [])
  | marker :: rest =>
    let (sign, unsigned) := takeSign rest
    let (digits, after) := Decimal.splitDigits unsigned
    if (marker == 'e' || marker == 'E') && !digits.isEmpty then
      (marker :: sign ++ digits, after)
    else ([], marker :: rest)

/-- Takes the longest number at the front. -/
def takeNumber (cs : List Char) : List Char × List Char :=
  let (sign, unsigned) := takeSign cs
  let (whole, afterWhole) := Decimal.splitDigits unsigned
  let (fraction, afterFraction) := takeFraction afterWhole
  let (exponent, rest) := takeExponent afterFraction
  (sign ++ whole ++ fraction ++ exponent, rest)

/-- The value of a number's text. -/
def numberValue (digits : List Char) : Binary32 :=
  ((Decimal.read? digits).map Binary32.ofDecimal).getD .zero

/-- Skips the inside of a comment and its end, if it has one. -/
def afterComment? : List Char → Option (List Char)
  | [] => none
  | '*' :: '/' :: rest => some rest
  | _ :: rest => afterComment? rest

/-! ## One token -/

/-- A string token with its closing quote. -/
def scanString (quote : Char) (rest : List Char) : Token × List Char :=
  match takeString quote rest with
  | (some contents, after) => (.string (String.ofList contents), after)
  | (none, after) => (.badString, after)

/-- A number with the unit or the percent sign right after it. -/
def scanNumeric (cs : List Char) : Token × List Char :=
  let (digits, rest) := takeNumber cs
  let value := numberValue digits
  if startsName rest then
    let (unit, after) := takeName rest
    (.dimension value (String.ofList unit), after)
  else
    match rest with
    | '%' :: after => (.percentage value, after)
    | _ => (.number value, rest)

/-- A name, or a function if a parenthesis follows it. -/
def scanNameLike (cs : List Char) : Token × List Char :=
  match takeName cs with
  | (name, '(' :: after) => (.function (String.ofList name), after)
  | (name, after) => (.ident (String.ofList name), after)

/-- The tokens of one character each. -/
def punctuation? : Char → Option Token
  | '(' => some (.opening .round)
  | ')' => some (.closing .round)
  | '[' => some (.opening .square)
  | ']' => some (.closing .square)
  | '\x7b' => some (.opening .curly)
  | '\x7d' => some (.closing .curly)
  | ',' => some .comma
  | ':' => some .colon
  | ';' => some .semicolon
  | _ => none

/-- The token that starts with `c`, where `rest` follows; no comment starts
here. A character that starts nothing else stands for itself. -/
def scan (c : Char) (rest : List Char) : Token × List Char :=
  match punctuation? c with
  | some t => (t, rest)
  | none =>
    if isSpace c then (.whitespace, rest.dropWhile isSpace)
    else if c = '"' ∨ c = '\x27' then scanString c rest
    else if startsNumber (c :: rest) then scanNumeric (c :: rest)
    else if startsName (c :: rest) then scanNameLike (c :: rest)
    else if c = '#' ∧ rest.head?.any isNameChar then
      (.hash (String.ofList (takeName rest).1), (takeName rest).2)
    else if c = '@' ∧ startsName rest then
      (.atKeyword (String.ofList (takeName rest).1), (takeName rest).2)
    else (.delim c, rest)

/-! ## Progress -/

theorem length_dropWhile_le {α : Type _} (p : α → Bool) (l : List α) :
    (l.dropWhile p).length ≤ l.length :=
  (List.dropWhile_sublist p).length_le

theorem length_takeName_le (cs : List Char) :
    (takeName cs).2.length ≤ cs.length := by
  fun_induction takeName cs <;> simp_all <;> omega

theorem length_takeName_lt {c : Char} {rest : List Char}
    (h : isNameChar c = true) :
    (takeName (c :: rest)).2.length ≤ rest.length := by
  unfold takeName
  split
  · simp_all
  · rename_i hc
    cases hc
    simp [isNameChar, isNameStart] at h
  · rename_i hc
    cases hc
    simpa [h] using length_takeName_le _

theorem length_takeString_le (quote : Char) (cs : List Char) :
    (takeString quote cs).2.length ≤ cs.length := by
  fun_induction takeString quote cs <;> simp_all <;> omega

theorem length_takeSign_le (cs : List Char) :
    (takeSign cs).2.length ≤ cs.length := by
  unfold takeSign
  split <;> simp

theorem length_splitDigits_le (cs : List Char) :
    (Decimal.splitDigits cs).2.length ≤ cs.length :=
  length_dropWhile_le _ cs

theorem length_takeFraction_le (cs : List Char) :
    (takeFraction cs).2.length ≤ cs.length := by
  unfold takeFraction
  split
  · rename_i rest
    have := length_splitDigits_le rest
    dsimp only
    split <;> simp <;> omega
  · simp

theorem length_takeExponent_le (cs : List Char) :
    (takeExponent cs).2.length ≤ cs.length := by
  unfold takeExponent
  split
  · simp
  · rename_i marker rest
    have hsign := length_takeSign_le rest
    have hdigits := length_splitDigits_le (takeSign rest).2
    dsimp only
    split <;> simp <;> omega

theorem length_splitDigits_lt {c : Char} {rest : List Char}
    (h : c.isDigit = true) :
    (Decimal.splitDigits (c :: rest)).2.length ≤ rest.length := by
  simpa [Decimal.splitDigits, h] using length_dropWhile_le _ rest

theorem length_takeNumber_lt {c : Char} {rest : List Char}
    (h : startsNumber (c :: rest) = true) :
    (takeNumber (c :: rest)).2.length ≤ rest.length := by
  have hbound : ∀ cs : List Char,
      (takeExponent (takeFraction (Decimal.splitDigits cs).2).2).2.length
        ≤ cs.length := fun cs =>
    Nat.le_trans (length_takeExponent_le _)
      (Nat.le_trans (length_takeFraction_le _) (length_splitDigits_le cs))
  unfold takeNumber
  dsimp only
  unfold takeSign
  split
  · rename_i hc
    cases hc
    exact hbound rest
  · rename_i hc
    cases hc
    exact hbound rest
  · rename_i hplus hminus
    have hsign : Decimal.splitSign (c :: rest) = (false, c :: rest) := by
      unfold Decimal.splitSign
      split
      · rename_i hc
        exact (hplus _ hc).elim
      · rename_i hc
        exact (hminus _ hc).elim
      · rfl
    rw [startsNumber, hsign] at h
    by_cases hdigit : c.isDigit = true
    · exact Nat.le_trans (length_takeExponent_le _)
        (Nat.le_trans (length_takeFraction_le _)
          (length_splitDigits_lt hdigit))
    · unfold startsUnsigned at h
      split at h
      · rename_i d tail hc
        cases hc
        refine Nat.le_trans (length_takeExponent_le _) ?_
        have hstay : (Decimal.splitDigits ('.' :: d :: tail)).2
            = '.' :: d :: tail := by simp [Decimal.splitDigits]
        have hd : (Decimal.splitDigits (d :: tail)).2.length ≤ tail.length :=
          length_splitDigits_lt h
        rw [hstay, takeFraction]
        dsimp only
        rw [if_neg (by simp [Decimal.splitDigits, h])]
        simp
        omega
      · rename_i hc
        cases hc
        exact absurd h hdigit
      · simp at h

/-- Every token takes at least the character it starts with. -/
theorem length_scan_le (c : Char) (rest : List Char) :
    (scan c rest).2.length ≤ rest.length := by
  unfold scan
  split
  · simp
  split
  · exact length_dropWhile_le _ rest
  split
  · have := length_takeString_le c rest
    unfold scanString
    split <;> simp_all
  split
  · rename_i h
    have hnumber := length_takeNumber_lt h
    have hname := length_takeName_le (takeNumber (c :: rest)).2
    unfold scanNumeric
    dsimp only
    split
    · exact Nat.le_trans hname hnumber
    split
    · simp_all
      omega
    · exact hnumber
  split
  · rename_i h
    have hname : (takeName (c :: rest)).2.length ≤ rest.length := by
      refine length_takeName_lt ?_
      unfold startsName at h
      split at h
      · rename_i hc
        cases hc
        decide
      · rename_i hc
        cases hc
        simp [isNameChar, h]
      · simp at h
    unfold scanNameLike
    split
    · simp_all
      omega
    · simp_all
  split
  · exact length_takeName_le rest
  split
  · exact length_takeName_le rest
  · simp

theorem length_afterComment?_lt {cs rest : List Char}
    (h : afterComment? cs = some rest) : rest.length < cs.length := by
  fun_induction afterComment? cs <;> simp_all <;> omega

/-! ## All tokens -/

/-- `tokenize` on the characters of the text. -/
def tokenizeChars : List Char → Except Error (List Token)
  | [] => .ok []
  | '/' :: '*' :: rest =>
    match _h : afterComment? rest with
    | none => .error .unterminatedComment
    | some after => tokenizeChars after
  | c :: rest => do
    let step := scan c rest
    let tokens ← tokenizeChars step.2
    return step.1 :: tokens
termination_by cs => cs.length
decreasing_by
  · have := length_afterComment?_lt _h
    simp
    omega
  · have := length_scan_le c rest
    simp
    omega

/-- The tokens of a style sheet or of one declaration value. -/
def tokenize (css : String) : Except Error (List Token) :=
  tokenizeChars css.toList

end StyleProbe.Css
