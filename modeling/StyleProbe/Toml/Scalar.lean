import StyleProbe.Decimal

/-!
# TOML scalars other than strings

Numbers, truth values, dates and times. A profile has no use for them, but
where a file may hold anything they have to be well formed: integers fit 64
bits, floats do not overflow upwards, and dates are days of the calendar.
So only the place where a scalar ends is kept of it.

What follows a scalar is not looked at here. Everything that may follow one
ends each of its forms, so it does not matter that forms are tried in turn.
-/

namespace StyleProbe.Toml

/-- What is left of a text after something at its front, if that is there. -/
abbrev Scan : Type := List Char → Option (List Char)

namespace Scalar

/-- Passes the characters of a word. -/
def word (w : String) : Scan := fun cs =>
  if w.toList.isPrefixOf cs then some (cs.drop w.length) else none

/-! ## Dates and times -/

/-- Reads so many decimal digits whose number lies between two bounds. -/
def fixed (count least greatest : Nat) (cs : List Char) :
    Option (Nat × List Char) :=
  let digits := cs.take count
  let n := Text.decimalNumber digits
  if digits.length = count ∧ digits.all Char.isDigit ∧
      least ≤ n ∧ n ≤ greatest then
    some (n, cs.drop count)
  else none

/-- Whether the year has a leap day. -/
def isLeap (year : Nat) : Bool :=
  year % 4 = 0 && (year % 100 != 0 || year % 400 = 0)

/-- The days of a month, from 1 for January to 12. -/
def daysOfMonth (year month : Nat) : Nat :=
  if month = 2 then if isLeap year then 29 else 28
  else if month ∈ [4, 6, 9, 11] then 30
  else 31

/-- Passes a day of the calendar: `1979-05-27`. -/
def date : Scan := fun cs => do
  let (year, cs) ← fixed 4 0 9999 cs
  let cs ← word "-" cs
  let (month, cs) ← fixed 2 1 12 cs
  let cs ← word "-" cs
  let (_, cs) ← fixed 2 1 (daysOfMonth year month) cs
  return cs

/-- Passes hours and minutes: `07:32`. -/
def hoursMinutes : Scan := fun cs => do
  let (_, cs) ← fixed 2 0 23 cs
  let cs ← word ":" cs
  let (_, cs) ← fixed 2 0 59 cs
  return cs

/-- Passes a point with digits after it. -/
def secondFraction : Scan
  | '.' :: c :: rest =>
    if c.isDigit then some (rest.dropWhile Char.isDigit) else none
  | _ => none

/-- Passes a time of day: `07:32:00`, with or without a fraction of the
second, which may be a leap second. -/
def time : Scan := fun cs => do
  let cs ← hoursMinutes cs
  let cs ← word ":" cs
  let (_, cs) ← fixed 2 0 60 cs
  return (secondFraction cs).getD cs

/-- Passes the offset of a time: `Z`, or hours and minutes with a sign. -/
def offset : Scan
  | c :: rest =>
    if c == 'Z' || c == 'z' then some rest
    else if c == '+' || c == '-' then hoursMinutes rest
    else none
  | [] => none

/-- Passes a time of day after the `T` or the blank that joins it to its
date, with or without an offset. -/
def joinedTime : Scan
  | c :: rest =>
    if c == 'T' || c == 't' || c == ' ' then
      (time rest).map fun cs => (offset cs).getD cs
    else none
  | [] => none

/-- Passes a date, with or without a time of that day. -/
def dateTime : Scan := fun cs =>
  (date cs).map fun cs => (joinedTime cs).getD cs

/-! ## Numbers -/

/-- Whether the character is a digit in the base, which is 16 at most. -/
def isDigitIn (base : Nat) (c : Char) : Bool :=
  Text.isHexDigit c && Text.hexValue c < base

/-- The digits at the front of a text, an underscore before any of them
being left out, and the rest of the text. -/
def moreDigits (base : Nat) : List Char → List Char × List Char
  | '_' :: c :: rest =>
    if isDigitIn base c then
      (c :: (moreDigits base rest).1, (moreDigits base rest).2)
    else ([], '_' :: c :: rest)
  | c :: rest =>
    if isDigitIn base c then
      (c :: (moreDigits base rest).1, (moreDigits base rest).2)
    else ([], c :: rest)
  | [] => ([], [])

/-- Reads digits, with single underscores between them. -/
def digits (base : Nat) : List Char → Option (List Char × List Char)
  | c :: rest =>
    if isDigitIn base c then
      some (c :: (moreDigits base rest).1, (moreDigits base rest).2)
    else none
  | [] => none

/-- The number that digits stand for in a base. -/
def numberIn (base : Nat) (ds : List Char) : Nat :=
  ds.foldl (fun n c => base * n + Text.hexValue c) 0

/-- Passes an integer below `2 ^ 63` in the base. -/
def integerIn (base : Nat) : Scan := fun cs => do
  let (ds, rest) ← digits base cs
  if numberIn base ds < 2 ^ 63 then some rest else none

/-- Passes an integer with its base in front: `0xFF`, `0o17` or `0b11`. -/
def basedInteger : Scan
  | '0' :: 'x' :: rest => integerIn 16 rest
  | '0' :: 'o' :: rest => integerIn 8 rest
  | '0' :: 'b' :: rest => integerIn 2 rest
  | _ => none

/-- Reads the digits after a point; no point, no digits. -/
def fraction : List Char → Option (List Char × List Char)
  | '.' :: rest => digits 10 rest
  | rest => some ([], rest)

/-- Reads an exponent, if there is one. -/
def exponent : List Char → Option (Option Int × List Char)
  | c :: rest =>
    if c == 'e' || c == 'E' then do
      let (negative, unsigned) := Decimal.splitSign rest
      let (ds, rest) ← digits 10 unsigned
      let size : Int := numberIn 10 ds
      return (some (if negative then -size else size), rest)
    else some (none, c :: rest)
  | [] => some (none, [])

/-- Whether an integer fits 64 bits. -/
def fitsInteger (negative : Bool) (size : Nat) : Bool :=
  if negative then size ≤ 2 ^ 63 else size < 2 ^ 63

/-- Whether a decimal does not round to positive infinity in binary64: it is
less than the middle between the greatest finite number and `2 ^ 1024`,
which has 309 digits. -/
def fitsFloat (d : Decimal) : Bool :=
  let size : Int := Decimal.digitCount d.coefficient + d.exponent
  d.negative || d.coefficient == 0 || size ≤ 308 ||
    (size == 309 &&
      d.coefficient * 10 ^ d.exponent.toNat <
        (2 ^ 1024 - 2 ^ 970) * 10 ^ (-d.exponent).toNat)

/-- Passes a decimal integer or a float. More than one digit before the
point do not start with a zero. -/
def number : Scan := fun cs => do
  let (negative, unsigned) := Decimal.splitSign cs
  let (whole, rest) ← digits 10 unsigned
  let (part, rest) ← fraction rest
  let (scale, rest) ← exponent rest
  let fits :=
    if part.isEmpty && scale.isNone then
      fitsInteger negative (numberIn 10 whole)
    else
      fitsFloat ⟨negative, numberIn 10 (whole ++ part),
        scale.getD 0 - part.length⟩
  if fits && (whole.length == 1 || whole.head? != some '0') then some rest
  else none

/-- Passes an infinity or a NaN, with or without a sign. -/
def special : Scan := fun cs =>
  let unsigned := (Decimal.splitSign cs).2
  word "inf" unsigned <|> word "nan" unsigned

end Scalar

/-- Passes a scalar other than a string. -/
def scalar : Scan := fun cs =>
  Scalar.word "true" cs <|> Scalar.word "false" cs <|>
    Scalar.dateTime cs <|> Scalar.time cs <|> Scalar.basedInteger cs <|>
    Scalar.number cs <|> Scalar.special cs

end StyleProbe.Toml
