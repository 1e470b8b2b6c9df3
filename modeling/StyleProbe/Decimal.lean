import StyleProbe.Text.Ascii

/-!
# Decimal numerals

A signed decimal number `± coefficient · 10 ^ exponent`, how it is read from
digits and how it is written. Reading keeps every digit; rounding to a
machine format is somebody else's business. Writing is positional: no
exponent, no zeros at the end of a fraction, no point without a fraction.
-/

namespace StyleProbe

/-- The number `± coefficient · 10 ^ exponent`. A negative zero is kept
apart from zero. -/
structure Decimal where
  negative : Bool
  coefficient : Nat
  exponent : Int
deriving DecidableEq

namespace Decimal

/-! ## Reading -/

/-- Splits an optional sign off the front; `true` stands for minus. -/
def splitSign : List Char → Bool × List Char
  | '+' :: rest => (false, rest)
  | '-' :: rest => (true, rest)
  | rest => (false, rest)

/-- Splits the longest run of digits off the front. -/
def splitDigits (cs : List Char) : List Char × List Char :=
  (cs.takeWhile Char.isDigit, cs.dropWhile Char.isDigit)

/-- Splits the digits after a point off the front; no point, no digits. -/
def splitFraction : List Char → List Char × List Char
  | '.' :: rest => splitDigits rest
  | rest => ([], rest)

/-- Reads an exponent part that takes up all of the text: nothing at all, or
`e`, an optional sign and at least one digit. -/
def readExponent? : List Char → Option Int
  | [] => some 0
  | marker :: rest =>
    let (negative, unsigned) := splitSign rest
    if (marker == 'e' || marker == 'E') && !unsigned.isEmpty &&
        unsigned.all Char.isDigit then
      let size : Int := Text.decimalNumber unsigned
      some (if negative then -size else size)
    else none

/-- Reads a numeral that takes up all of the text: an optional sign, digits
with at most one point among them and at least one digit, and an optional
exponent. -/
def read? (cs : List Char) : Option Decimal :=
  let (negative, unsigned) := splitSign cs
  let (whole, afterWhole) := splitDigits unsigned
  let (fraction, afterFraction) := splitFraction afterWhole
  if whole.isEmpty && fraction.isEmpty then none
  else do
    let exponent ← readExponent? afterFraction
    return {
      negative
      coefficient := Text.decimalNumber (whole ++ fraction)
      exponent := exponent - fraction.length }

/-! ## Writing -/

/-- The number of digits of `n`, which is 1 for zero. -/
def digitCount (n : Nat) : Nat := (Nat.toDigits 10 n).length

/-- `digits` without the zeros at its end. -/
def dropTrailingZeros (digits : List Char) : List Char :=
  (digits.reverse.dropWhile (· == '0')).reverse

/-- The digits of `n` with the point `places` digits from the right. Zeros
at the end of the fraction, and a point with nothing after it, are left
out. -/
def pointed (n places : Nat) : List Char :=
  let digits := Nat.toDigits 10 n
  let padded := List.replicate (places + 1 - digits.length) '0' ++ digits
  let whole := padded.take (padded.length - places)
  match dropTrailingZeros (padded.drop (padded.length - places)) with
  | [] => whole
  | fraction => whole ++ '.' :: fraction

/-- The positional spelling of `d`. -/
def text (d : Decimal) : String :=
  let size := pointed (d.coefficient * 10 ^ d.exponent.toNat)
    (-d.exponent).toNat
  String.ofList (if d.negative then '-' :: size else size)

theorem pointed_ne_nil (n places : Nat) : pointed n places ≠ [] := by
  have hwhole : ∀ padded : List Char, places < padded.length →
      padded.take (padded.length - places) ≠ [] := by
    intro padded hlength heq
    have := congrArg List.length heq
    simp only [List.length_take, List.length_nil] at this
    omega
  have hpadded : places < (List.replicate
      (places + 1 - (Nat.toDigits 10 n).length) '0' ++
        Nat.toDigits 10 n).length := by
    simp only [List.length_append, List.length_replicate]
    omega
  unfold pointed
  dsimp only
  split
  · exact hwhole _ hpadded
  · simp

theorem text_ne_empty (d : Decimal) : d.text ≠ "" := by
  rw [text, Ne, String.ofList_eq_empty_iff]
  split
  · simp
  · exact pointed_ne_nil _ _

end Decimal

end StyleProbe
