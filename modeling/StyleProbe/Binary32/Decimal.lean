import StyleProbe.Binary32.Basic
import StyleProbe.Decimal

/-!
# Binary32 numbers as decimals

Reading rounds the exact decimal once. Writing gives the shortest decimal
that reads back: of the grids of the powers of ten, from coarse to fine, the
first one with a point in the number's rounding interval supplies it. Of two
such points the nearer one is taken, and of two equally near the upper one.
The finest grid is `10 ^ (-45)`, which is finer than one quantum, so the
search ends.
-/

namespace StyleProbe.Binary32

/-! ## Reading -/

/-- The number nearest to a decimal. A decimal of more than 40 digits before
its point is past every finite magnitude, and one with more than 50 zeros
after it is nearest to zero. -/
def ofDecimal (d : Decimal) : Binary32 :=
  let size : Int := Decimal.digitCount d.coefficient + d.exponent
  if d.coefficient = 0 || size < -50 then
    .finite d.negative ⟨0, by decide⟩
  else if 40 < size then .infinity d.negative
  else
    ofQuotient d.negative (d.coefficient * 10 ^ d.exponent.toNat * one)
      (10 ^ (-d.exponent).toNat)

/-- Reads a number: a decimal numeral, or `inf`, `infinity` or `nan` in any
ASCII case, with an optional sign. -/
def ofText? (s : String) : Option Binary32 :=
  let (negative, unsigned) := Decimal.splitSign s.toList
  match Text.lowerAscii (String.ofList unsigned) with
  | "inf" => some (.infinity negative)
  | "infinity" => some (.infinity negative)
  | "nan" => some .nan
  | _ => (Decimal.read? s.toList).map ofDecimal

/-! ## Writing -/

/-- The finest grid has `10 ^ finest` points between two whole numbers. -/
def finest : Nat := 45

/-- Whether the decimal `n · 10 ^ (-finest)` rounds to the magnitude of rank
`k`: it lies between the midpoints to the two neighbours, and on one of them
only if the rank is even. -/
def readsBack (k n : Nat) : Bool :=
  let low := (quanta (k - 1) + quanta k) * 10 ^ finest
  let high := (quanta k + quanta (k + 1)) * 10 ^ finest
  let point := n * (2 * one)
  if k % 2 = 0 then low ≤ point && point ≤ high
  else low < point && point < high

/-- The point of the grid of multiples of `step` that reads back as the
magnitude of rank `k`: one of the two neighbours of its value, if either
does; the nearer one if both do, and the upper one if both are as near. -/
def onGrid? (k step : Nat) : Option Nat :=
  let value := quanta k * 10 ^ finest
  let below := value / (one * step) * step
  let above := below + step
  match readsBack k below, readsBack k above with
  | true, true =>
    some (if value - below * one < above * one - value then below else above)
  | true, false => some below
  | false, true => some above
  | false, false => none

/-- Searches the grids of `10 ^ j`, `10 ^ (j - 1)`, …, 1. -/
def searchGrids (k : Nat) : Nat → Nat
  | 0 => (onGrid? k 1).getD 0
  | j + 1 => (onGrid? k (10 ^ (j + 1))).getD (searchGrids k j)

/-- The shortest decimal that reads back as the magnitude of rank `k`, the
nearest of that length. The coarsest grid has steps of `10 ^ 38`, the
decimal size of the largest magnitude. -/
def shortest (negative : Bool) (k : Nat) : Decimal where
  negative
  coefficient := searchGrids k (finest + 38)
  exponent := -finest

/-- The spelling of a number. -/
def text : Binary32 → String
  | .finite negative k => (shortest negative k).text
  | .infinity false => "inf"
  | .infinity true => "-inf"
  | .nan => "NaN"

theorem text_ne_empty (x : Binary32) : x.text ≠ "" := by
  cases x with
  | finite negative k => exact (shortest negative k).text_ne_empty
  | infinity negative => cases negative <;> simp [text]
  | nan => simp [text]

end StyleProbe.Binary32
