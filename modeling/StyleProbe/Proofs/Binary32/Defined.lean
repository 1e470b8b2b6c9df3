import StyleProbe.Binary32.Arithmetic
import StyleProbe.Binary32.Decimal

/-!
# Results that are numbers

Rounding gives a number or an infinity, so a NaN comes only from an operation
that has no value. Products and quotients with a finite second operand that is
not zero have one.

Main statements: `mul_ne_nan` and `div_ne_nan`.
-/

namespace StyleProbe.Binary32

theorem ofQuotient_ne_nan (negative : Bool) (num den : Nat) :
    ofQuotient negative num den ≠ .nan := by
  unfold ofQuotient
  split <;> simp

theorem ofNat_ne_nan (n : Nat) : ofNat n ≠ .nan := ofQuotient_ne_nan _ _ _

theorem ofDecimal_ne_nan (d : Decimal) : ofDecimal d ≠ .nan := by
  unfold ofDecimal
  dsimp only
  split
  · simp
  split
  · simp
  · exact ofQuotient_ne_nan _ _ _

section Operations

variable {x : Binary32} {negative : Bool} {k : Fin rankCount}

/-- A product with a finite number other than zero has a value. -/
theorem mul_ne_nan (hx : x ≠ .nan) (hk : k.val ≠ 0) :
    x.mul (.finite negative k) ≠ .nan := by
  cases x with
  | finite sign j => exact ofQuotient_ne_nan _ _ _
  | infinity sign => simp [mul, hk]
  | nan => exact absurd rfl hx

/-- A quotient by a finite number other than zero has a value. -/
theorem div_ne_nan (hx : x ≠ .nan) (hk : k.val ≠ 0) :
    x.div (.finite negative k) ≠ .nan := by
  cases x with
  | finite sign j =>
    rw [div, if_neg hk]
    exact ofQuotient_ne_nan _ _ _
  | infinity sign => simp [div]
  | nan => exact absurd rfl hx

theorem round_ne_nan (hx : x ≠ .nan) : x.round ≠ .nan := by
  cases x with
  | finite sign j => exact ofQuotient_ne_nan _ _ _
  | infinity sign => simp [round]
  | nan => exact absurd rfl hx

theorem clamp_ne_nan {low high : Binary32} (hx : x ≠ .nan)
    (hlow : low ≠ .nan) (hhigh : high ≠ .nan) :
    x.clamp low high ≠ .nan := by
  unfold clamp
  split
  · exact hlow
  split
  · exact hhigh
  · exact hx

end Operations

end StyleProbe.Binary32
