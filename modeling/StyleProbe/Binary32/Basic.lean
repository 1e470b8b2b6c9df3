/-!
# Binary32 numbers

Single-precision numbers as exact values. The finite magnitudes are counted
upwards from zero: the magnitude of rank `k` is the `k`-th smallest one, and
its value is a whole number of quanta, where one quantum is `2 ^ (-149)`.
Neighbouring ranks are neighbouring magnitudes, also across powers of two
and between subnormal and normal numbers, so rounding is a question about
ranks and all arithmetic is done on natural numbers.

Main statement: `quanta_lt_quanta_succ` (a higher rank is a larger value).
-/

-- Powers are the core library's own, whatever else is imported.
attribute [instance (high), default_instance high] instPowNat

namespace StyleProbe

/-- How many finite magnitudes there are. -/
def rankCount : Nat := 0x7F800000

theorem rankCount_pos : 0 < rankCount := by decide

/-- A single-precision number. Zero has two signs; a NaN has none. -/
inductive Binary32 where
  | finite (negative : Bool) (rank : Fin rankCount)
  | infinity (negative : Bool)
  | nan
deriving DecidableEq

namespace Binary32

/-- The value of the magnitude of rank `k`, in quanta. Below `2 ^ 23` the
magnitudes are one quantum apart; from there on the distance doubles after
every `2 ^ 23` ranks. -/
def quanta (k : Nat) : Nat :=
  if k < 2 ^ 23 then k
  else (2 ^ 23 + k % 2 ^ 23) * 2 ^ (k / 2 ^ 23 - 1)

/-- The whole number nearest to `num / den`; a half goes to the even
neighbour. -/
def roundHalfEven (num den : Nat) : Nat :=
  let below := num / den
  let rest := num % den
  if 2 * rest < den then below
  else if den < 2 * rest then below + 1
  else below + below % 2

/-- The rank of the magnitude nearest to `num / den` quanta. The quotient is
rounded to 24 significant bits, or to whole quanta where it has fewer; a
half goes to the even rank. -/
def nearestRank (num den : Nat) : Nat :=
  let shift := (num / den).log2 - 23
  shift * 2 ^ 23 + roundHalfEven num (den * 2 ^ shift)

/-- The number nearest to `num / den` quanta, with the given sign. What
rounds past the largest finite magnitude is infinite. -/
def ofQuotient (negative : Bool) (num den : Nat) : Binary32 :=
  if h : nearestRank num den < rankCount then
    .finite negative ⟨nearestRank num den, h⟩
  else .infinity negative

/-- The quanta in 1. -/
def one : Nat := 2 ^ 149

/-- The number nearest to the whole number `n`. -/
def ofNat (n : Nat) : Binary32 := ofQuotient false (n * one) 1

/-- Positive zero. -/
def zero : Binary32 := .finite false ⟨0, rankCount_pos⟩

/-! ## Order -/

/-- A number's place in the order; a NaN has none, and both zeros have the
same. -/
def place? : Binary32 → Option Int
  | .finite negative rank => some (if negative then -rank.val else rank.val)
  | .infinity negative =>
    some (if negative then -(rankCount : Int) else rankCount)
  | .nan => none

/-- Whether `x` is less than `y`; never so for a NaN. -/
def lt (x y : Binary32) : Bool :=
  match x.place?, y.place? with
  | some m, some n => m < n
  | _, _ => false

/-- Whether `x` is at most `y`; never so for a NaN. -/
def le (x y : Binary32) : Bool :=
  match x.place?, y.place? with
  | some m, some n => m ≤ n
  | _, _ => false

/-- Whether `x` is zero of either sign. -/
def isZero (x : Binary32) : Bool := x.place? == some 0

/-- Moves `x` to the nearer bound where it lies outside `low` to `high`. A
negative zero is not below zero, and a NaN is outside nothing. -/
def clamp (x low high : Binary32) : Binary32 :=
  if x.lt low then low else if high.lt x then high else x

/-! ## Laws of the ranks -/

theorem quanta_of_lt {k : Nat} (h : k < 2 ^ 23) : quanta k = k := if_pos h

/-- From rank `2 ^ 23` on, a rank is a shift and 24 bits. -/
theorem quanta_shift (s m : Nat) (h : m < 2 ^ 23) :
    quanta ((s + 1) * 2 ^ 23 + m) = (2 ^ 23 + m) * 2 ^ s := by
  have hge : ¬ (s + 1) * 2 ^ 23 + m < 2 ^ 23 := by omega
  have hmod : ((s + 1) * 2 ^ 23 + m) % 2 ^ 23 = m := by omega
  have hdiv : ((s + 1) * 2 ^ 23 + m) / 2 ^ 23 - 1 = s := by omega
  rw [quanta, if_neg hge, hmod, hdiv]

/-- A higher rank is a larger value. -/
theorem quanta_lt_quanta_succ (k : Nat) : quanta k < quanta (k + 1) := by
  by_cases hsmall : k + 1 < 2 ^ 23
  · rw [quanta_of_lt hsmall, quanta_of_lt (by omega)]
    omega
  by_cases hedge : k < 2 ^ 23
  · have hk : k + 1 = (0 + 1) * 2 ^ 23 + 0 := by omega
    rw [hk, quanta_shift 0 0 (by decide), quanta_of_lt hedge]
    omega
  obtain ⟨s, m, hm, rfl⟩ :
      ∃ s m, m < 2 ^ 23 ∧ k = (s + 1) * 2 ^ 23 + m :=
    ⟨k / 2 ^ 23 - 1, k % 2 ^ 23, by omega, by omega⟩
  rw [quanta_shift s m hm]
  by_cases hlast : m + 1 < 2 ^ 23
  · rw [Nat.add_assoc, quanta_shift s (m + 1) hlast]
    exact Nat.mul_lt_mul_of_pos_right (by omega) (Nat.two_pow_pos s)
  · have hk : (s + 1) * 2 ^ 23 + m + 1 = (s + 1 + 1) * 2 ^ 23 + 0 := by
      omega
    rw [hk, quanta_shift (s + 1) 0 (by decide), Nat.pow_succ]
    have := Nat.two_pow_pos s
    have hm' : 2 ^ 23 + m < 2 * 2 ^ 23 := by omega
    calc (2 ^ 23 + m) * 2 ^ s < (2 * 2 ^ 23) * 2 ^ s :=
          Nat.mul_lt_mul_of_pos_right hm' this
      _ = (2 ^ 23 + 0) * (2 ^ s * 2) := by
          rw [Nat.add_zero, Nat.mul_comm (2 ^ s) 2, ← Nat.mul_assoc,
            Nat.mul_comm 2 (2 ^ 23)]

end Binary32

end StyleProbe
