import Mathlib.Order.Monotone.Basic
import StyleProbe.Binary32.Basic

/-!
# Rounding to the nearest magnitude

A value rounds to a rank when it lies in that rank's cell: between the
midpoints to the two neighbouring magnitudes, and on a midpoint only if the
rank is even. Every value lies in exactly one cell, so a value that is known
to lie in a cell is known to round to its rank, however it was computed.

Main statements: `inCell_nearestRank`, `InCell.unique` and
`nearestRank_eq_iff`.
-/

-- Powers are the core library's own, whatever else is imported.
attribute [instance (high), default_instance high] instPowNat

namespace StyleProbe.Binary32

/-- `num / den` quanta lie in the cell of rank `k`. -/
structure InCell (k num den : Nat) : Prop where
  low : (quanta (k - 1) + quanta k) * den ≤ 2 * num
  high : 2 * num ≤ (quanta k + quanta (k + 1)) * den
  even : k % 2 = 0 ∨
    (quanta (k - 1) + quanta k) * den ≠ 2 * num ∧
      2 * num ≠ (quanta k + quanta (k + 1)) * den

theorem quanta_strictMono : StrictMono quanta :=
  strictMono_nat_of_lt_succ quanta_lt_quanta_succ

/-! ## A value has one cell -/

/-- No value lies in two cells. -/
theorem InCell.unique {j k num den : Nat} (hden : 0 < den)
    (hj : InCell j num den) (hk : InCell k num den) : j = k := by
  -- Where the cells of two ranks meet, the ranks are neighbours, and only
  -- one of them is even.
  have hno : ∀ {j k : Nat}, InCell j num den → InCell k num den → ¬ j < k := by
    intro j k hj hk hlt
    have hfirst : quanta j ≤ quanta (k - 1) :=
      quanta_strictMono.monotone (by omega)
    have hsecond : quanta (j + 1) ≤ quanta k :=
      quanta_strictMono.monotone (by omega)
    have hbetween : (quanta j + quanta (j + 1)) * den ≤
        (quanta (k - 1) + quanta k) * den :=
      Nat.mul_le_mul_right den (Nat.add_le_add hfirst hsecond)
    have hmeet := Nat.le_antisymm
      (Nat.le_trans hj.high hbetween) hk.low
    have hsum : quanta j + quanta (j + 1) = quanta (k - 1) + quanta k := by
      apply Nat.eq_of_mul_eq_mul_right hden
      exact Nat.le_antisymm hbetween (Nat.le_trans hk.low hj.high)
    have hnext : j + 1 = k := quanta_strictMono.injective (by omega)
    rcases hj.even with hj' | hj'
    · rcases hk.even with hk' | hk'
      · omega
      · exact hk'.1 hmeet.symm
    · exact hj'.2 (Nat.le_antisymm hj.high (Nat.le_trans hbetween hk.low))
  rcases Nat.lt_trichotomy j k with hlt | heq | hlt
  · exact absurd hlt (hno hj hk)
  · exact heq
  · exact absurd hlt (hno hk hj)

/-! ## Rounding finds it -/

/-- Rounding to a whole number stays within a half, and meets a half only in
an even number. -/
theorem roundHalfEven_spec (num : Nat) {den : Nat} (hden : 0 < den) :
    2 * (roundHalfEven num den * den) ≤ 2 * num + den ∧
      2 * num ≤ 2 * (roundHalfEven num den * den) + den ∧
      (roundHalfEven num den % 2 = 0 ∨
        2 * (roundHalfEven num den * den) ≠ 2 * num + den ∧
          2 * num ≠ 2 * (roundHalfEven num den * den) + den) := by
  have hnum : num / den * den + num % den = num := Nat.div_add_mod' num den
  have hrest := Nat.mod_lt num hden
  have hup : (num / den + 1) * den = num / den * den + den :=
    Nat.succ_mul _ _
  unfold roundHalfEven
  dsimp only
  generalize num / den = below at *
  generalize num % den = rest at *
  split
  · generalize below * den = product at *
    omega
  split
  · rw [hup]
    generalize below * den = product at *
    omega
  · rcases Nat.mod_two_eq_zero_or_one below with heven | hodd
    · rw [heven, Nat.add_zero]
      generalize below * den = product at *
      omega
    · rw [hodd, hup]
      generalize below * den = product at *
      omega

/-- The magnitudes of a binade, and the one after it, are the multiples of a
power of two; below the first binade they are the whole numbers. -/
theorem quanta_binade {s m : Nat} (hm : m ≤ 2 ^ 24)
    (hbinade : s = 0 ∨ 2 ^ 23 ≤ m) :
    quanta (s * 2 ^ 23 + m) = m * 2 ^ s := by
  by_cases hsmall : m < 2 ^ 23
  · obtain rfl : s = 0 := by omega
    rw [Nat.zero_mul, Nat.zero_add, quanta_of_lt hsmall, Nat.pow_zero,
      Nat.mul_one]
  by_cases hlast : m = 2 ^ 24
  · have hrank : s * 2 ^ 23 + m = (s + 1 + 1) * 2 ^ 23 + 0 := by omega
    have hdouble : 2 ^ (s + 1) = 2 * 2 ^ s := Nat.pow_succ'
    rw [hrank, quanta_shift (s + 1) 0 (by decide), hdouble, hlast]
    generalize 2 ^ s = step
    omega
  · have hrank : s * 2 ^ 23 + m = (s + 1) * 2 ^ 23 + (m - 2 ^ 23) := by omega
    have hbits : 2 ^ 23 + (m - 2 ^ 23) = m := by omega
    rw [hrank, quanta_shift s (m - 2 ^ 23) (by omega), hbits]

/-- After a binade the magnitudes are no closer together. -/
theorem le_quanta_binade_succ {s m : Nat} (hm : m ≤ 2 ^ 24)
    (hbinade : s = 0 ∨ 2 ^ 23 ≤ m) :
    (m + 1) * 2 ^ s ≤ quanta (s * 2 ^ 23 + m + 1) := by
  by_cases hlast : m = 2 ^ 24
  · have hrank : s * 2 ^ 23 + m + 1 = (s + 1 + 1) * 2 ^ 23 + 1 := by omega
    have hdouble : 2 ^ (s + 1) = 2 * 2 ^ s := Nat.pow_succ'
    rw [hrank, quanta_shift (s + 1) 1 (by decide), hdouble, hlast]
    generalize 2 ^ s = step
    omega
  · rw [Nat.add_assoc, quanta_binade (by omega) (by omega)]

/-- Shifted to 24 bits, a number has 24 bits at most, and exactly so many if
it was shifted. -/
theorem shifted_bits {q s : Nat} (hs : q.log2 - 23 = s) :
    q / 2 ^ s < 2 ^ 24 ∧ (s = 0 ∨ 2 ^ 23 ≤ q / 2 ^ s) := by
  have hsplit : ∀ n : Nat, 2 ^ (n + s) = 2 ^ s * 2 ^ n := fun n => by
    rw [Nat.add_comm, Nat.pow_add]
  constructor
  · apply Nat.div_lt_of_lt_mul
    rw [← hsplit]
    exact Nat.lt_of_lt_of_le Nat.lt_log2_self
      (Nat.pow_le_pow_right (by decide) (by omega))
  · by_cases hzero : s = 0
    · exact .inl hzero
    · have hne : q ≠ 0 := by
        rintro rfl
        exact hzero (by rw [← hs]; rfl)
      have hlog : 23 + s = q.log2 := by omega
      rw [Nat.le_div_iff_mul_le (Nat.two_pow_pos s), Nat.mul_comm, ← hsplit,
        hlog]
      exact .inr (Nat.log2_self_le hne)

/-- A value within half a step of the `m`-th step lies in the cell of a rank
whose magnitude is there, if the neighbouring magnitudes are a step away. The
one below may be nearer where the value is not below the magnitude. -/
theorem inCell_of_step {num den rank m step : Nat}
    (hrank : quanta rank * den = m * step) (heven : rank % 2 = m % 2)
    (hbelow : 2 * (m * step) ≤ 2 * num + step)
    (habove : 2 * num ≤ 2 * (m * step) + step)
    (hhalf : m % 2 = 0 ∨
      2 * (m * step) ≠ 2 * num + step ∧ 2 * num ≠ 2 * (m * step) + step)
    (hnext : m * step + step ≤ quanta (rank + 1) * den)
    (hprevious : quanta (rank - 1) * den + step = m * step ∨
      quanta (rank - 1) * den < m * step ∧ m * step ≤ num ∨
      quanta (rank - 1) * den = 0 ∧ m = 0) :
    InCell rank num den := by
  have hlow : (quanta (rank - 1) + quanta rank) * den =
      quanta (rank - 1) * den + m * step := by
    rw [Nat.add_mul, hrank]
  have hhigh : (quanta rank + quanta (rank + 1)) * den =
      m * step + quanta (rank + 1) * den := by
    rw [Nat.add_mul, hrank]
  have hzero : m = 0 → m * step = 0 := by
    rintro rfl
    exact Nat.zero_mul step
  generalize quanta (rank - 1) * den = previous at *
  generalize quanta (rank + 1) * den = next at *
  generalize m * step = value at *
  refine ⟨by rw [hlow]; omega, by rw [hhigh]; omega, ?_⟩
  rw [hlow, hhigh]
  omega

/-- **Every value lies in the cell of the rank that it is rounded to.** -/
theorem inCell_nearestRank (num : Nat) {den : Nat} (hden : 0 < den) :
    InCell (nearestRank num den) num den := by
  unfold nearestRank
  dsimp only
  generalize hshift : (num / den).log2 - 23 = s
  obtain ⟨hbits, hbinade⟩ := shifted_bits hshift
  rw [Nat.div_div_eq_div_mul] at hbits hbinade
  have hstep : 0 < den * 2 ^ s := Nat.mul_pos hden (Nat.two_pow_pos s)
  obtain ⟨hbelow, habove, hhalf⟩ := roundHalfEven_spec num hstep
  have hwhole : num / (den * 2 ^ s) ≤ roundHalfEven num (den * 2 ^ s) ∧
      roundHalfEven num (den * 2 ^ s) ≤ num / (den * 2 ^ s) + 1 := by
    unfold roundHalfEven
    dsimp only
    split
    · omega
    split <;> omega
  have hfloor := Nat.div_mul_le_self num (den * 2 ^ s)
  generalize roundHalfEven num (den * 2 ^ s) = m at *
  have hscale : ∀ n, n * 2 ^ s * den = n * (den * 2 ^ s) := fun n => by
    rw [Nat.mul_assoc, Nat.mul_comm (2 ^ s)]
  have hrank : quanta (s * 2 ^ 23 + m) * den = m * (den * 2 ^ s) := by
    rw [quanta_binade (by omega) (by omega), hscale]
  refine inCell_of_step hrank (by omega) hbelow habove hhalf ?_ ?_
  · rw [← Nat.succ_mul, ← hscale]
    exact Nat.mul_le_mul_right den
      (le_quanta_binade_succ (by omega) (by omega))
  · by_cases hstart : s = 0 ∨ 2 ^ 23 < m
    · by_cases hzero : m = 0
      · obtain rfl : s = 0 := by omega
        subst hzero
        exact .inr (.inr ⟨by simp [quanta], rfl⟩)
      · have hbefore : s * 2 ^ 23 + m - 1 = s * 2 ^ 23 + (m - 1) := by omega
        have hone : m - 1 + 1 = m := by omega
        rw [hbefore, quanta_binade (by omega) (by omega), hscale,
          ← Nat.succ_mul, Nat.succ_eq_add_one, hone]
        exact .inl rfl
    · -- A binade starts here, where the magnitude below is nearer.
      have hm : m = num / (den * 2 ^ s) := by omega
      have hlt : quanta (s * 2 ^ 23 + m - 1) < quanta (s * 2 ^ 23 + m) :=
        quanta_strictMono (by omega)
      refine .inr (.inl ⟨?_, ?_⟩)
      · rw [← hrank]
        exact Nat.mul_lt_mul_of_pos_right hlt hden
      · rw [hm]
        exact hfloor

/-- **Rounding is lying in a cell.** -/
theorem nearestRank_eq_iff {num den k : Nat} (hden : 0 < den) :
    nearestRank num den = k ↔ InCell k num den := by
  constructor
  · rintro rfl
    exact inCell_nearestRank num hden
  · exact (inCell_nearestRank num hden).unique hden

end StyleProbe.Binary32
