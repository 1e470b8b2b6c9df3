import StyleProbe.Binary32.Arithmetic
import StyleProbe.Proofs.Binary32.Rounding

/-!
# Values that need no rounding

The multiples of a power of two with 24 bits or fewer are magnitudes. A value
is never rounded past a magnitude, so what lies between two of them stays
between them, and one that is a magnitude stays as it is.

Main statements: `exists_quanta_eq`, `quanta_nearestRank_le`,
`le_quanta_nearestRank` and `exists_ofNat`.
-/

-- Powers are the core library's own, whatever else is imported.
attribute [instance (high), default_instance high] instPowNat

namespace StyleProbe.Binary32

/-! ## Magnitudes -/

theorem exists_quanta_double (k : Nat) : ∃ j, quanta j = 2 * quanta k := by
  by_cases hsmall : k < 2 ^ 23
  · refine ⟨0 * 2 ^ 23 + 2 * k, ?_⟩
    rw [quanta_binade (by omega) (.inl rfl), quanta_of_lt hsmall, Nat.pow_zero,
      Nat.mul_one]
  · obtain ⟨s, m, hm, rfl⟩ : ∃ s m, m < 2 ^ 23 ∧ k = (s + 1) * 2 ^ 23 + m :=
      ⟨k / 2 ^ 23 - 1, k % 2 ^ 23, by omega, by omega⟩
    have hdouble : 2 ^ (s + 1) = 2 * 2 ^ s := Nat.pow_succ'
    refine ⟨(s + 1 + 1) * 2 ^ 23 + m, ?_⟩
    rw [quanta_shift (s + 1) m hm, quanta_shift s m hm, hdouble,
      Nat.mul_left_comm]

/-- **Numbers of 24 bits are magnitudes**, times any power of two. -/
theorem exists_quanta_eq {m : Nat} (hm : m ≤ 2 ^ 24) (e : Nat) :
    ∃ k, quanta k = m * 2 ^ e := by
  induction e with
  | zero => exact ⟨0 * 2 ^ 23 + m, quanta_binade hm (.inl rfl)⟩
  | succ e ih =>
    obtain ⟨k, hk⟩ := ih
    obtain ⟨j, hj⟩ := exists_quanta_double k
    have hdouble : 2 ^ (e + 1) = 2 * 2 ^ e := Nat.pow_succ'
    exact ⟨j, by rw [hj, hk, hdouble, Nat.mul_left_comm]⟩

/-! ## Rounding between magnitudes -/

section Bounds

variable {num den : Nat} (hden : 0 < den)

include hden

/-- What is no larger than a magnitude is not rounded past it. -/
theorem nearestRank_le {k : Nat} (h : num ≤ quanta k * den) :
    nearestRank num den ≤ k := by
  have hcell := inCell_nearestRank num hden
  generalize nearestRank num den = j at *
  apply Nat.le_of_not_lt
  intro hlt
  have hprevious : quanta k ≤ quanta (j - 1) :=
    quanta_strictMono.monotone (by omega)
  have hnext : quanta k < quanta j := quanta_strictMono hlt
  have hsum : 2 * quanta k * den < (quanta (j - 1) + quanta j) * den :=
    Nat.mul_lt_mul_of_pos_right (by omega) hden
  have hlow := hcell.low
  rw [Nat.mul_assoc] at hsum
  omega

theorem le_nearestRank {k : Nat} (h : quanta k * den ≤ num) :
    k ≤ nearestRank num den := by
  have hcell := inCell_nearestRank num hden
  generalize nearestRank num den = j at *
  apply Nat.le_of_not_lt
  intro hlt
  have hnext : quanta (j + 1) ≤ quanta k :=
    quanta_strictMono.monotone (by omega)
  have hprevious : quanta j < quanta k := quanta_strictMono hlt
  have hsum : (quanta j + quanta (j + 1)) * den < 2 * quanta k * den :=
    Nat.mul_lt_mul_of_pos_right (by omega) hden
  have hhigh := hcell.high
  rw [Nat.mul_assoc] at hsum
  omega

/-- A magnitude is rounded to itself, as whatever quotient it is given. -/
theorem nearestRank_eq_of_quanta {k : Nat} (h : num = quanta k * den) :
    nearestRank num den = k :=
  Nat.le_antisymm (nearestRank_le hden (Nat.le_of_eq h))
    (le_nearestRank hden (Nat.le_of_eq h.symm))

variable {m : Nat} (hm : m ≤ 2 ^ 24) {e : Nat}

include hm

theorem quanta_nearestRank_le (h : num ≤ m * 2 ^ e * den) :
    quanta (nearestRank num den) ≤ m * 2 ^ e := by
  obtain ⟨k, hk⟩ := exists_quanta_eq hm e
  rw [← hk] at h ⊢
  exact quanta_strictMono.monotone (nearestRank_le hden h)

theorem le_quanta_nearestRank (h : m * 2 ^ e * den ≤ num) :
    m * 2 ^ e ≤ quanta (nearestRank num den) := by
  obtain ⟨k, hk⟩ := exists_quanta_eq hm e
  rw [← hk] at h ⊢
  exact quanta_strictMono.monotone (le_nearestRank hden h)

end Bounds

/-! ## Whole numbers -/

theorem lt_rankCount {k : Nat} (h : quanta k ≤ 2 ^ 24 * one) :
    k < rankCount := by
  have hlargest : 2 ^ 24 * one < quanta rankCount := by decide
  exact quanta_strictMono.lt_iff_lt.mp (Nat.lt_of_le_of_lt h hlargest)

/-- **Whole numbers of 24 bits are numbers**. -/
theorem exists_ofNat {n : Nat} (hn : n ≤ 2 ^ 24) :
    ∃ k : Fin rankCount, ofNat n = .finite false k ∧ quanta k = n * one := by
  obtain ⟨k, hk⟩ : ∃ k, quanta k = n * one := exists_quanta_eq hn 149
  have hrank : nearestRank (n * one) 1 = k :=
    nearestRank_eq_of_quanta Nat.one_pos (by rw [hk, Nat.mul_one])
  have hlt : k < rankCount := by
    apply lt_rankCount
    rw [hk]
    exact Nat.mul_le_mul_right one hn
  refine ⟨⟨k, hlt⟩, ?_, hk⟩
  simp [ofNat, ofQuotient, hrank, hlt]

/-- Only zero has no rank below it. -/
theorem exists_ofNat_pos {n : Nat} (hpos : 0 < n) (hn : n ≤ 2 ^ 24) :
    ∃ k : Fin rankCount, ofNat n = .finite false k ∧ quanta k = n * one ∧
      k.val ≠ 0 := by
  obtain ⟨k, hnumber, hk⟩ := exists_ofNat hn
  refine ⟨k, hnumber, hk, fun hzero => ?_⟩
  have hvalue : 0 < n * one := Nat.mul_pos hpos (by decide)
  have hnone : quanta 0 = 0 := by decide
  rw [← hk, hzero, hnone] at hvalue
  exact Nat.lt_irrefl 0 hvalue

theorem byte_le (byte : Fin 256) : byte.val ≤ 2 ^ 24 :=
  Nat.le_trans (Nat.le_of_lt byte.isLt) (by decide)

end StyleProbe.Binary32
