import StyleProbe.Proofs.Binary32.Exact
import StyleProbe.Proofs.Binary32.Spelling

/-!
# Whole numbers

A whole number of 24 bits at most is written with its digits and nothing else:
it is the only whole number in its cell, so a grid of whole numbers offers it
or nothing, and a finer grid has it as the point below. Rounding leaves it
alone, and a byte is its own whole part.

Main statements: `text_ofNat` and `toByte_ofNat`.
-/

-- Powers are the core library's own, whatever else is imported.
attribute [instance (high), default_instance high] instPowNat

namespace StyleProbe

/-! ## Digits -/

namespace Decimal

/-- Zeros at the end of a number are zeros at the end of its digits. -/
theorem toDigits_mul_pow {n : Nat} (hn : 0 < n) (places : Nat) :
    Nat.toDigits 10 (n * 10 ^ places) =
      Nat.toDigits 10 n ++ List.replicate places '0' := by
  induction places with
  | zero => simp
  | succ places ih =>
    have hpos : 0 < n * 10 ^ places := Nat.mul_pos hn (Nat.pow_pos (by decide))
    have hnext : n * 10 ^ (places + 1) = 10 * (n * 10 ^ places) + 0 := by
      have hpow : 10 ^ (places + 1) = 10 * 10 ^ places := Nat.pow_succ'
      rw [hpow, Nat.mul_left_comm, Nat.add_zero]
    rw [hnext, ← Nat.toDigits_append_toDigits (by decide) hpos (by decide), ih,
      Nat.toDigits_zero, List.replicate_succ', List.append_assoc]

/-- The digits of a number with zeros at its end, filled up in front. -/
theorem padded_mul_pow (n places : Nat) :
    List.replicate
        (places + 1 - (Nat.toDigits 10 (n * 10 ^ places)).length) '0' ++
      Nat.toDigits 10 (n * 10 ^ places) =
        Nat.toDigits 10 n ++ List.replicate places '0' := by
  rcases Nat.eq_zero_or_pos n with rfl | hn
  · rw [Nat.zero_mul, Nat.toDigits_zero, List.length_singleton,
      Nat.add_sub_cancel, ← List.replicate_succ', List.replicate_succ,
      List.singleton_append]
  · have hdigits : 0 < (Nat.toDigits 10 n).length := Nat.length_toDigits_pos
    have hfull : places + 1 -
        (Nat.toDigits 10 n ++ List.replicate places '0').length = 0 := by
      rw [List.length_append, List.length_replicate]
      omega
    rw [toDigits_mul_pow hn, hfull, List.replicate_zero, List.nil_append]

/-- **A whole number is written without a point.** -/
theorem pointed_mul_pow (n places : Nat) :
    pointed (n * 10 ^ places) places = Nat.toDigits 10 n := by
  have hcut : (Nat.toDigits 10 n ++ List.replicate places '0').length -
      places = (Nat.toDigits 10 n).length := by
    rw [List.length_append, List.length_replicate]
    omega
  have hzeros : dropTrailingZeros (List.replicate places '0') = [] := by
    simp [dropTrailingZeros]
  unfold pointed
  dsimp only
  rw [padded_mul_pow, hcut, List.take_left, List.drop_left, hzeros]

end Decimal

namespace Binary32

/-! ## The search for a whole number -/

theorem exists_mul_of_onGrid? {k step x : Nat}
    (h : onGrid? k step = some x) : ∃ q, x = q * step := by
  have hbelow : ∃ q, quanta k * 10 ^ finest / (one * step) * step =
      q * step := ⟨_, rfl⟩
  have habove : ∃ q, quanta k * 10 ^ finest / (one * step) * step + step =
      q * step := ⟨_, (Nat.succ_mul _ step).symm⟩
  unfold onGrid? at h
  dsimp only at h
  split at h
  · split at h <;> cases h
    · exact hbelow
    · exact habove
  · cases h
    exact hbelow
  · cases h
    exact habove
  · cases h

section Whole

variable {n k : Nat} (hk : quanta k = n * one)

include hk

theorem value_whole : quanta k * 10 ^ finest = n * 10 ^ finest * one := by
  rw [hk, Nat.mul_right_comm]

theorem readsBack_whole : readsBack k (n * 10 ^ finest) = true := by
  have hpos : 0 < 10 ^ finest := Nat.pow_pos (by decide)
  apply readsBack_eq_true_iff.mpr
  rw [← value_whole hk]
  exact inCell_of_near (by omega) (by omega)

/-- A grid that a whole number is on offers the whole number. -/
theorem onGrid?_fine {j : Nat} (hfine : j ≤ finest) :
    onGrid? k (10 ^ j) = some (n * 10 ^ finest) := by
  have hone : 0 < one := by decide
  have hstep : 0 < 10 ^ j := Nat.pow_pos (by decide)
  have hsplit : 10 ^ finest = 10 ^ (finest - j) * 10 ^ j := by
    rw [← Nat.pow_add, Nat.sub_add_cancel hfine]
  have hbelow : quanta k * 10 ^ finest / (one * 10 ^ j) * 10 ^ j =
      n * 10 ^ finest := by
    have hvalue : quanta k * 10 ^ finest =
        n * 10 ^ (finest - j) * (one * 10 ^ j) := by
      rw [hk, hsplit]
      ac_rfl
    rw [hvalue, Nat.mul_div_cancel _ (Nat.mul_pos hone hstep), hsplit,
      Nat.mul_assoc]
  have hnear : quanta k * 10 ^ finest - n * 10 ^ finest * one <
      (n * 10 ^ finest + 10 ^ j) * one - quanta k * 10 ^ finest := by
    have hpos : 0 < 10 ^ j * one := Nat.mul_pos hstep hone
    rw [value_whole hk, Nat.add_mul]
    omega
  unfold onGrid?
  dsimp only
  rw [hbelow, readsBack_whole hk, if_pos hnear]
  cases readsBack k (n * 10 ^ finest + 10 ^ j) with
  | true => rfl
  | false => rfl

variable (hn : n < 2 ^ 24)

include hn

theorem eq_of_readsBack {m : Nat} (h : readsBack k (m * 10 ^ finest) = true) :
    m = n := by
  have hone : 0 < one := by decide
  have hcell : InCell k (m * one) 1 := by
    apply InCell.of_scaled (Nat.pow_pos (by decide) : 0 < 10 ^ finest)
    rw [Nat.mul_right_comm, Nat.one_mul]
    exact readsBack_eq_true_iff.mp h
  have hrank : nearestRank (m * one) 1 = k :=
    (nearestRank_eq_iff Nat.one_pos).mpr hcell
  have hm : m < 2 ^ 24 := by
    apply Nat.lt_of_not_le
    intro hle
    have hbound : 2 ^ 24 * 2 ^ 149 * 1 ≤ m * one := by
      rw [Nat.mul_one]
      exact Nat.mul_le_mul_right one hle
    have hlarge := le_quanta_nearestRank Nat.one_pos (Nat.le_refl _) hbound
    rw [hrank, hk] at hlarge
    exact Nat.not_le.mpr hn (Nat.le_of_mul_le_mul_right hlarge hone)
  obtain ⟨j, hj⟩ : ∃ j, quanta j = m * one :=
    exists_quanta_eq (Nat.le_of_lt hm) 149
  have hsame : nearestRank (m * one) 1 = j :=
    nearestRank_eq_of_quanta Nat.one_pos (by rw [hj, Nat.mul_one])
  have hvalue : m * one = n * one := by rw [← hj, ← hk, ← hsame, hrank]
  exact Nat.eq_of_mul_eq_mul_right hone hvalue

/-- **Whatever a grid offers for a whole number is the whole number.** -/
theorem eq_of_onGrid? {j x : Nat} (h : onGrid? k (10 ^ j) = some x) :
    x = n * 10 ^ finest := by
  rcases Nat.le_total j finest with hfine | hcoarse
  · rw [onGrid?_fine hk hfine] at h
    exact (Option.some.inj h).symm
  · -- The grid has whole numbers only.
    obtain ⟨q, hq⟩ := exists_mul_of_onGrid? h
    have hwhole : x = q * 10 ^ (j - finest) * 10 ^ finest := by
      rw [hq, Nat.mul_assoc, ← Nat.pow_add, Nat.sub_add_cancel hcoarse]
    have hreads := readsBack_of_onGrid? h
    rw [hwhole] at hreads
    rw [hwhole, eq_of_readsBack hk hn hreads]

theorem searchGrids_whole (j : Nat) : searchGrids k j = n * 10 ^ finest := by
  induction j with
  | zero =>
    have hfinest := onGrid?_fine hk (Nat.zero_le finest)
    rw [Nat.pow_zero] at hfinest
    rw [searchGrids, hfinest, Option.getD_some]
  | succ j ih =>
    rw [searchGrids]
    cases hgrid : onGrid? k (10 ^ (j + 1)) with
    | none => exact ih
    | some x => exact eq_of_onGrid? hk hn hgrid

end Whole

/-- **A whole number is written with its digits.** -/
theorem text_ofNat {n : Nat} (hn : n < 2 ^ 24) :
    (ofNat n).text = toString n := by
  obtain ⟨k, hnumber, hk⟩ := exists_ofNat (Nat.le_of_lt hn)
  have hexponent : (-(finest : Int)).toNat = 0 := rfl
  have hplaces : (- -(finest : Int)).toNat = finest := rfl
  rw [hnumber, text, Decimal.text, shortest, searchGrids_whole hk hn, hexponent,
    hplaces, Nat.pow_zero, Nat.mul_one, Decimal.pointed_mul_pow,
    Nat.toString_eq_ofList_toDigits]
  rfl

/-! ## Rounding and bytes -/

theorem round_ofNat {n : Nat} (hn : n ≤ 2 ^ 24) :
    (ofNat n).round = ofNat n := by
  obtain ⟨k, hnumber, hk⟩ := exists_ofNat hn
  have hwhole : (n * one + one / 2) / one = n := by
    rw [Nat.add_comm, Nat.add_mul_div_right _ _ (by decide),
      Nat.div_eq_of_lt (by decide), Nat.zero_add]
  rw [hnumber, round, hk, hwhole, ← hnumber, ofNat]

theorem clamp_of_not_lt {x low high : Binary32} (hlow : x.lt low = false)
    (hhigh : high.lt x = false) : x.clamp low high = x := by
  rw [clamp, hlow, hhigh]
  rfl

theorem lt_ofNat_iff {m n : Nat} (hm : m ≤ 2 ^ 24) (hn : n ≤ 2 ^ 24) :
    (ofNat m).lt (ofNat n) = true ↔ m < n := by
  obtain ⟨j, hnumber, hj⟩ := exists_ofNat hm
  obtain ⟨k, hnumber', hk⟩ := exists_ofNat hn
  have hranks : (j : Nat) < k ↔ m < n := by
    rw [← quanta_strictMono.lt_iff_lt, hj, hk]
    exact Nat.mul_lt_mul_right (by decide)
  rw [hnumber, hnumber', ← hranks]
  simp [lt, place?]

/-- **A byte is its own whole part.** -/
theorem toByte_ofNat (byte : Fin 256) : (ofNat byte.val).toByte = byte := by
  obtain ⟨k, hnumber, hk⟩ := exists_ofNat (byte_le byte)
  have hwhole : quanta k / one = byte.val := by
    rw [hk]
    exact Nat.mul_div_cancel byte.val (by decide)
  have hleast : min (quanta k / one) 255 = byte.val := by
    rw [hwhole]
    omega
  rw [hnumber]
  exact Fin.ext hleast

end Binary32

end StyleProbe
