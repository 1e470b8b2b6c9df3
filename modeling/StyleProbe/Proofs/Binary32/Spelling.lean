import StyleProbe.Binary32.Decimal
import StyleProbe.Proofs.Binary32.Rounding
import StyleProbe.Proofs.Decimal.Spelling

/-!
# How numbers are written

The search for a spelling looks at coarser and finer grids and takes a point
that lies in the number's cell. The finest grid is fine enough to have one:
of the two points around a value one is half a step away at most, which is
less than half a quantum. So every finite number is written as a decimal that
reads back as that number, with the sign of its zero.

Main statements: `readsBack_searchGrids`, `exists_positional_text` and
`read?_text`.
-/

-- Powers are the core library's own, whatever else is imported.
attribute [instance (high), default_instance high] instPowNat

namespace StyleProbe.Binary32

/-! ## Cells -/

/-- What is less than half a quantum away from a magnitude lies in its
cell. -/
theorem inCell_of_near {k num den : Nat}
    (hbelow : 2 * (quanta k * den) < 2 * num + den)
    (habove : 2 * num < 2 * (quanta k * den) + den) : InCell k num den := by
  have hnext : quanta k * den + den ≤ quanta (k + 1) * den := by
    rw [← Nat.succ_mul]
    exact Nat.mul_le_mul_right den (quanta_lt_quanta_succ k)
  have hhigh : (quanta k + quanta (k + 1)) * den =
      quanta k * den + quanta (k + 1) * den := Nat.add_mul ..
  have hlow : (quanta (k - 1) + quanta k) * den =
      quanta (k - 1) * den + quanta k * den := Nat.add_mul ..
  by_cases hk : k = 0
  · -- Below zero there is nothing.
    subst hk
    have hzero : (quanta (0 - 1) + quanta 0) * den = 0 := Nat.zero_mul den
    exact ⟨by omega, by omega, .inl rfl⟩
  · have hprevious : quanta (k - 1) * den + den ≤ quanta k * den := by
      rw [← Nat.succ_mul]
      exact Nat.mul_le_mul_right den (quanta_strictMono (by omega))
    exact ⟨by omega, by omega, .inr ⟨by omega, by omega⟩⟩

theorem InCell.of_scaled {k num den scale : Nat} (hscale : 0 < scale)
    (h : InCell k (num * scale) (den * scale)) : InCell k num den := by
  have hnum : 2 * (num * scale) = 2 * num * scale :=
    (Nat.mul_assoc 2 num scale).symm
  have hden : ∀ n, n * (den * scale) = n * den * scale := fun n =>
    (Nat.mul_assoc n den scale).symm
  obtain ⟨hlow, hhigh, heven⟩ := h
  rw [hnum, hden] at hlow hhigh
  rw [hnum, hden, hden] at heven
  refine ⟨Nat.le_of_mul_le_mul_right hlow hscale,
    Nat.le_of_mul_le_mul_right hhigh hscale, ?_⟩
  rcases heven with heven | ⟨hne, hne'⟩
  · exact .inl heven
  · exact .inr ⟨fun heq => hne (by rw [heq]), fun heq => hne' (by rw [heq])⟩

/-! ## The search -/

theorem readsBack_eq_true_iff {k n : Nat} :
    readsBack k n = true ↔ InCell k (n * one) (10 ^ finest) := by
  have hpoint : n * (2 * one) = 2 * (n * one) := Nat.mul_left_comm n 2 one
  unfold readsBack
  dsimp only
  rw [hpoint]
  constructor
  · intro h
    split at h
    · rename_i heven
      simp only [Bool.and_eq_true, decide_eq_true_eq] at h
      exact ⟨h.1, h.2, .inl heven⟩
    · simp only [Bool.and_eq_true, decide_eq_true_eq] at h
      exact ⟨Nat.le_of_lt h.1, Nat.le_of_lt h.2,
        .inr ⟨Nat.ne_of_lt h.1, Nat.ne_of_lt h.2⟩⟩
  · rintro ⟨hlow, hhigh, heven⟩
    split
    · simp [hlow, hhigh]
    · rename_i hodd
      obtain ⟨hne, hne'⟩ := heven.resolve_left hodd
      simp [Nat.lt_of_le_of_ne hlow hne, Nat.lt_of_le_of_ne hhigh hne']

theorem readsBack_of_onGrid? {k step n : Nat} (h : onGrid? k step = some n) :
    readsBack k n = true := by
  unfold onGrid? at h
  dsimp only at h
  split at h
  · rename_i hbelow habove
    split at h <;> cases h
    · exact hbelow
    · exact habove
  · rename_i hbelow _
    cases h
    exact hbelow
  · rename_i _ habove
    cases h
    exact habove
  · cases h

/-- One of the two points of the finest grid around a value is in the
cell. -/
theorem exists_onGrid?_finest (k : Nat) : ∃ n, onGrid? k 1 = some n := by
  have hfine : one < 10 ^ finest := by decide
  have hone : 0 < one := by decide
  have hfloor := Nat.div_mul_le_self (quanta k * 10 ^ finest) one
  have hceiling := Nat.lt_div_mul_add hone (a := quanta k * 10 ^ finest)
  have habove : ∀ n, (n + 1) * one = n * one + one := fun n =>
    Nat.succ_mul n one
  have hpoint : readsBack k (quanta k * 10 ^ finest / one) = true ∨
      readsBack k (quanta k * 10 ^ finest / one + 1) = true := by
    rw [readsBack_eq_true_iff, readsBack_eq_true_iff, habove]
    generalize quanta k * 10 ^ finest / one * one = below at *
    by_cases hnear : 2 * (quanta k * 10 ^ finest) ≤ 2 * below + one
    · exact .inl (inCell_of_near (by omega) (by omega))
    · exact .inr (inCell_of_near (by omega) (by omega))
  unfold onGrid?
  dsimp only
  rw [Nat.mul_one, Nat.mul_one]
  split
  · exact ⟨_, rfl⟩
  · exact ⟨_, rfl⟩
  · exact ⟨_, rfl⟩
  · rename_i hbelow habove
    rw [hbelow, habove] at hpoint
    simp at hpoint

/-- **The search finds a decimal that reads back**, on however coarse a grid
it starts. -/
theorem readsBack_searchGrids (k j : Nat) :
    readsBack k (searchGrids k j) = true := by
  induction j with
  | zero =>
    obtain ⟨n, hn⟩ := exists_onGrid?_finest k
    rw [searchGrids, hn]
    exact readsBack_of_onGrid? hn
  | succ j ih =>
    rw [searchGrids]
    cases hgrid : onGrid? k (10 ^ (j + 1)) with
    | none => exact ih
    | some n => exact readsBack_of_onGrid? hgrid

/-! ## Reading back -/

/-- What reads back has no more than 39 digits before its point. -/
theorem lt_of_readsBack {k : Fin rankCount} {n : Nat}
    (h : readsBack k n = true) : n < 10 ^ (39 + finest) := by
  have hlargest : quanta (k + 1) ≤ quanta rankCount :=
    quanta_strictMono.monotone k.isLt
  have hsize : quanta rankCount ≤ 10 ^ 39 * one := by decide
  have hnext := quanta_lt_quanta_succ k
  have hsum : quanta k + quanta (k + 1) < 2 * (10 ^ 39 * one) := by
    generalize 10 ^ 39 * one = size at *
    omega
  have hhigh := (readsBack_eq_true_iff.mp h).high
  apply Nat.lt_of_mul_lt_mul_right (a := 2 * one)
  calc n * (2 * one) = 2 * (n * one) := Nat.mul_left_comm ..
    _ ≤ (quanta k + quanta (k + 1)) * 10 ^ finest := hhigh
    _ < 2 * (10 ^ 39 * one) * 10 ^ finest :=
        Nat.mul_lt_mul_of_pos_right hsum (Nat.pow_pos (by decide))
    _ = 10 ^ (39 + finest) * (2 * one) := by decide

theorem eq_zero_of_readsBack {k : Fin rankCount} (h : readsBack k 0 = true) :
    k = ⟨0, rankCount_pos⟩ := by
  have hcell := readsBack_eq_true_iff.mp h
  rw [Nat.zero_mul] at hcell
  have hnone : InCell 0 0 (10 ^ finest) :=
    ⟨by simp [quanta], Nat.zero_le _, .inl rfl⟩
  exact Fin.ext (hcell.unique (Nat.pow_pos (by decide)) hnone)

section Places

variable {k : Fin rankCount} {coefficient places : Nat}

theorem pow_mul_pow_finest (hplaces : places ≤ finest) (m : Nat) :
    10 ^ (m + places) * 10 ^ (finest - places) = 10 ^ (m + finest) := by
  rw [← Nat.pow_add]
  congr 1
  omega

variable (hplaces : places ≤ finest)
  (h : readsBack k (coefficient * 10 ^ (finest - places)) = true)

include hplaces h

/-- What reads back has no more than 40 digits before its point, with however
many zeros at its end it is given. -/
theorem digitCount_le_of_readsBack :
    Decimal.digitCount coefficient ≤ 40 + places := by
  apply Nat.le_of_not_lt
  intro hdigits
  have hle := Nat.mul_le_mul_right (10 ^ (finest - places))
    (Decimal.pow_le_of_lt_digitCount (by omega) hdigits)
  rw [pow_mul_pow_finest hplaces] at hle
  have hpower : 10 ^ (39 + finest) < 10 ^ (40 + finest) := by decide
  exact Nat.not_lt.mpr (Nat.le_of_lt hpower)
    (Nat.lt_of_le_of_lt hle (lt_of_readsBack h))

theorem nearestRank_of_readsBack :
    nearestRank (coefficient * one) (10 ^ places) = k := by
  apply (nearestRank_eq_iff (Nat.pow_pos (by decide))).mpr
  apply InCell.of_scaled (Nat.pow_pos (by decide) : 0 < 10 ^ (finest - places))
  have hden := pow_mul_pow_finest hplaces 0
  rw [Nat.zero_add, Nat.zero_add] at hden
  rw [hden, Nat.mul_right_comm]
  exact readsBack_eq_true_iff.mp h

/-- **A decimal that reads back is rounded to the number**, with however many
zeros at its end it is given. -/
theorem ofDecimal_of_readsBack (negative : Bool) :
    ofDecimal ⟨negative, coefficient, -places⟩ = .finite negative k := by
  unfold ofDecimal
  dsimp only
  split
  · -- Nothing but zero is written with zeros only.
    rename_i hsmall
    have hzero : coefficient = 0 := by
      simp only [Bool.or_eq_true, decide_eq_true_eq] at hsmall
      have hdigits : 0 < Decimal.digitCount coefficient :=
        Nat.length_toDigits_pos
      have hfinest : finest = 45 := rfl
      omega
    rw [hzero, Nat.zero_mul] at h
    rw [eq_zero_of_readsBack h]
  split
  · -- No number is so large.
    rename_i hlarge
    have hdigits := digitCount_le_of_readsBack hplaces h
    omega
  · have hexponent : (-(places : Int)).toNat = 0 := by omega
    have hplaces' : (- -(places : Int)).toNat = places := by omega
    rw [hexponent, hplaces', Nat.pow_zero, Nat.mul_one, ofQuotient]
    simp [nearestRank_of_readsBack hplaces h]

end Places

/-- **A finite number is written as a positional decimal** with its sign. -/
theorem exists_positional_text (negative : Bool) (k : Fin rankCount) :
    ∃ digits whole fraction,
      (finite negative k).text.toList =
        (if negative then '-' :: digits else digits) ∧
      Decimal.Positional digits whole fraction ∧
      ofDecimal ⟨negative, Text.decimalNumber (whole ++ fraction),
        -fraction.length⟩ = .finite negative k := by
  obtain ⟨whole, fraction, hwritten, hlength, hnumber⟩ :=
    Decimal.exists_positional_pointed (searchGrids k (finest + 38)) finest
  refine ⟨_, whole, fraction, ?_, hwritten, ?_⟩
  · have hexponent : (-(finest : Int)).toNat = 0 := rfl
    have hplaces : (- -(finest : Int)).toNat = finest := rfl
    simp only [text, Decimal.text, shortest, String.toList_ofList, hexponent,
      hplaces, Nat.pow_zero, Nat.mul_one]
  · have hreads := readsBack_searchGrids k (finest + 38)
    rw [← hnumber] at hreads
    exact ofDecimal_of_readsBack hlength hreads negative

/-- **A finite number reads back as it was written.** -/
theorem read?_text (negative : Bool) (k : Fin rankCount) :
    (Decimal.read? (finite negative k).text.toList).map ofDecimal =
      some (finite negative k) := by
  obtain ⟨digits, whole, fraction, htext, hwritten, hvalue⟩ :=
    exists_positional_text negative k
  rw [htext, hwritten.read?]
  exact congrArg some hvalue

/-- Nothing in the spelling of a number has a case. -/
theorem lowerAscii_text {x : Binary32} (h : x ≠ .nan) :
    Text.lowerAscii x.text = x.text := by
  cases x with
  | finite negative k =>
    obtain ⟨digits, whole, fraction, htext, hwritten, -⟩ :=
      exists_positional_text negative k
    have hsign : Char.toLower '-' = '-' := rfl
    rw [Text.lowerAscii, htext, ← String.toList_inj, String.toList_ofList,
      htext]
    split
    · rw [List.map_cons, hsign, hwritten.map_toLower]
    · exact hwritten.map_toLower
  | infinity negative => cases negative <;> decide
  | nan => exact absurd rfl h

end StyleProbe.Binary32
