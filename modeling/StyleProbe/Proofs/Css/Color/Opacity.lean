import StyleProbe.Css.Color
import StyleProbe.Proofs.Binary32.WholeNumber

/-!
# Opacities

An opacity is moved between zero and one, multiplied by a thousand, rounded to
a whole number and divided by a thousand, with a rounding in single precision
after each step. None of these roundings takes a number of thousandths away
from itself: the quotient is near enough to the thousandths that the product
is near enough to their number. So an opacity that was rounded once is not
moved, nor rounded to something else, when it is read again.

Main statements: `thousandths_thousandthRank`, `roundAlpha_roundAlpha` and
`settled_of_parse`.
-/

-- Powers are the core library's own, whatever else is imported.
attribute [instance (high), default_instance high] instPowNat

namespace StyleProbe.Css.Color

open Binary32 (nearestRank ofQuotient one quanta)
open Component (flatten)

/-! ## From zero to one -/

/-- A number from zero to one; a negative zero is one of them. -/
structure InUnit (x : Binary32) : Prop where
  ne_nan : x ≠ .nan
  not_below : x.lt .zero = false
  not_above : (Binary32.ofNat 1).lt x = false

theorem exists_one :
    ∃ k : Fin rankCount, Binary32.ofNat 1 = .finite false k ∧
      quanta k = one ∧ k.val ≠ 0 := by
  obtain ⟨k, hnumber, hk, hne⟩ :=
    Binary32.exists_ofNat_pos (n := 1) (by decide) (by decide)
  exact ⟨k, hnumber, by rw [hk, Nat.one_mul], hne⟩

theorem inUnit_finite_iff {negative : Bool} {k : Fin rankCount} :
    InUnit (.finite negative k) ↔
      quanta k ≤ one ∧ (negative = true → k.val = 0) := by
  obtain ⟨o, hone, ho, -⟩ := exists_one
  have hrank : quanta k ≤ one ↔ (k : Nat) ≤ o := by
    rw [← ho]
    exact Binary32.quanta_strictMono.le_iff_le
  have hbelow : Binary32.lt (.finite negative k) .zero = false ↔
      (negative = true → k.val = 0) := by
    cases negative <;> simp [Binary32.lt, Binary32.place?, Binary32.zero]
  have habove : (Binary32.ofNat 1).lt (.finite negative k) = false ↔
      (negative = false → (k : Nat) ≤ o) := by
    rw [hone]
    cases negative <;> simp [Binary32.lt, Binary32.place?]
  rw [hrank]
  constructor
  · intro h
    have hsign := hbelow.mp h.not_below
    have hsize := habove.mp h.not_above
    refine ⟨?_, hsign⟩
    cases negative with
    | false => exact hsize rfl
    | true =>
      rw [hsign rfl]
      exact Nat.zero_le o
  · rintro ⟨hsize, hsign⟩
    exact ⟨by simp, hbelow.mpr hsign, habove.mpr fun _ => hsize⟩

theorem InUnit.exists_finite {x : Binary32} (h : InUnit x) :
    ∃ negative k, x = .finite negative k ∧ quanta k ≤ one ∧
      (negative = true → k.val = 0) := by
  cases x with
  | finite negative k => exact ⟨negative, k, rfl, inUnit_finite_iff.mp h⟩
  | infinity negative =>
    cases negative with
    | false =>
      obtain ⟨o, hone, -⟩ := exists_one
      have habove : (Binary32.ofNat 1).lt (.infinity false) = true := by
        rw [hone]
        simp [Binary32.lt, Binary32.place?]
      exact absurd h.not_above (by simp [habove])
    | true =>
      have hbelow : Binary32.lt (.infinity true) .zero = true := by decide
      exact absurd h.not_below (by simp [hbelow])
  | nan => exact absurd rfl h.ne_nan

theorem inUnit_zero : InUnit .zero :=
  inUnit_finite_iff.mpr ⟨by decide, fun _ => rfl⟩

theorem inUnit_one : InUnit (.ofNat 1) := by
  obtain ⟨o, hone, ho, -⟩ := exists_one
  rw [hone]
  exact inUnit_finite_iff.mpr ⟨Nat.le_of_eq ho, fun h => by cases h⟩

theorem InUnit.clamp {x : Binary32} (h : InUnit x) :
    x.clamp .zero (.ofNat 1) = x :=
  Binary32.clamp_of_not_lt h.not_below h.not_above

theorem inUnit_clamp {x : Binary32} (h : x ≠ .nan) :
    InUnit (x.clamp .zero (.ofNat 1)) := by
  unfold Binary32.clamp
  split
  · exact inUnit_zero
  · rename_i hbelow
    split
    · exact inUnit_one
    · rename_i habove
      exact ⟨h, Bool.eq_false_iff.mpr hbelow, Bool.eq_false_iff.mpr habove⟩

theorem InUnit.eq_one {x : Binary32} (h : InUnit x)
    (hle : (Binary32.ofNat 1).le x = true) : x = .ofNat 1 := by
  obtain ⟨o, hone, ho, hpositive⟩ := exists_one
  obtain ⟨negative, k, rfl, hk, -⟩ := h.exists_finite
  have hrank : (k : Nat) ≤ o := by
    rw [← ho] at hk
    exact Binary32.quanta_strictMono.le_iff_le.mp hk
  rw [hone] at hle ⊢
  simp only [Binary32.le, Binary32.place?, decide_eq_true_eq] at hle
  cases negative with
  | false =>
    simp only [Bool.false_eq_true, if_false, Int.ofNat_le] at hle
    rw [Fin.ext (Nat.le_antisymm hrank hle)]
  | true =>
    simp only [Bool.false_eq_true, if_false, if_true] at hle
    omega

/-! ## Thousandths -/

/-- The number of thousandths that the magnitude of rank `k` is rounded
to. -/
def thousandths (k : Nat) : Nat :=
  (quanta (nearestRank (quanta k * (1000 * one)) one) + one / 2) / one

/-- The rank that `m` thousandths are rounded to. -/
def thousandthRank (m : Nat) : Nat :=
  nearestRank (m * one * one) (1000 * one)

theorem quanta_product_le {k : Nat} (hk : quanta k ≤ one) :
    quanta (nearestRank (quanta k * (1000 * one)) one) ≤ 1000 * one := by
  apply Binary32.quanta_nearestRank_le (m := 1000) (e := 149) (by decide)
    (by decide)
  calc quanta k * (1000 * one) ≤ one * (1000 * one) :=
        Nat.mul_le_mul_right _ hk
    _ = 1000 * one * one := Nat.mul_comm ..

theorem thousandths_le {k : Nat} (hk : quanta k ≤ one) :
    thousandths k ≤ 1000 := by
  have hproduct := quanta_product_le hk
  have hhalf : one / 2 < one := by decide
  apply Nat.le_of_lt_succ
  apply Nat.div_lt_of_lt_mul
  rw [Nat.mul_succ, Nat.mul_comm one 1000]
  omega

/-- A part of something is rounded to one at most. -/
theorem quanta_quotient_le {m n : Nat} (hn : 0 < n) (hm : m ≤ n) :
    quanta (nearestRank (m * one * one) (n * one)) ≤ one := by
  have hone : quanta (nearestRank (m * one * one) (n * one)) ≤ 1 * 2 ^ 149 := by
    apply Binary32.quanta_nearestRank_le (Nat.mul_pos hn (by decide)) (by decide)
    calc m * one * one ≤ n * one * one :=
          Nat.mul_le_mul_right _ (Nat.mul_le_mul_right _ hm)
      _ = one * (n * one) := Nat.mul_comm ..
      _ = 1 * 2 ^ 149 * (n * one) := by rw [Nat.one_mul, one]
  rwa [Nat.one_mul] at hone

theorem quanta_thousandthRank_le {m : Nat} (hm : m ≤ 1000) :
    quanta (thousandthRank m) ≤ one :=
  quanta_quotient_le (by decide) hm

section Near

variable {m : Nat} (hm : m ≤ 1000)

include hm

/-- The magnitude of `m` thousandths is within a quarter of a thousandth of
them. -/
theorem thousandthRank_near :
    (4 * m - 1) * 2 ^ 147 ≤ quanta (thousandthRank m) * 1000 ∧
      quanta (thousandthRank m) * 1000 ≤ (4 * m + 1) * 2 ^ 147 := by
  -- The neighbouring multiples of `2 ^ (-12)` are magnitudes.
  obtain ⟨c, hbelow, habove⟩ :
      ∃ c, c * 125 ≤ m * 512 ∧ m * 512 ≤ (c + 1) * 125 :=
    ⟨m * 512 / 125, by omega, by omega⟩
  have hbits : c ≤ 2 ^ 24 ∧ c + 1 ≤ 2 ^ 24 := by omega
  have hone : one = 512 * 2 ^ 140 := by decide
  have hquarter : 2 ^ 147 = 128 * 2 ^ 140 := by decide
  have hthousand : 2 ^ 137 * 1000 = 125 * 2 ^ 140 := by decide
  have hscale : ∀ n, n * 2 ^ 137 * 1000 = n * 125 * 2 ^ 140 := fun n => by
    rw [Nat.mul_assoc, hthousand, Nat.mul_assoc]
  have hvalue : m * one = m * 512 * 2 ^ 140 := by rw [hone, Nat.mul_assoc]
  have hlow : c * 2 ^ 137 ≤ quanta (thousandthRank m) := by
    apply Binary32.le_quanta_nearestRank (by decide) hbits.1
    rw [← Nat.mul_assoc, hscale, hvalue]
    exact Nat.mul_le_mul_right one (Nat.mul_le_mul_right _ hbelow)
  have hhigh : quanta (thousandthRank m) ≤ (c + 1) * 2 ^ 137 := by
    apply Binary32.quanta_nearestRank_le (by decide) hbits.2
    rw [← Nat.mul_assoc, hscale, hvalue]
    exact Nat.mul_le_mul_right one (Nat.mul_le_mul_right _ habove)
  constructor
  · calc (4 * m - 1) * 2 ^ 147 = (4 * m - 1) * 128 * 2 ^ 140 := by
          rw [hquarter, Nat.mul_assoc]
      _ ≤ c * 125 * 2 ^ 140 := Nat.mul_le_mul_right _ (by omega)
      _ = c * 2 ^ 137 * 1000 := (hscale c).symm
      _ ≤ quanta (thousandthRank m) * 1000 := Nat.mul_le_mul_right _ hlow
  · calc quanta (thousandthRank m) * 1000 ≤ (c + 1) * 2 ^ 137 * 1000 :=
          Nat.mul_le_mul_right _ hhigh
      _ = (c + 1) * 125 * 2 ^ 140 := hscale (c + 1)
      _ ≤ (4 * m + 1) * 128 * 2 ^ 140 := Nat.mul_le_mul_right _ (by omega)
      _ = (4 * m + 1) * 2 ^ 147 := by rw [hquarter, Nat.mul_assoc]

theorem thousandths_eq_of_near {k : Nat}
    (hlow : (4 * m - 1) * 2 ^ 147 ≤ quanta k * 1000)
    (hhigh : quanta k * 1000 ≤ (4 * m + 1) * 2 ^ 147) : thousandths k = m := by
  have hbits : 4 * m - 1 ≤ 2 ^ 24 ∧ 4 * m + 1 ≤ 2 ^ 24 := by omega
  have hpos : 0 < one := by decide
  have hproduct : quanta k * (1000 * one) = quanta k * 1000 * one :=
    (Nat.mul_assoc ..).symm
  have hlow' : (4 * m - 1) * 2 ^ 147 ≤
      quanta (nearestRank (quanta k * (1000 * one)) one) := by
    apply Binary32.le_quanta_nearestRank hpos hbits.1
    rw [hproduct]
    exact Nat.mul_le_mul_right one hlow
  have hhigh' : quanta (nearestRank (quanta k * (1000 * one)) one) ≤
      (4 * m + 1) * 2 ^ 147 := by
    apply Binary32.quanta_nearestRank_le hpos hbits.2
    rw [hproduct]
    exact Nat.mul_le_mul_right one hhigh
  have hone : one = 4 * 2 ^ 147 := by decide
  have hquarter : 0 < 2 ^ 147 := by decide
  unfold thousandths
  generalize quanta (nearestRank (quanta k * (1000 * one)) one) = product at *
  rw [hone]
  generalize 2 ^ 147 = quarter at hlow' hhigh' hquarter ⊢
  have hhalf : 4 * quarter / 2 = 2 * quarter := by omega
  have hwidth : (4 * m + 1) * quarter ≤
      (4 * m - 1) * quarter + 2 * quarter := by
    rw [← Nat.add_mul]
    exact Nat.mul_le_mul_right quarter (by omega)
  rw [hhalf]
  apply Nat.div_eq_of_lt_le
  · calc m * (4 * quarter) = 4 * m * quarter := by
          rw [← Nat.mul_assoc, Nat.mul_comm m 4]
      _ ≤ (4 * m + 1) * quarter := Nat.mul_le_mul_right quarter (by omega)
      _ ≤ product + 2 * quarter := by omega
  · calc product + 2 * quarter ≤ (4 * m + 1) * quarter + 2 * quarter := by
          omega
      _ = (4 * m + 3) * quarter := (Nat.add_mul ..).symm
      _ < 4 * (m + 1) * quarter :=
          Nat.mul_lt_mul_of_pos_right (by omega) hquarter
      _ = (m + 1) * (4 * quarter) := by
          rw [← Nat.mul_assoc, Nat.mul_comm (m + 1) 4]

/-- **Thousandths stay what they are**: rounded to a magnitude, multiplied and
rounded again they are as many as before. -/
theorem thousandths_thousandthRank : thousandths (thousandthRank m) = m :=
  have hnear := thousandthRank_near hm
  thousandths_eq_of_near hm hnear.1 hnear.2

end Near

/-! ## Rounding to thousandths -/

/-- A quotient that is not too large is rounded to a finite number. -/
theorem exists_ofQuotient (negative : Bool) (num den : Nat)
    (h : quanta (nearestRank num den) ≤ 2 ^ 24 * one) :
    ∃ k : Fin rankCount, k.val = nearestRank num den ∧
      ofQuotient negative num den = .finite negative k := by
  have hlt := Binary32.lt_rankCount h
  exact ⟨⟨_, hlt⟩, rfl, by rw [ofQuotient, dif_pos hlt]⟩

/-- A magnitude from zero to one is rounded to its thousandths. -/
theorem roundAlpha_finite (negative : Bool) {k : Fin rankCount}
    (hk : quanta k ≤ one) :
    ∃ r : Fin rankCount, r.val = thousandthRank (thousandths k) ∧
      roundAlpha (.finite negative k) = .finite negative r := by
  obtain ⟨t, hthousand, ht, htne⟩ :=
    Binary32.exists_ofNat_pos (n := 1000) (by decide) (by decide)
  have hsign : (negative != false) = negative := Bool.bne_false negative
  have hm := thousandths_le hk
  obtain ⟨p, hp, hproduct⟩ :=
    exists_ofQuotient negative (quanta k * (1000 * one)) one
      (Nat.le_trans (quanta_product_le hk) (by decide))
  obtain ⟨j, hj⟩ : ∃ j, quanta j = thousandths k * one :=
    Binary32.exists_quanta_eq (Nat.le_trans hm (by decide)) 149
  have hwhole : nearestRank (thousandths k * one) 1 = j :=
    Binary32.nearestRank_eq_of_quanta Nat.one_pos (by rw [hj, Nat.mul_one])
  obtain ⟨w, hw, hround⟩ :=
    exists_ofQuotient negative (thousandths k * one) 1 (by
      rw [hwhole, hj]
      exact Nat.mul_le_mul_right one (Nat.le_trans hm (by decide)))
  obtain ⟨r, hr, hquotient⟩ :=
    exists_ofQuotient negative (thousandths k * one * one) (1000 * one)
      (Nat.le_trans (quanta_thousandthRank_le hm) (by decide))
  refine ⟨r, hr, ?_⟩
  have hmul : Binary32.mul (.finite negative k) (.ofNat 1000) =
      .finite negative p := by
    rw [hthousand, Binary32.mul, hsign, ht, hproduct]
  have hnearest : Binary32.round (.finite negative p) =
      .finite negative w := by
    rw [Binary32.round, hp]
    exact hround
  rw [roundAlpha, hmul, hnearest, hthousand, Binary32.div, if_neg htne, hsign,
    ht, hw, hwhole, hj, hquotient]

theorem inUnit_roundAlpha {x : Binary32} (h : InUnit x) :
    InUnit (roundAlpha x) := by
  obtain ⟨negative, k, rfl, hk, hsign⟩ := h.exists_finite
  obtain ⟨r, hr, hround⟩ := roundAlpha_finite negative hk
  rw [hround, inUnit_finite_iff, hr]
  refine ⟨quanta_thousandthRank_le (thousandths_le hk), fun hnegative => ?_⟩
  rw [hsign hnegative]
  decide

/-- **An opacity is rounded once.** -/
theorem roundAlpha_roundAlpha {x : Binary32} (h : InUnit x) :
    roundAlpha (roundAlpha x) = roundAlpha x := by
  obtain ⟨negative, k, rfl, hk, -⟩ := h.exists_finite
  have hm := thousandths_le hk
  obtain ⟨r, hr, hround⟩ := roundAlpha_finite negative hk
  have hsmall : quanta r ≤ one := by
    rw [hr]
    exact quanta_thousandthRank_le hm
  obtain ⟨r', hr', hround'⟩ := roundAlpha_finite negative hsmall
  have hsame : r' = r := by
    apply Fin.ext
    rw [hr', hr, thousandths_thousandthRank hm]
  rw [hround, hround', hsame]

/-! ## Where opacities come from -/

/-- The opacity of a colour with arguments is that of an argument, if one is
given. -/
theorem alpha_of_ofArguments {contents : List Component} {color : Rgba}
    (h : ofArguments contents = .ok (rgba color)) :
    color.alpha = .ofNat 1 ∨
      ∃ a ∈ contents, alphaArgument a = .ok color.alpha := by
  have hmem : ∀ a ∈ contents.filter (fun value => !isSeparator value),
      a ∈ contents := fun a ha => (List.mem_filter.mp ha).1
  unfold ofArguments at h
  split at h
  · rename_i r g b _
    cases hr : channel r <;> cases hg : channel g <;> cases hb : channel b <;>
      simp only [hr, hg, hb, bind, Except.bind, pure, Except.pure] at h <;>
      cases h
    exact .inl rfl
  · rename_i r g b a hfilter
    cases hr : channel r <;> cases hg : channel g <;> cases hb : channel b <;>
      cases ha : alphaArgument a <;>
      simp only [hr, hg, hb, ha, bind, Except.bind, pure, Except.pure] at h <;>
      cases h
    exact .inr ⟨a, hmem a (by rw [hfilter]; simp), ha⟩
  · cases h

/-- The opacity of a colour is fixed by its name, made from a byte or read from
an argument. -/
theorem alpha_of_parse {value : Component} {color : Rgba}
    (h : parse value = .ok (rgba color)) :
    (color.alpha = .zero ∨ color.alpha = .ofNat 1 ∨
        ∃ byte, color.alpha = byteAlpha byte) ∨
      ∃ argument, (∀ t ∈ flatten argument, t ∈ flatten value) ∧
        alphaArgument argument = .ok color.alpha := by
  cases value with
  | token t =>
    cases t with
    | ident name =>
      simp only [parse, ofName] at h
      split at h
      · cases h
      split at h
      · cases h
        exact .inl (.inl rfl)
      split at h
      · cases h
        exact .inl (.inr (.inl rfl))
      · cases h
    | hash digits =>
      simp only [parse, ofHex] at h
      split at h
      · split at h <;> cases h
        all_goals
          dsimp only
          exact .inl (.inr (.inr ⟨_, rfl⟩))
      · cases h
    | _ => cases h
  | function name contents =>
    simp only [parse] at h
    split at h
    · rcases alpha_of_ofArguments h with hfull | ⟨argument, hmem, halpha⟩
      · exact .inl (.inr (.inl hfull))
      · refine .inr ⟨argument, fun t ht => ?_, halpha⟩
        have := Component.mem_flattenAll.mpr ⟨argument, hmem, ht⟩
        simp [flatten, this]
    · cases h
  | block bracket contents => cases h

/-! ## Opacities that stay -/

/-- An opacity that is read again as it is. -/
structure Settled (alpha : Binary32) : Prop where
  inUnit : InUnit alpha
  rounded : roundAlpha alpha = alpha

theorem settled_roundAlpha {x : Binary32} (h : InUnit x) :
    Settled (roundAlpha x) :=
  ⟨inUnit_roundAlpha h, roundAlpha_roundAlpha h⟩

theorem settled_zero : Settled .zero := ⟨inUnit_zero, by decide +kernel⟩

theorem settled_one : Settled (.ofNat 1) := ⟨inUnit_one, by decide +kernel⟩

theorem settled_byteAlpha (byte : Fin 256) : Settled (byteAlpha byte) := by
  apply settled_roundAlpha
  obtain ⟨k, hnumber, hk⟩ := Binary32.exists_ofNat (Binary32.byte_le byte)
  obtain ⟨t, hfull, ht, htne⟩ :=
    Binary32.exists_ofNat_pos (n := 255) (by decide) (by decide)
  have hbyte : byte.val ≤ 255 := by omega
  have hle := quanta_quotient_le (by decide) hbyte
  obtain ⟨r, hr, hquotient⟩ := exists_ofQuotient false _ _
    (Nat.le_trans hle (by decide))
  have hsign : (false != false) = false := rfl
  rw [hnumber, hfull, Binary32.div, if_neg htne, hk, ht, hsign, hquotient,
    inUnit_finite_iff, hr]
  exact ⟨hle, fun h => by cases h⟩

/-- An opacity that is read from an argument stays, if it is a number. -/
theorem settled_of_alphaArgument {argument : Component} {alpha : Binary32}
    (h : alphaArgument argument = .ok alpha) (hnan : alpha ≠ .nan) :
    Settled alpha := by
  have hnone : Binary32.clamp .nan .zero (.ofNat 1) = .nan :=
    Binary32.clamp_of_not_lt rfl (by simp [Binary32.lt, Binary32.place?])
  have hclamp : ∀ x : Binary32, roundAlpha (x.clamp .zero (.ofNat 1)) = alpha →
      Settled alpha := by
    rintro x rfl
    apply settled_roundAlpha
    apply inUnit_clamp
    rintro rfl
    rw [hnone] at hnan
    exact hnan rfl
  unfold alphaArgument at h
  split at h
  · exact hclamp _ (Except.ok.inj h)
  · exact hclamp _ (Except.ok.inj h)
  · cases h

/-- **The opacity of a colour stays**, if it is a number. -/
theorem settled_of_parse {value : Component} {color : Rgba}
    (h : parse value = .ok (rgba color)) (hnan : color.alpha ≠ .nan) :
    Settled color.alpha := by
  rcases alpha_of_parse h with
    (hzero | hone | ⟨byte, hbyte⟩) | ⟨argument, -, halpha⟩
  · rw [hzero]
    exact settled_zero
  · rw [hone]
    exact settled_one
  · rw [hbyte]
    exact settled_byteAlpha byte
  · exact settled_of_alphaArgument halpha hnan

theorem Settled.alphaArgument {alpha : Binary32} (h : Settled alpha) :
    alphaArgument (.token (.number alpha)) = .ok alpha := by
  rw [Color.alphaArgument, h.inUnit.clamp, h.rounded]

end StyleProbe.Css.Color
