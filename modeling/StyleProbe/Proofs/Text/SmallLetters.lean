import StyleProbe.Text.Ascii

/-!
# Lowering and classes of characters

Lowering changes the 26 capitals and nothing else, so what does not tell a
capital from its small letter is kept by lowering any text.

Main statements: `apply_toLower` and `toLower_eq_iff`.
-/

namespace StyleProbe.Text

theorem exists_ofNat_of_isUpper {c : Char} (h : c.isUpper = true) :
    ∃ n : Fin 26, c = Char.ofNat (65 + n) := by
  have hrange := isUpper_iff_toNat.mp h
  refine ⟨⟨c.toNat - 65, by omega⟩, ?_⟩
  have hnat : 65 + (c.toNat - 65) = c.toNat := by omega
  apply Char.toNat_inj.mp
  simp [hnat]

theorem toLower_of_not_isUpper {c : Char} (h : c.isUpper = false) :
    c.toLower = c := by
  apply Char.toNat_inj.mp
  rw [toNat_toLower, if_neg]
  rw [← isUpper_iff_toNat, h]
  exact Bool.false_ne_true

/-- What is the same for each capital and its small letter is the same for
every character and its lowered one. -/
theorem apply_toLower {α : Type _} (f : Char → α)
    (h : ∀ n : Fin 26, f (Char.ofNat (97 + n)) = f (Char.ofNat (65 + n)))
    (c : Char) : f c.toLower = f c := by
  have hlower : ∀ n : Fin 26,
      (Char.ofNat (65 + n)).toLower = Char.ofNat (97 + n) := by decide
  cases hc : c.isUpper with
  | false => rw [toLower_of_not_isUpper hc]
  | true =>
    obtain ⟨n, rfl⟩ := exists_ofNat_of_isUpper hc
    rw [hlower n, h n]

/-- Lowering makes no new character but small letters. -/
theorem toLower_eq_iff {c d : Char} (hd : d.isAlpha = false) :
    c.toLower = d ↔ c = d := by
  obtain ⟨hupper, hlower⟩ : d.isUpper = false ∧ d.isLower = false :=
    Bool.or_eq_false_iff.mp hd
  constructor
  · rintro rfl
    cases hc : c.isUpper with
    | false => exact (toLower_of_not_isUpper hc).symm
    | true =>
      -- A capital would have become a small letter.
      have hrange := isUpper_iff_toNat.mp hc
      have hsmall : c.toLower.isLower = true := by
        rw [isLower_iff_toNat, toNat_toLower, if_pos hrange]
        omega
      rw [hsmall] at hlower
      cases hlower
  · rintro rfl
    exact toLower_of_not_isUpper hupper

theorem toLower_ne {c d : Char} (hd : d.isAlpha = false) (h : c ≠ d) :
    c.toLower ≠ d :=
  fun heq => h ((toLower_eq_iff hd).mp heq)

theorem isDigit_toLower (c : Char) : c.toLower.isDigit = c.isDigit :=
  apply_toLower Char.isDigit (by decide) c

theorem map_toLower_of_isDigit {digits : List Char}
    (h : ∀ c ∈ digits, c.isDigit = true) :
    digits.map Char.toLower = digits := by
  have hself : ∀ c ∈ digits, c.toLower = id c := by
    intro c hc
    apply toLower_of_not_isUpper
    have hdigit := Char.isDigit_iff_toNat.mp (h c hc)
    have hnine : '9'.toNat = 57 := rfl
    rw [← Bool.not_eq_true, isUpper_iff_toNat]
    omega
  rw [List.map_congr_left hself, List.map_id]

end StyleProbe.Text
