import StyleProbe.Text.Ascii
import StyleProbe.Text.CamelCase

/-!
# Camel case, piece by piece

What camel case makes of the pieces of a name: of a run without hyphens, and
of a hyphen with a word character or with anything else after it. A small
ASCII letter is raised to one capital, which can be lowered again; that is
all that is needed from the tables of letters for names in ASCII.

Main statements: `camelChars_append_of_no_hyphen`, `camelChars_hyphen_word`
and `camelChars_hyphen_other`.
-/

namespace StyleProbe.Text

/-! ## Raising letters -/

theorem exists_ofNat_of_isLower {c : Char} (h : c.isLower = true) :
    ∃ n : Fin 26, c = Char.ofNat (97 + n) := by
  have hrange := isLower_iff_toNat.mp h
  refine ⟨⟨c.toNat - 97, by omega⟩, ?_⟩
  have hnat : 97 + (c.toNat - 97) = c.toNat := by omega
  apply Char.toNat_inj.mp
  simp [hnat]

/-- A small letter is raised to one capital, which is lowered to the small
letter again. -/
theorem raised_of_isLower {c : Char} (h : c.isLower = true) :
    upperChar c = [c.toUpper] ∧ c.toUpper.isUpper = true ∧
      c.toUpper.toLower = c := by
  have hall : ∀ n : Fin 26,
      upperChar (Char.ofNat (97 + n)) = [(Char.ofNat (97 + n)).toUpper] ∧
        (Char.ofNat (97 + n)).toUpper.isUpper = true ∧
        (Char.ofNat (97 + n)).toUpper.toLower = Char.ofNat (97 + n) := by
    decide +kernel
  obtain ⟨n, rfl⟩ := exists_ofNat_of_isLower h
  exact hall n

theorem isWordChar_of_isLower {c : Char} (h : c.isLower = true) :
    isWordChar c = true := by
  apply isWordChar_of_isAlphanum
  change (c.isUpper || c.isLower || c.isDigit) = true
  rw [h, Bool.or_true, Bool.true_or]

/-- No character is raised to a hyphen and itself. -/
theorem upperChar_ne_hyphen_cons (c : Char) : upperChar c ≠ ['-', c] := by
  have hpoints : ∀ entry ∈ uppercaseExpansions,
      (entry.2.map Char.ofNat).head? ≠ some '-' := by decide +kernel
  intro h
  unfold upperChar at h
  split at h
  · rename_i points hlookup
    obtain ⟨before, after, hentries, -⟩ := List.lookup_eq_some_iff.mp hlookup
    have hmem : (c.toNat, points) ∈ uppercaseExpansions := by
      rw [hentries]
      simp
    exact hpoints _ hmem (by rw [h]; rfl)
  · split at h
    · simp at h
    · simp at h

theorem upperChar_ne_nil (c : Char) : upperChar c ≠ [] := by
  have hpoints : ∀ entry ∈ uppercaseExpansions, entry.2 ≠ [] := by
    decide +kernel
  intro h
  unfold upperChar at h
  split at h
  · rename_i points hlookup
    obtain ⟨before, after, hentries, -⟩ := List.lookup_eq_some_iff.mp hlookup
    have hmem : (c.toNat, points) ∈ uppercaseExpansions := by
      rw [hentries]
      simp
    exact hpoints _ hmem (List.map_eq_nil_iff.mp h)
  · split at h
    · simp at h
    · simp at h

theorem ne_hyphen_of_isWordChar {c : Char} (h : isWordChar c = true) :
    c ≠ '-' := by
  rintro rfl
  revert h
  decide +kernel

theorem length_le_capitalizeChars (cs : List Char) :
    cs.length ≤ (capitalizeChars cs).length := by
  cases cs with
  | nil => exact Nat.le_refl 0
  | cons c rest =>
    have hraised := List.length_pos_iff.mpr (upperChar_ne_nil c)
    rw [capitalizeChars, List.length_append, List.length_cons]
    omega

/-! ## Pieces of a name -/

theorem camelChars_cons_of_ne {c : Char} (h : c ≠ '-') (rest : List Char) :
    camelChars (c :: rest) = c :: camelChars rest := by
  rw [camelChars]
  intro d ds hhyphen
  exact absurd hhyphen h

theorem camelChars_append_of_no_hyphen {cs : List Char}
    (h : ∀ c ∈ cs, c ≠ '-') (rest : List Char) :
    camelChars (cs ++ rest) = cs ++ camelChars rest := by
  induction cs with
  | nil => rfl
  | cons c cs ih =>
    rw [List.cons_append, camelChars_cons_of_ne (h c (by simp)),
      ih fun d hd => h d (List.mem_cons_of_mem c hd), List.cons_append]

/-- A hyphen before a word character raises it. -/
theorem camelChars_hyphen_word {c : Char} (h : isWordChar c = true)
    (rest : List Char) :
    camelChars ('-' :: c :: rest) = upperChar c ++ camelChars rest := by
  rw [camelChars, if_pos h]

/-- A hyphen before anything else stays. -/
theorem camelChars_hyphen_other {rest : List Char}
    (h : ∀ c ∈ rest.head?, isWordChar c = false) :
    camelChars ('-' :: rest) = '-' :: camelChars rest := by
  cases rest with
  | nil => rfl
  | cons c rest =>
    have hc : ¬ isWordChar c = true := by simp [h c rfl]
    rw [camelChars, if_neg hc]

end StyleProbe.Text
