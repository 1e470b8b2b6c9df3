import StyleProbe.Decimal
import StyleProbe.Proofs.Text.SmallLetters

/-!
# How decimals are written

A positional spelling is a run of digits and, if there is a fraction, a point
and the digits of the fraction. Its two runs of digits determine the number,
so reading a spelling gives back what was written.

Main statements: `exists_positional_pointed` and `Positional.read?`.
-/

-- Powers are the core library's own, whatever else is imported.
attribute [instance (high), default_instance high] instPowNat

namespace StyleProbe

/-! ## Digits -/

namespace Text

theorem decimalNumber_eq (digits : List Char) :
    decimalNumber digits = Nat.ofDigitChars 10 digits 0 := rfl

theorem decimalNumber_append (xs ys : List Char) :
    decimalNumber (xs ++ ys) =
      decimalNumber xs * 10 ^ ys.length + decimalNumber ys := by
  rw [decimalNumber_eq, Nat.ofDigitChars_append,
    Nat.ofDigitChars_eq_ofDigitChars_zero, Nat.mul_comm]
  rfl

theorem decimalNumber_zeros (count : Nat) :
    decimalNumber (List.replicate count '0') = 0 := by
  rw [decimalNumber_eq, Nat.ofDigitChars_replicate_zero, Nat.mul_zero]

theorem decimalNumber_toDigits (n : Nat) :
    decimalNumber (Nat.toDigits 10 n) = n :=
  Nat.ofDigitChars_toDigits (by decide) (by decide)

end Text

namespace Decimal

open Text (decimalNumber decimalNumber_append decimalNumber_zeros
  decimalNumber_toDigits)

theorem pow_le_of_lt_digitCount {n places : Nat} (hplaces : 0 < places)
    (h : places < digitCount n) : 10 ^ places ≤ n := by
  apply Nat.le_of_not_lt
  intro hlt
  have hle : digitCount n ≤ places :=
    (Nat.length_toDigits_le_iff (by decide) hplaces).mpr hlt
  omega

/-- The zeros that are dropped from an end were there. -/
theorem exists_eq_dropTrailingZeros_append (digits : List Char) :
    ∃ count, digits =
      dropTrailingZeros digits ++ List.replicate count '0' := by
  obtain ⟨count, hzeros⟩ : ∃ count,
      digits.reverse.takeWhile (· == '0') = List.replicate count '0' := by
    refine ⟨_, List.eq_replicate_iff.mpr ⟨rfl, fun c hc => ?_⟩⟩
    simpa using List.all_eq_true.mp List.all_takeWhile c hc
  refine ⟨count, ?_⟩
  calc digits
      = (digits.reverse.takeWhile (· == '0') ++
          digits.reverse.dropWhile (· == '0')).reverse := by
        rw [List.takeWhile_append_dropWhile, List.reverse_reverse]
    _ = dropTrailingZeros digits ++ List.replicate count '0' := by
        rw [List.reverse_append, hzeros, List.reverse_replicate]
        rfl

theorem decimalNumber_dropTrailingZeros (front digits : List Char) :
    decimalNumber (front ++ dropTrailingZeros digits) *
        10 ^ (digits.length - (dropTrailingZeros digits).length) =
      decimalNumber (front ++ digits) := by
  obtain ⟨count, hcount⟩ := exists_eq_dropTrailingZeros_append digits
  have hdropped : digits.length - (dropTrailingZeros digits).length =
      count := by
    have := congrArg List.length hcount
    rw [List.length_append, List.length_replicate] at this
    omega
  rw [hdropped]
  calc decimalNumber (front ++ dropTrailingZeros digits) * 10 ^ count
      = decimalNumber ((front ++ dropTrailingZeros digits) ++
          List.replicate count '0') := by
        rw [decimalNumber_append _ (List.replicate count '0'),
          decimalNumber_zeros, List.length_replicate, Nat.add_zero]
    _ = decimalNumber (front ++ digits) := by
        rw [List.append_assoc, ← hcount]

section Padded

variable {n places : Nat} {padded : List Char}
  (h : List.replicate (places + 1 - (Nat.toDigits 10 n).length) '0' ++
    Nat.toDigits 10 n = padded)

include h

theorem lt_length_padded : places < padded.length := by
  rw [← h, List.length_append, List.length_replicate]
  omega

theorem isDigit_of_mem_padded {c : Char} (hc : c ∈ padded) :
    c.isDigit = true := by
  rw [← h] at hc
  rcases List.mem_append.mp hc with hc | hc
  · rw [(List.mem_replicate.mp hc).2]
    rfl
  · exact Nat.isDigit_of_mem_toDigits (by decide) (by decide) hc

theorem decimalNumber_padded : decimalNumber padded = n := by
  rw [← h, decimalNumber_append, decimalNumber_zeros, decimalNumber_toDigits,
    Nat.zero_mul, Nat.zero_add]

end Padded

/-! ## Positional spellings -/

/-- The text is written with the digits `whole`, and with a point and the
digits `fraction` if there are any. -/
structure Positional (text whole fraction : List Char) : Prop where
  written : text = whole ++ if fraction = [] then [] else '.' :: fraction
  whole_ne : whole ≠ []
  whole_digits : ∀ c ∈ whole, c.isDigit = true
  fraction_digits : ∀ c ∈ fraction, c.isDigit = true

/-- **The digits of a number with a point put in** are its spelling, and
together they are the number again, up to the zeros that were dropped. -/
theorem exists_positional_pointed (n places : Nat) :
    ∃ whole fraction, Positional (pointed n places) whole fraction ∧
      fraction.length ≤ places ∧
      decimalNumber (whole ++ fraction) * 10 ^ (places - fraction.length) =
        n := by
  generalize hpadded : List.replicate
    (places + 1 - (Nat.toDigits 10 n).length) '0' ++ Nat.toDigits 10 n =
      padded
  have hlength := lt_length_padded hpadded
  have hcut := List.take_append_drop (padded.length - places) padded
  generalize hwhole : padded.take (padded.length - places) = whole at hcut
  generalize hrest : padded.drop (padded.length - places) = rest at hcut
  have hwholeLength : whole.length = padded.length - places := by
    rw [← hwhole, List.length_take]
    omega
  have hrestLength : rest.length = places := by
    rw [← hrest, List.length_drop]
    omega
  obtain ⟨count, hcount⟩ := exists_eq_dropTrailingZeros_append rest
  refine ⟨whole, dropTrailingZeros rest, ⟨?_, ?_, ?_, ?_⟩, ?_, ?_⟩
  · unfold pointed
    dsimp only
    rw [hpadded, hwhole, hrest]
    split
    · rename_i hnil
      rw [if_pos hnil, List.append_nil]
    · rename_i hne
      rw [if_neg hne]
  · rintro rfl
    rw [List.length_nil] at hwholeLength
    omega
  · intro c hc
    refine isDigit_of_mem_padded hpadded ?_
    rw [← hcut]
    exact List.mem_append_left _ hc
  · intro c hc
    refine isDigit_of_mem_padded hpadded ?_
    rw [← hcut, hcount]
    exact List.mem_append_right _ (List.mem_append_left _ hc)
  · have := congrArg List.length hcount
    rw [List.length_append] at this
    omega
  · rw [← hrestLength, decimalNumber_dropTrailingZeros, hcut,
      decimalNumber_padded hpadded]

/-- Digits are split off up to a character that is none. -/
theorem splitDigits_append {digits rest : List Char}
    (hdigits : ∀ c ∈ digits, c.isDigit = true)
    (hrest : ∀ c ∈ rest.head?, c.isDigit = false) :
    splitDigits (digits ++ rest) = (digits, rest) := by
  have hstop : rest.takeWhile Char.isDigit = [] ∧
      rest.dropWhile Char.isDigit = rest := by
    cases rest with
    | nil => exact ⟨rfl, rfl⟩
    | cons c rest => simp [hrest c (by simp)]
  rw [splitDigits, List.takeWhile_append_of_pos hdigits,
    List.dropWhile_append_of_pos hdigits, hstop.1, hstop.2, List.append_nil]

namespace Positional

variable {text whole fraction : List Char}

theorem exists_cons (h : Positional text whole fraction) :
    ∃ c rest, text = c :: rest ∧ c.isDigit = true := by
  cases hwhole : whole with
  | nil => exact absurd hwhole h.whole_ne
  | cons c rest =>
    refine ⟨c, _, by rw [h.written, hwhole, List.cons_append], ?_⟩
    exact h.whole_digits c (by simp [hwhole])

theorem map_toLower (h : Positional text whole fraction) :
    text.map Char.toLower = text := by
  have hpoint : Char.toLower '.' = '.' := rfl
  rw [h.written, List.map_append,
    Text.map_toLower_of_isDigit h.whole_digits]
  split
  · rfl
  · rw [List.map_cons, hpoint, Text.map_toLower_of_isDigit h.fraction_digits]

/-- **A spelling is read back** digit for digit. -/
theorem read? (h : Positional text whole fraction) (negative : Bool) :
    Decimal.read? (if negative then '-' :: text else text) =
      some ⟨negative, decimalNumber (whole ++ fraction),
        -fraction.length⟩ := by
  obtain ⟨c, rest, htext, hc⟩ := h.exists_cons
  have hsign : splitSign (if negative then '-' :: text else text) =
      (negative, text) := by
    cases negative with
    | true => rfl
    | false =>
      rw [htext]
      unfold splitSign
      split
      · rename_i heq
        cases heq
        cases hc
      · rename_i heq
        cases heq
        cases hc
      · rfl
  have hdigits : splitDigits text =
      (whole, if fraction = [] then [] else '.' :: fraction) := by
    rw [h.written]
    apply splitDigits_append h.whole_digits
    split
    · simp
    · simp
  have hfraction : splitFraction
      (if fraction = [] then [] else '.' :: fraction) = (fraction, []) := by
    split
    · rename_i hnil
      rw [hnil]
      rfl
    · have hnone : ∀ c ∈ ([] : List Char).head?, c.isDigit = false := by simp
      have := splitDigits_append h.fraction_digits hnone
      rwa [List.append_nil] at this
  unfold Decimal.read?
  rw [hsign]
  dsimp only
  rw [hdigits]
  dsimp only
  rw [hfraction]
  dsimp only
  rw [if_neg (by simp [h.whole_ne])]
  simp [readExponent?]

end Positional

end Decimal

end StyleProbe
