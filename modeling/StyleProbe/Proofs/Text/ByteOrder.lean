import Mathlib.Tactic.SplitIfs

/-!
# Byte order

Texts are ordered by the code points of their characters. The bytes of their
UTF-8 form are ordered in the same way: of two characters the one with the
smaller code point has the smaller first byte, or the same bytes up to one
where its own is smaller, and no character's bytes are the start of
another's.

Main statement: `lt_iff_bytes_lt`.
-/

namespace StyleProbe.Text

/-- The bytes of a text in UTF-8. -/
def bytes (s : String) : List UInt8 := s.toUTF8.data.toList

theorem bytes_eq (s : String) :
    bytes s = s.toList.flatMap String.utf8EncodeChar := by
  rw [bytes, String.toUTF8_eq_toByteArray, ← String.utf8Encode_toList,
    List.utf8Encode, List.toList_data_toByteArray]

/-- Two characters decide the order of the bytes, whatever follows them. -/
theorem utf8EncodeChar_append_lt {c d : Char} (h : c < d)
    (s t : List UInt8) :
    String.utf8EncodeChar c ++ s < String.utf8EncodeChar d ++ t := by
  have hlt : c.val.toNat < d.val.toNat := UInt32.lt_iff_toNat_lt.mp h
  have hlast : d.val.toNat < 0x110000 := by
    rcases d.valid with hd | ⟨-, hd⟩
    · exact Nat.lt_trans hd (by decide)
    · exact hd
  have hbyte : ∀ {k : Nat}, k < 256 → (UInt8.ofNat k).toNat = k :=
    UInt8.toNat_ofNat_of_lt'
  -- The bits are digits to the base 64.
  have hsecond : ∀ k : Nat, k / 4096 = k / 64 / 64 := by omega
  have hthird : ∀ k : Nat, k / 262144 = k / 64 / 64 / 64 := by omega
  -- One, two, three or four bytes for each; more of them for the larger.
  simp only [String.utf8EncodeChar]
  generalize c.val.toNat = m at *
  generalize d.val.toNat = n at *
  split_ifs <;>
    simp (disch := omega) only [List.cons_append, List.nil_append,
      List.cons_lt_cons_iff, UInt8.lt_iff_toNat_lt, ← UInt8.toNat_inj, hbyte,
      hsecond, hthird] <;>
    omega

theorem flatMap_utf8EncodeChar_lt {cs ds : List Char} (h : cs < ds) :
    cs.flatMap String.utf8EncodeChar < ds.flatMap String.utf8EncodeChar := by
  induction h with
  | @nil d ds =>
    have hfirst : String.utf8EncodeChar d ≠ [] :=
      String.utf8EncodeChar_ne_nil
    rw [List.flatMap_nil, List.flatMap_cons]
    cases hbytes : String.utf8EncodeChar d with
    | nil => exact absurd hbytes hfirst
    | cons b bs => exact .nil
  | @rel c cs d ds hcd =>
    rw [List.flatMap_cons, List.flatMap_cons]
    exact utf8EncodeChar_append_lt hcd _ _
  | @cons c cs ds _ ih =>
    rw [List.flatMap_cons, List.flatMap_cons]
    exact List.append_left_lt ih

/-- **Texts are ordered as their bytes are.** -/
theorem lt_iff_bytes_lt {s t : String} : s < t ↔ bytes s < bytes t := by
  have hforward : ∀ {s t : String}, s < t → bytes s < bytes t := by
    intro s t h
    rw [bytes_eq, bytes_eq]
    exact flatMap_utf8EncodeChar_lt (String.lt_iff.mp h)
  refine ⟨hforward, fun h => ?_⟩
  by_cases hlt : s < t
  · exact hlt
  by_cases hgt : t < s
  · exact absurd (hforward hgt) (List.lt_asymm h)
  · have heq := String.le_antisymm (String.not_lt.mp hgt) (String.not_lt.mp hlt)
    rw [heq] at h
    exact absurd h (List.lt_irrefl _)

end StyleProbe.Text
