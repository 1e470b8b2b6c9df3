import StyleProbe.Text.Ascii
import StyleProbe.Trim

/-!
# Blank characters

The characters with the Unicode property `White_Space`. Names typed by a
user, names in a profile and selectors are trimmed of them. A style sheet's
own whitespace is a smaller set, which the tokenizer states for itself.

Main statement: `trim_trim`.
-/

namespace StyleProbe.Text

/-- The property `White_Space`: 25 characters, in order. -/
def isBlank (c : Char) : Bool :=
  let n := c.toNat
  (0x09 ≤ n && n ≤ 0x0D) || n == 0x20 || n == 0x85 || n == 0xA0 ||
    n == 0x1680 || (0x2000 ≤ n && n ≤ 0x200A) || n == 0x2028 ||
    n == 0x2029 || n == 0x202F || n == 0x205F || n == 0x3000

/-- `s` without the blanks at its two ends. -/
def trim (s : String) : String :=
  String.ofList (trimBy isBlank s.toList)

theorem isBlank_toLower (c : Char) : isBlank c.toLower = isBlank c := by
  unfold isBlank
  rw [toNat_toLower]
  split
  · rename_i h
    rw [Bool.eq_iff_iff]
    simp
    omega
  · rfl

@[simp] theorem toList_trim (s : String) :
    (trim s).toList = trimBy isBlank s.toList := by
  simp [trim]

/-- A second trimming changes nothing. -/
theorem trim_trim (s : String) : trim (trim s) = trim s := by
  simp [trim, trimBy_trimBy]

theorem trim_lowerAscii (s : String) :
    trim (lowerAscii s) = lowerAscii (trim s) := by
  simp [trim, lowerAscii, trimBy_map isBlank_toLower]

theorem trim_eq_empty_iff {s : String} :
    trim s = "" ↔ ∀ c ∈ s.toList, isBlank c = true := by
  rw [← trimBy_eq_nil_iff, ← toList_trim, ← String.toList_inj]
  rfl

end StyleProbe.Text
