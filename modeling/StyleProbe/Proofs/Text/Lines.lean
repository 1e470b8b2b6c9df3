import Mathlib.Data.List.Basic
import StyleProbe.Text.Blank
import StyleProbe.Text.Lines

/-!
# Splitting into lines

Lines that are written with a line feed behind each are split apart again, as
long as none of them has a line feed inside or a carriage return at its end.
Cutting a line to a width leaves it such a line. A text without line feeds
stays one when it is joined to another, trimmed or lowered.

Main statements: `linesOfPieces_flatMap_append` and `IsLine.cutLine`.
-/

namespace StyleProbe.Text

/-! ## Texts without line feeds -/

/-- The text has no line feed. -/
def OneLine (s : String) : Prop := '\n' ∉ s.toList

instance (s : String) : Decidable (OneLine s) :=
  inferInstanceAs (Decidable ('\n' ∉ s.toList))

@[simp] theorem oneLine_append {s t : String} :
    OneLine (s ++ t) ↔ OneLine s ∧ OneLine t := by
  simp [OneLine]

theorem OneLine.trim {s : String} (h : OneLine s) : OneLine (trim s) := by
  intro hmem
  rw [toList_trim] at hmem
  exact h (mem_of_mem_trimBy hmem)

theorem OneLine.lowerAscii {s : String} (h : OneLine s) :
    OneLine (lowerAscii s) := by
  intro hmem
  rw [toList_lowerAscii, List.mem_map] at hmem
  obtain ⟨c, hc, hlower⟩ := hmem
  have hnat := congrArg Char.toNat hlower
  rw [toNat_toLower] at hnat
  have hline : '\n'.toNat = 10 := rfl
  split at hnat
  · omega
  · rw [Char.toNat_inj.mp hnat] at hc
    exact h hc

theorem oneLine_repr (n : Nat) : OneLine n.repr := by
  intro hmem
  rw [Nat.repr, String.toList_ofList] at hmem
  cases Nat.isDigit_of_mem_toDigits (by decide) (by decide) hmem

/-! ## Splitting -/

/-- With a line feed behind it, the text is one line: there is no line feed
inside, and no carriage return that would go with the one behind it. -/
structure IsLine (line : List Char) : Prop where
  line_feed : '\n' ∉ line
  carriage_return : line.getLast? ≠ some '\r'

/-- A line with a text without line feeds in front is a line. -/
theorem IsLine.append {s t : String} (hs : OneLine s) (ht : IsLine t.toList)
    (hsome : t ≠ "") : IsLine (s ++ t).toList where
  line_feed := oneLine_append.mpr ⟨hs, ht.line_feed⟩
  carriage_return := by
    have hchars : t.toList ≠ [] := mt String.toList_eq_nil_iff.mp hsome
    rw [String.toList_append, List.getLast?_append_of_ne_nil _ hchars]
    exact ht.carriage_return

theorem pieces_of_not_mem {cs : List Char} (h : '\n' ∉ cs) :
    pieces cs = [cs] := by
  induction cs with
  | nil => rfl
  | cons c cs ih =>
    have hc : c ≠ '\n' := by
      rintro rfl
      exact h List.mem_cons_self
    have hcs := ih fun hmem => h (List.mem_cons_of_mem c hmem)
    simp [pieces, hcs]

theorem pieces_append_line_feed {line : List Char} (h : '\n' ∉ line)
    (rest : List Char) :
    pieces (line ++ '\n' :: rest) = line :: pieces rest := by
  induction line with
  | nil => rfl
  | cons c line ih =>
    have hc : c ≠ '\n' := by
      rintro rfl
      exact h List.mem_cons_self
    have hline := ih fun hmem => h (List.mem_cons_of_mem c hmem)
    simp [pieces, hline]

theorem pieces_ne_nil (cs : List Char) : pieces cs ≠ [] := by
  fun_cases pieces cs <;> simp

theorem dropReturn_eq_self {line : List Char}
    (h : line.getLast? ≠ some '\r') : dropReturn line = line := by
  unfold dropReturn
  split
  · rename_i rest hreverse
    rw [List.getLast?_eq_head?_reverse, hreverse] at h
    exact absurd rfl h
  · rfl

theorem linesOfPieces_append {line : List Char} (h : IsLine line)
    (rest : List Char) :
    linesOfPieces (pieces (line ++ '\n' :: rest)) =
      line :: linesOfPieces (pieces rest) := by
  rw [pieces_append_line_feed h.line_feed]
  cases hrest : pieces rest with
  | nil => exact absurd hrest (pieces_ne_nil rest)
  | cons first more =>
    rw [linesOfPieces, dropReturn_eq_self h.carriage_return]
    simp

/-- **Lines that are written one behind the other are split apart again.** What
stands behind the last line feed is a line if there is something. -/
theorem linesOfPieces_flatMap_append {ls : List (List Char)}
    (h : ∀ line ∈ ls, IsLine line) {last : List Char} (hlast : '\n' ∉ last) :
    linesOfPieces (pieces (ls.flatMap (· ++ ['\n']) ++ last)) =
      ls ++ if last.isEmpty then [] else [last] := by
  induction ls with
  | nil =>
    rw [List.flatMap_nil, List.nil_append, pieces_of_not_mem hlast]
    rfl
  | cons line ls ih =>
    have hsplit : (line :: ls).flatMap (· ++ ['\n']) ++ last =
        line ++ '\n' :: (ls.flatMap (· ++ ['\n']) ++ last) := by
      simp
    rw [hsplit, linesOfPieces_append (h line List.mem_cons_self),
      ih fun l hl => h l (List.mem_cons_of_mem line hl), List.cons_append]

/-! ## Cutting -/

/-- A width of at least three cuts every line that is longer. -/
theorem cutLine_eq {width : Nat} (hwidth : 3 ≤ width) (line : List Char) :
    cutLine width line =
      if line.length ≤ width then line
      else line.take (width - 3) ++ ['.', '.', '.'] := by
  have hwide : ¬ width < 3 := by omega
  simp [cutLine, hwide]

/-- A line that is cut is still one. -/
theorem IsLine.cutLine {line : List Char} (h : IsLine line) (width : Nat) :
    IsLine (cutLine width line) := by
  unfold Text.cutLine
  split
  · exact h
  · have htaken : '\n' ∉ line.take (width - 3) := fun hmem =>
      h.line_feed (List.mem_of_mem_take hmem)
    exact ⟨by simp [htaken], by simp [List.getLast?_append]⟩

end StyleProbe.Text
