/-!
# Lines

Splitting a text into lines and cutting a line to a width.

Main statement: `length_cutLine_le`.
-/

namespace StyleProbe.Text

/-- Splits at line feeds; what follows the last one is the last piece. -/
def pieces : List Char → List (List Char)
  | [] => [[]]
  | '\n' :: rest => [] :: pieces rest
  | c :: rest =>
    match pieces rest with
    | first :: more => (c :: first) :: more
    | [] => [[c]]

/-- A line without the carriage return that ends it. -/
def dropReturn (line : List Char) : List Char :=
  match line.reverse with
  | '\r' :: rest => rest.reverse
  | _ => line

/-- The lines of the pieces: all but the last were ended by a line feed, and
the last is a line only if there is something in it. -/
def linesOfPieces : List (List Char) → List (List Char)
  | [] => []
  | [last] => if last.isEmpty then [] else [last]
  | first :: rest => dropReturn first :: linesOfPieces rest

/-- The lines of a text, without their line ends. -/
def lines (text : String) : List (List Char) :=
  linesOfPieces (pieces text.toList)

/-- A line cut to a width: one that is too long ends in three points. A
width of less than three cuts nothing. -/
def cutLine (width : Nat) (line : List Char) : List Char :=
  if line.length ≤ width ∨ width < 3 then line
  else line.take (width - 3) ++ ['.', '.', '.']

/-- A cut line is no longer than the width. -/
theorem length_cutLine_le {width : Nat} (line : List Char)
    (h : 3 ≤ width) : (cutLine width line).length ≤ width := by
  unfold cutLine
  split
  · omega
  · simp
    omega

/-- `s` with blanks after it up to a width. -/
def padRight (width : Nat) (s : String) : String :=
  s ++ String.ofList (List.replicate (width - s.length) ' ')

end StyleProbe.Text
