import StyleProbe.Css.Token
import StyleProbe.Trim

/-!
# Component values

Tokens grouped by their brackets: a function or a block holds the component
values between its opening token and its closing bracket. `flatten` forgets
the grouping; `serialize` writes a list of component values as text, less
the whitespace at its ends and at the ends of every function and block.

Main statements: `flattenAll_append` and `mem_flattenAll`.
-/

namespace StyleProbe.Css

/-- A token on its own, or a bracketed list of component values. -/
inductive Component where
  | token (token : Token)
  | function (name : String) (body : List Component)
  | block (bracket : Bracket) (body : List Component)

namespace Component

def isWhitespace : Component → Bool
  | token .whitespace => true
  | _ => false

/-- The component values without the whitespace at the two ends. -/
def trim (values : List Component) : List Component :=
  trimBy isWhitespace values

/-! ## Flattening -/

mutual

/-- The tokens of a component value, with its brackets. -/
def flatten : Component → List Token
  | token t => [t]
  | function name body =>
    .function name :: (flattenAll body ++ [.closing .round])
  | block bracket body =>
    .opening bracket :: (flattenAll body ++ [.closing bracket])

/-- The tokens of a list of component values. -/
def flattenAll : List Component → List Token
  | [] => []
  | value :: values => flatten value ++ flattenAll values

end

theorem flattenAll_append (vs ws : List Component) :
    flattenAll (vs ++ ws) = flattenAll vs ++ flattenAll ws := by
  induction vs with
  | nil => simp [flattenAll]
  | cons v vs ih => simp [flattenAll, ih]

theorem flattenAll_map_token (ts : List Token) :
    flattenAll (ts.map .token) = ts := by
  induction ts with
  | nil => rfl
  | cons t ts ih =>
    rw [List.map_cons, flattenAll, ih]
    rfl

/-- The tokens of a list are those of its component values. -/
theorem mem_flattenAll {t : Token} {values : List Component} :
    t ∈ flattenAll values ↔ ∃ value ∈ values, t ∈ flatten value := by
  induction values with
  | nil => simp [flattenAll]
  | cons value values ih => simp [flattenAll, ih]

/-! ## Writing -/

/-- Joins pieces of text after dropping the gaps at the two ends; a gap in
between is one space. -/
def joinPieces (pieces : List (Option String)) : String :=
  (trimBy Option.isNone pieces).foldr (fun p s => p.getD " " ++ s) ""

mutual

/-- The text of one component value. -/
def text : Component → String
  | token t => t.text
  | function name body => name ++ "(" ++ joinPieces (pieces body) ++ ")"
  | block bracket body =>
    bracket.openingText ++ joinPieces (pieces body) ++ bracket.closingText

/-- The texts of the component values, each whitespace token a gap. -/
def pieces : List Component → List (Option String)
  | [] => []
  | value :: values =>
    (if value.isWhitespace then none else some (text value)) :: pieces values

end

/-- The text of a list of component values: their texts in a row, less the
whitespace at the two ends. -/
def serialize (values : List Component) : String :=
  joinPieces (pieces values)

end Component

end StyleProbe.Css
