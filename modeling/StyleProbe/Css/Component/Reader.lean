import StyleProbe.Css.Component
import StyleProbe.Css.Token.Lexer

/-!
# Reading component values

Groups tokens by their brackets. The reader never gives up: the end of the
input closes everything that is still open, and a closing bracket that
nothing opened is kept as a token. It notes the first fault, and a strict
caller refuses a reading with a fault where a lenient caller takes it as it
is.

The functions and blocks that are open form a stack of frames, so reading is
one pass over the tokens.

Main statement: `length_rest_read` (the rest is no longer than the input).
-/

namespace StyleProbe.Css

namespace Component

/-- What opened a function or a block. -/
inductive Opener where
  | function (name : String)
  | block (bracket : Bracket)
deriving DecidableEq

namespace Opener

/-- What the token opens, if it opens anything. -/
def ofToken? : Token → Option Opener
  | .function name => some (.function name)
  | .opening bracket => some (.block bracket)
  | _ => none

/-- The bracket that closes it again. -/
def bracket : Opener → Bracket
  | function _ => .round
  | block b => b

/-- The function or block with the given contents. -/
def close : Opener → List Component → Component
  | function name, body => .function name body
  | block b, body => .block b body

end Opener

/-- A function or block that is still open, with the component values that
stand before it in the list it belongs to, latest first. -/
structure Frame where
  opener : Opener
  before : List Component

/-- What came of reading: the component values, the tokens that were left,
and the first fault. -/
structure Reading where
  values : List Component
  rest : List Token
  fault : Option Error

/-- The fault of meeting the token where it does not close anything. -/
def strayFault? : Token → Option Error
  | .closing bracket => some (.unbalanced bracket)
  | _ => none

/-- Closes every open frame; `done` is the innermost list, latest first. -/
def closeAll : List Frame → List Component → List Component
  | [], done => done.reverse
  | frame :: frames, done =>
    closeAll frames (frame.opener.close done.reverse :: frame.before)

/-- What has to be closed next: the innermost frame, or the whole list. -/
def expected? (terminator : Option Terminator) :
    List Frame → Option Terminator
  | [] => terminator
  | frame :: _ => some (.bracket frame.opener.bracket)

/-- Reads on with the given frames open, `done` read in the innermost one,
latest first, and `fault` met so far. -/
def readFrom (terminator : Option Terminator) :
    List Frame → List Component → Option Error → List Token → Reading
  | frames, done, fault, [] =>
    { values := closeAll frames done
      rest := []
      fault := fault.or ((expected? terminator frames).map .unclosed) }
  | frames, done, fault, t :: ts =>
    if (expected? terminator frames).map Terminator.token = some t then
      match frames with
      | [] => { values := done.reverse, rest := ts, fault }
      | frame :: frames =>
        readFrom terminator frames
          (frame.opener.close done.reverse :: frame.before) fault ts
    else
      match Opener.ofToken? t with
      | some opener =>
        readFrom terminator (⟨opener, done⟩ :: frames) [] fault ts
      | none =>
        readFrom terminator frames (.token t :: done)
          (fault.or (strayFault? t)) ts

/-- Reads component values up to the terminator, which is taken too, or to
the end of the input. -/
def read (terminator : Option Terminator) (tokens : List Token) : Reading :=
  readFrom terminator [] [] none tokens

/-- Reads the one component value that starts with `first`. -/
def readOne (first : Token) (tokens : List Token) : Reading :=
  match Opener.ofToken? first with
  | some opener =>
    let body := read (some (.bracket opener.bracket)) tokens
    { body with values := [opener.close body.values] }
  | none =>
    { values := [.token first], rest := tokens, fault := strayFault? first }

/-- The reading, if it has no fault. -/
def Reading.strict (reading : Reading) : Except Error Reading :=
  match reading.fault with
  | none => .ok reading
  | some e => .error e

/-- The component values of a declaration value, trimmed. Its brackets have
to match. -/
def parseValue (value : String) : Except Error (List Component) := do
  let tokens ← tokenize value
  let reading ← (read none tokens).strict
  return trim reading.values

/-! ## What is left over -/

theorem length_rest_readFrom (terminator : Option Terminator)
    (frames : List Frame) (done : List Component) (fault : Option Error)
    (tokens : List Token) :
    (readFrom terminator frames done fault tokens).rest.length
      ≤ tokens.length := by
  fun_induction readFrom terminator frames done fault tokens with
  | case1 => simp
  | case2 => simp
  | case3 _ _ _ _ _ _ _ ih => exact Nat.le_succ_of_le ih
  | case4 _ _ _ _ _ _ _ _ ih => exact Nat.le_succ_of_le ih
  | case5 _ _ _ _ _ _ _ ih => exact Nat.le_succ_of_le ih

/-- The rest is no longer than the input. -/
theorem length_rest_read (terminator : Option Terminator)
    (tokens : List Token) :
    (read terminator tokens).rest.length ≤ tokens.length :=
  length_rest_readFrom ..

end Component

end StyleProbe.Css
