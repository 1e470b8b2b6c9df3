import StyleProbe.Css.Token.Lexer

/-!
# Tokenizing with a cursor

The tokens of a text, read by a cursor that moves over its characters: it
looks some characters ahead, moves on over one and moves back over the last
one. It keeps a record of its moves. It can move past the end of the text,
where it finds nothing.

A reader is a function from the cursor to what was read and the cursor behind
it. The readers below are those of one token, and `Runs` is the loop over all
tokens. That loop has no bound of its own: that it ends is a theorem.

Main statement: `left_next_lt` (a move over a character leaves less text, so
every reader ends).
-/

namespace StyleProbe.Css

/-- A move of a cursor: on from a place, with the character that was found
there, or some steps back to a place. -/
inductive Move where
  | next (place : Nat) (found : Option Char)
  | rewind (steps place : Nat)
deriving DecidableEq

/-- A place in a text, and the moves that led there, the last one first. -/
structure Cursor where
  chars : List Char
  place : Nat
  moves : List Move
deriving DecidableEq

namespace Cursor

/-! ## Moves -/

/-- The character at the cursor. -/
def peek (cursor : Cursor) : Option Char := cursor.chars[cursor.place]?

/-- The characters at the cursor and behind it. -/
def peekChunk (cursor : Cursor) (size : Nat) : List (Option Char) :=
  (List.range size).map fun i => cursor.chars[cursor.place + i]?

/-- Moves on by one place, and gives the character that stood there. -/
def next (cursor : Cursor) : Option Char × Cursor :=
  (cursor.peek, {
    cursor with
    place := cursor.place + 1
    moves := .next cursor.place cursor.peek :: cursor.moves })

/-- Moves back, at most to the start. -/
def rewind (cursor : Cursor) (steps : Nat) : Cursor :=
  { cursor with
    place := cursor.place - steps
    moves := .rewind steps (cursor.place - steps) :: cursor.moves }

/-- How many characters are left. -/
def left (cursor : Cursor) : Nat := cursor.chars.length - cursor.place

theorem left_next_le (cursor : Cursor) : cursor.next.2.left ≤ cursor.left := by
  simp only [left, next]
  omega

/-- A move over a character leaves less of the text. -/
theorem left_next_lt {cursor : Cursor} {c : Char}
    (h : cursor.peek = some c) : cursor.next.2.left < cursor.left := by
  obtain ⟨hplace, -⟩ := List.getElem?_eq_some_iff.mp h
  simp only [left, next]
  omega

/-! ## What starts here -/

/-- Whether a name starts with the characters. -/
def startsName : List (Option Char) → Bool
  | some '-' :: some c :: _ => c == '-' || isNameStart c
  | some c :: _ => isNameStart c
  | _ => false

def isSign (c : Char) : Bool := c == '+' || c == '-'

/-- Whether a number starts with the three characters. -/
def startsNumber : List (Option Char) → Bool
  | [first, second, third] =>
    first.any Char.isDigit ||
      first.any (fun c => isSign c || c == '.') && second.any Char.isDigit ||
      first.any isSign && second.any (· == '.') && third.any Char.isDigit
  | _ => false

/-- Whether the two characters are a point and a digit. -/
def startsFraction : List (Option Char) → Bool
  | [first, second] => first.any (· == '.') && second.any Char.isDigit
  | _ => false

def isExponentMark (c : Char) : Bool := c == 'e' || c == 'E'

/-- Whether the two characters start an exponent without a sign. -/
def startsExponent : List (Option Char) → Bool
  | [first, second] => first.any isExponentMark && second.any Char.isDigit
  | _ => false

/-- Whether the three characters start an exponent with a sign. -/
def startsSignedExponent : List (Option Char) → Bool
  | [first, second, third] =>
    first.any isExponentMark && second.any isSign && third.any Char.isDigit
  | _ => false

/-- Whether the two characters are something and what a backslash there
escapes. -/
def escapes : List (Option Char) → Bool
  | [_, some c] => c != '\n'
  | _ => false

/-! ## Readers -/

/-- Reads on to the end of a comment, and tells whether it has one. The
last character may have been an asterisk. -/
def commentEnd (asterisk : Bool) (cursor : Cursor) : Bool × Cursor :=
  match _h : cursor.next.1 with
  | none => (false, cursor.next.2)
  | some c =>
    if c = '*' then cursor.next.2.commentEnd true
    else if c = '/' ∧ asterisk then (true, cursor.next.2)
    else cursor.next.2.commentEnd false
termination_by cursor.left
decreasing_by all_goals exact left_next_lt _h

theorem left_commentEnd_le (asterisk : Bool) (cursor : Cursor) :
    (cursor.commentEnd asterisk).2.left ≤ cursor.left := by
  fun_induction commentEnd asterisk cursor with
  | case1 _ cursor => exact cursor.left_next_le
  | case2 _ cursor _ ih => exact Nat.le_trans ih cursor.left_next_le
  | case3 _ cursor => exact cursor.left_next_le
  | case4 _ cursor _ _ _ _ ih => exact Nat.le_trans ih cursor.left_next_le

/-- Reads the comments at the cursor. -/
def comments (cursor : Cursor) : Except Error Unit × Cursor :=
  if _h : cursor.peekChunk 2 = [some '/', some '*'] then
    let inside := cursor.next.2.next.2.commentEnd false
    if inside.1 then inside.2.comments
    else (.error .unterminatedComment, inside.2)
  else (.ok (), cursor)
termination_by cursor.left
decreasing_by
  have hpeek : cursor.peek = some '/' := by
    simpa [peekChunk, peek, List.range_succ] using
      congrArg (·.head?) _h
  have hinside := left_commentEnd_le false cursor.next.2.next.2
  have hsecond := cursor.next.2.left_next_le
  have hfirst := left_next_lt hpeek
  omega

/-- Reads whitespace. -/
def spaces (cursor : Cursor) : Cursor :=
  if _h : cursor.peek.any isSpace then cursor.next.2.spaces else cursor
termination_by cursor.left
decreasing_by
  obtain ⟨c, hpeek, -⟩ := (Option.any_eq_true ..).mp _h
  exact left_next_lt hpeek

/-- Reads the inside of a string up to its quote, or up to a line feed, which
is left and gives no contents. -/
def string (quote : Char) (cursor : Cursor) : Option (List Char) × Cursor :=
  match _h : cursor.next.1 with
  | none => (some [], cursor.next.2)
  | some c =>
    if c = quote then (some [], cursor.next.2)
    else if c = '\n' then (none, cursor.next.2.rewind 1)
    else if c = '\\' then
      let escaped := cursor.next.2.next
      let more := escaped.2.string quote
      match escaped.1 with
      | none => more
      | some '\n' => more
      | some c => (more.1.map (c :: ·), more.2)
    else
      let more := cursor.next.2.string quote
      (more.1.map (c :: ·), more.2)
termination_by cursor.left
decreasing_by
  · exact Nat.lt_of_le_of_lt cursor.next.2.left_next_le (left_next_lt _h)
  · exact left_next_lt _h

/-- Reads digits. -/
def digits (cursor : Cursor) : List Char × Cursor :=
  match _h : cursor.peek with
  | none => ([], cursor)
  | some c =>
    if c.isDigit then
      let more := cursor.next.2.digits
      (c :: more.1, more.2)
    else ([], cursor)
termination_by cursor.left
decreasing_by exact left_next_lt _h

/-- Reads a sign, if there is one. -/
def sign (cursor : Cursor) : List Char × Cursor :=
  match cursor.peek with
  | none => ([], cursor)
  | some c => if isSign c then ([c], cursor.next.2) else ([], cursor)

/-- Reads a point with digits behind it, if there is one. -/
def fraction (cursor : Cursor) : List Char × Cursor :=
  if startsFraction (cursor.peekChunk 2) then
    let digits := cursor.next.2.digits
    ('.' :: digits.1, digits.2)
  else ([], cursor)

/-- Reads an exponent, if there is one, with a small mark whatever its case
was. -/
def exponent (cursor : Cursor) : List Char × Cursor :=
  if startsExponent (cursor.peekChunk 2) then
    let digits := cursor.next.2.digits
    ('e' :: digits.1, digits.2)
  else if startsSignedExponent (cursor.peekChunk 3) then
    let sign := cursor.next.2.sign
    let digits := sign.2.digits
    ('e' :: sign.1 ++ digits.1, digits.2)
  else ([], cursor)

/-- Reads the text of a number. -/
def number (cursor : Cursor) : List Char × Cursor :=
  let sign := cursor.sign
  let whole := sign.2.digits
  let fraction := whole.2.fraction
  let exponent := fraction.2.exponent
  (sign.1 ++ whole.1 ++ fraction.1 ++ exponent.1, exponent.2)

/-- Reads a name: name characters and escapes. -/
def name (cursor : Cursor) : List Char × Cursor :=
  match _h : cursor.peek with
  | none => ([], cursor)
  | some c =>
    if isNameChar c then
      let more := cursor.next.2.name
      (c :: more.1, more.2)
    else if c = '\\' ∧ escapes (cursor.peekChunk 2) then
      let escaped := cursor.next.2.next
      let more := escaped.2.name
      (escaped.1.toList ++ more.1, more.2)
    else ([], cursor)
termination_by cursor.left
decreasing_by
  · exact left_next_lt _h
  · exact Nat.lt_of_le_of_lt cursor.next.2.left_next_le (left_next_lt _h)

/-! ## One token -/

/-- Reads a string token whose quote was read. -/
def stringToken (quote : Char) (cursor : Cursor) : Token × Cursor :=
  match cursor.string quote with
  | (some contents, after) => (.string (String.ofList contents), after)
  | (none, after) => (.badString, after)

/-- Reads a number with the unit or the percent sign right behind it. -/
def numeric (cursor : Cursor) : Token × Cursor :=
  let number := cursor.number
  let value := numberValue number.1
  if startsName (number.2.peekChunk 2) then
    let unit := number.2.name
    (.dimension value (String.ofList unit.1), unit.2)
  else if number.2.peek = some '%' then
    (.percentage value, number.2.next.2)
  else (.number value, number.2)

/-- Reads a name, or a function if a parenthesis follows it. -/
def nameLike (cursor : Cursor) : Token × Cursor :=
  let name := cursor.name
  if name.2.peek = some '(' then
    (.function (String.ofList name.1), name.2.next.2)
  else (.ident (String.ofList name.1), name.2)

/-- Reads the name behind a number sign, which stands alone if none goes on
there. -/
def hash (cursor : Cursor) : Token × Cursor :=
  if cursor.peek.any isNameChar then
    let name := cursor.name
    (.hash (String.ofList name.1), name.2)
  else (.delim '#', cursor)

/-- Reads the name behind an at sign, which stands alone if none starts
there. -/
def atKeyword (cursor : Cursor) : Token × Cursor :=
  if startsName (cursor.peekChunk 2) then
    let name := cursor.name
    (.atKeyword (String.ofList name.1), name.2)
  else (.delim '@', cursor)

/-- Moves back over a plus sign or a point, and reads the number that starts
there. The character stands alone if none does. -/
def plusOrPoint (c : Char) (cursor : Cursor) : Token × Cursor :=
  let start := cursor.rewind 1
  if startsNumber (start.peekChunk 3) then start.numeric
  else (.delim c, start.next.2)

/-- Moves back over a hyphen, and reads the number or the name that starts
there. The hyphen stands alone if none does. -/
def hyphen (cursor : Cursor) : Token × Cursor :=
  let start := cursor.rewind 1
  if startsNumber (start.peekChunk 3) then start.numeric
  else if startsName (start.peekChunk 2) then start.nameLike
  else (.delim '-', start.next.2)

/-- Reads the rest of the token that starts with `c`, which was read. -/
def tokenFrom (c : Char) (cursor : Cursor) : Token × Cursor :=
  if isSpace c then (.whitespace, cursor.spaces)
  else if c = '"' ∨ c = '\x27' then cursor.stringToken c
  else if c = '#' then cursor.hash
  else
    match punctuation? c with
    | some t => (t, cursor)
    | none =>
      if c = '+' ∨ c = '.' then cursor.plusOrPoint c
      else if c = '-' then cursor.hyphen
      else if c = '@' then cursor.atKeyword
      else if c.isDigit then (cursor.rewind 1).numeric
      else if isNameStart c then (cursor.rewind 1).nameLike
      else (.delim c, cursor)

/-- Reads the comments at the cursor and the token behind them. At the end
of the text there is none. -/
def token (cursor : Cursor) : Except Error (Option Token) × Cursor :=
  match cursor.comments with
  | (.error e, after) => (.error e, after)
  | (.ok (), start) =>
    match start.next.1 with
    | none => (.ok none, start.next.2)
    | some c =>
      let read := start.next.2.tokenFrom c
      (.ok (some read.1), read.2)

/-! ## All tokens -/

/-- Reading one token after the other from the cursor ends with the result,
at the last cursor: there is no token, there is an error, or a token is read
and then the others are. -/
inductive Runs : Cursor → Except Error (List Token) → Cursor → Prop
  | stop {cursor last : Cursor} (none_left : cursor.token = (.ok none, last)) :
    Runs cursor (.ok []) last
  | fail {cursor last : Cursor} {e : Error}
      (failed : cursor.token = (.error e, last)) : Runs cursor (.error e) last
  | more {cursor after last : Cursor} {t : Token}
      {rest : Except Error (List Token)}
      (read : cursor.token = (.ok (some t), after))
      (run : Runs after rest last) : Runs cursor (rest.map (t :: ·)) last

end Cursor

end StyleProbe.Css
