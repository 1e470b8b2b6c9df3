import StyleProbe.Toml.Scalar
import StyleProbe.Toml.Value

/-!
# Reading TOML

Reads TOML 1.0: strings of all four forms, other scalars, arrays, inline
tables, dotted and quoted keys, headers and comments. Everything that the
format rules out is refused, and so are values nested too deep and keys of
too many parts; a reader has no more to say than that.

A reader takes the remaining characters and returns what it read with what
is left over. Nested values are read with fuel. No character takes more than
two units of it, so twice the length of a text is enough for the text.
-/

namespace StyleProbe.Toml

/-- Reads something off the front of a text, if it is there. -/
abbrev Reader (α : Type) : Type := List Char → Option (α × List Char)

/-! ## Blanks, line ends and comments -/

def isBlankChar (c : Char) : Bool := c == ' ' || c == '\t'

def skipBlanks (cs : List Char) : List Char := cs.dropWhile isBlankChar

/-- A character of a comment or of a one-line string: no control character
but the tab. -/
def isTextChar (c : Char) : Bool :=
  c == '\t' || (0x20 ≤ c.toNat && c.toNat != 0x7F)

/-- Whether the text starts with a line end. -/
def startsLineEnd : List Char → Bool
  | '\n' :: _ => true
  | '\r' :: '\n' :: _ => true
  | _ => false

/-- Skips blanks, line ends and comments; `inComment` tells where it starts.
A comment must not hold control characters. -/
def skipGaps (inComment : Bool) : List Char → Option (List Char)
  | [] => some []
  | '\n' :: rest => skipGaps false rest
  | '\r' :: '\n' :: rest => skipGaps false rest
  | c :: rest =>
    if inComment then
      if isTextChar c then skipGaps true rest else none
    else if isBlankChar c then skipGaps false rest
    else if c = '#' then skipGaps true rest
    else some (c :: rest)

/-- Skips the end of a line, with blanks and a comment before it, and the
gaps after it. -/
def skipLineEnd (cs : List Char) : Option (List Char) :=
  let rest := skipBlanks cs
  if rest.isEmpty || startsLineEnd rest || rest.head? == some '#' then
    skipGaps false rest
  else none

/-! ## Strings -/

/-- The character with the given code point in hexadecimal digits. -/
def codePoint? (digits : List Char) : Option Char :=
  let n := Text.hexNumber digits
  if digits.all Text.isHexDigit && n.isValidChar then some (Char.ofNat n)
  else none

/-- The character that a one-letter escape stands for. -/
def escape? : Char → Option Char
  | 'b' => some '\x08'
  | 't' => some '\t'
  | 'n' => some '\n'
  | 'f' => some '\x0c'
  | 'r' => some '\r'
  | '"' => some '"'
  | '\\' => some '\\'
  | _ => none

/-- Puts a character in front of what a reader read. -/
def push (c : Char) (read : Option (List Char × List Char)) :
    Option (List Char × List Char) :=
  read.map fun (text, rest) => (c :: text, rest)

/-- Reads a string in double quotes, after its opening quote. -/
def basicString : Reader (List Char)
  | [] => none
  | '"' :: rest => some ([], rest)
  | '\\' :: 'u' :: a :: b :: c :: d :: rest => do
    push (← codePoint? [a, b, c, d]) (basicString rest)
  | '\\' :: 'U' :: a :: b :: c :: d :: e :: f :: g :: h :: rest => do
    push (← codePoint? [a, b, c, d, e, f, g, h]) (basicString rest)
  | '\\' :: c :: rest => do push (← escape? c) (basicString rest)
  | c :: rest => if isTextChar c then push c (basicString rest) else none

/-- Reads a string in single quotes, after its opening quote. -/
def literalString : Reader (List Char)
  | [] => none
  | c :: rest =>
    if c = '\x27' then some ([], rest)
    else if isTextChar c then push c (literalString rest)
    else none

/-- The closing quotes of a string over several lines: the last three of up
to five, the others being part of the string. -/
def closingQuotes (quote : Char) : List Char → Option (List Char × List Char)
  | a :: b :: c :: rest =>
    if a = quote ∧ b = quote ∧ c = quote then
      let extra := (rest.take 2).takeWhile (· == quote)
      some (extra, rest.drop extra.length)
    else none
  | _ => none

/-- Reads a string in triple double quotes, after its opening quotes. A
backslash at the end of a line skips the blanks and line ends after it;
`skipping` tells that it is doing so. -/
def basicLines (skipping : Bool) : Reader (List Char)
  | [] => none
  | '\\' :: 'u' :: a :: b :: c :: d :: rest => do
    push (← codePoint? [a, b, c, d]) (basicLines false rest)
  | '\\' :: 'U' :: a :: b :: c :: d :: e :: f :: g :: h :: rest => do
    push (← codePoint? [a, b, c, d, e, f, g, h]) (basicLines false rest)
  | '\\' :: c :: rest =>
    if startsLineEnd (skipBlanks (c :: rest)) then
      basicLines true (c :: rest)
    else do push (← escape? c) (basicLines false rest)
  | '\r' :: '\n' :: rest =>
    if skipping then basicLines true rest
    else push '\n' (basicLines false rest)
  | c :: rest =>
    match closingQuotes '"' (c :: rest) with
    | some closed => some closed
    | none =>
      if skipping && (c == '\n' || isBlankChar c) then basicLines true rest
      else if c == '\n' || isTextChar c then push c (basicLines false rest)
      else none

/-- Reads a string in triple single quotes, after its opening quotes. -/
def literalLines : Reader (List Char)
  | [] => none
  | '\r' :: '\n' :: rest => push '\n' (literalLines rest)
  | c :: rest =>
    match closingQuotes '\x27' (c :: rest) with
    | some closed => some closed
    | none =>
      if c == '\n' || isTextChar c then push c (literalLines rest)
      else none

/-- Drops a line end right after the opening quotes. -/
def dropLineEnd : List Char → List Char
  | '\n' :: rest => rest
  | '\r' :: '\n' :: rest => rest
  | rest => rest

/-- Reads a string of any form. -/
def string : Reader String := fun cs =>
  let read :=
    match cs with
    | '"' :: '"' :: '"' :: rest => basicLines false (dropLineEnd rest)
    | '\x27' :: '\x27' :: '\x27' :: rest => literalLines (dropLineEnd rest)
    | '"' :: rest => basicString rest
    | '\x27' :: rest => literalString rest
    | _ => none
  read.map fun (text, rest) => (String.ofList text, rest)

/-! ## Keys -/

/-- A character of a key without quotes. -/
def isBareKeyChar (c : Char) : Bool :=
  c.isAlphanum || c == '_' || c == '-'

/-- Reads one key, bare or quoted. -/
def simpleKey : Reader String := fun cs =>
  match cs with
  | '"' :: rest =>
    (basicString rest).map fun (text, rest) => (String.ofList text, rest)
  | '\x27' :: rest =>
    (literalString rest).map fun (text, rest) => (String.ofList text, rest)
  | _ =>
    let bare := cs.takeWhile isBareKeyChar
    if bare.isEmpty then none
    else some (String.ofList bare, cs.dropWhile isBareKeyChar)

/-- The most parts that a key may have. -/
def partLimit : Nat := 79

/-- Reads up to so many keys joined by points, with blanks around each. -/
def keyParts : Nat → Reader Key
  | 0, _ => none
  | limit + 1, cs => do
    let (name, rest) ← simpleKey (skipBlanks cs)
    match skipBlanks rest with
    | '.' :: more =>
      let (key, rest) ← keyParts limit more
      return ({ key with parents := name :: key.parents }, rest)
    | rest => return (⟨[], name⟩, rest)

/-- Reads a key of one part or of several. -/
def dottedKey : Reader Key := keyParts partLimit

/-! ## Values -/

/-- The most arrays and inline tables that may stand inside one another. -/
def depthLimit : Nat := 79

mutual

/-- Reads a value in which arrays and inline tables stand at most `depth`
deep. -/
def value : Nat → Nat → Reader Value
  | 0, _, _ => none
  | _ + 1, 0, '[' :: _ => none
  | fuel + 1, depth + 1, '[' :: rest =>
    (arrayItems fuel depth rest).map fun (items, rest) =>
      (.array items, rest)
  | _ + 1, 0, '\x7b' :: _ => none
  | fuel + 1, depth + 1, '\x7b' :: rest =>
    match skipBlanks rest with
    | '\x7d' :: rest => some (.table .inlined [], rest)
    | rest => do
      let (pairs, rest) ← inlinePairs fuel depth rest
      let entries ← addPairs? [] pairs
      return (.table .inlined entries, rest)
  | _ + 1, _, cs =>
    match string cs with
    | some (text, rest) => some (.string text, rest)
    | none => (scalar cs).map fun rest => (.scalar, rest)

/-- Reads the items of an array with its closing bracket. A comma may stand
after the last one. -/
def arrayItems : Nat → Nat → Reader (List Value)
  | 0, _, _ => none
  | fuel + 1, depth, cs => do
    match ← skipGaps false cs with
    | ']' :: rest => return ([], rest)
    | cs =>
      let (item, rest) ← value fuel depth cs
      match ← skipGaps false rest with
      | ',' :: rest =>
        let (items, rest) ← arrayItems fuel depth rest
        return (item :: items, rest)
      | ']' :: rest => return ([item], rest)
      | _ => none

/-- Reads the pairs of an inline table with its closing brace: at least one,
all on one line, and no comma after the last. -/
def inlinePairs : Nat → Nat → Reader (List (Key × Value))
  | 0, _, _ => none
  | fuel + 1, depth, cs => do
    let (first, rest) ← pair fuel depth cs
    match skipBlanks rest with
    | ',' :: rest =>
      let (pairs, rest) ← inlinePairs fuel depth rest
      return (first :: pairs, rest)
    | '\x7d' :: rest => return ([first], rest)
    | _ => none

/-- Reads a key, an equals sign and a value. -/
def pair : Nat → Nat → Reader (Key × Value)
  | 0, _, _ => none
  | fuel + 1, depth, cs => do
    match ← dottedKey cs with
    | (key, '=' :: rest) =>
      let (item, rest) ← value fuel depth (skipBlanks rest)
      return ((key, item), rest)
    | _ => none

end

/-! ## Documents -/

/-- A header, or a pair that belongs to the header above it. -/
inductive Statement where
  | header (header : Header)
  | pair (key : Key) (value : Value)

/-- Reads one statement. -/
def statement (fuel : Nat) : Reader Statement := fun cs =>
  match cs with
  | '[' :: '[' :: rest => do
    match ← dottedKey rest with
    | (key, ']' :: ']' :: rest) => return (.header (.tables key), rest)
    | _ => none
  | '[' :: rest => do
    match ← dottedKey rest with
    | (key, ']' :: rest) => return (.header (.table key), rest)
    | _ => none
  | _ => do
    let ((key, value), rest) ← pair fuel depthLimit cs
    return (.pair key value, rest)

/-- Reads statements to the end of the text, which starts with one unless it
is empty. -/
def statements : Nat → List Char → Option (List Statement)
  | _, [] => some []
  | 0, _ :: _ => none
  | fuel + 1, c :: cs => do
    let (first, rest) ← statement (fuel + 1) (c :: cs)
    let rest ← skipLineEnd rest
    let more ← statements fuel rest
    return first :: more

/-- The pairs before the first header, and the sections. -/
def sections :
    List Statement → List (Key × Value) × List Section
  | [] => ([], [])
  | .pair key value :: rest =>
    ((key, value) :: (sections rest).1, (sections rest).2)
  | .header header :: rest =>
    ([], ⟨header, (sections rest).1⟩ :: (sections rest).2)

/-- Drops a byte order mark. -/
def dropMark : List Char → List Char
  | '\uFEFF' :: rest => rest
  | rest => rest

/-- The entries of a document. -/
def document? (text : String) : Option Entries := do
  let cs ← skipGaps false (dropMark text.toList)
  let (pairs, parts) := sections (← statements (2 * cs.length + 2) cs)
  let entries ← addPairs? [] pairs
  addSections? entries parts

end StyleProbe.Toml
