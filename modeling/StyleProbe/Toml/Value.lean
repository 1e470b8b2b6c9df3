import StyleProbe.Assoc

/-!
# TOML values

The values that a file can hold: strings, other scalars, arrays and tables.
Of a scalar that is not a string only its presence is kept. A table
remembers how it came about, because that decides whether it may be added
to later: an inline table never, a table with a header of its own only once,
and tables that exist because of a longer header or a dotted key by the like
of what made them.

A document is built from its sections, each a header and the pairs under it.
-/

namespace StyleProbe.Toml

/-- How a table came about. -/
inductive TableKind where
  /-- It was written between braces. -/
  | inlined
  /-- It has a header of its own. -/
  | headed
  /-- A longer header goes through it. -/
  | implied
  /-- A dotted key goes through it. -/
  | dotted
deriving DecidableEq

/-- A string, another scalar, an array, a table, or the tables under one
repeated header. -/
inductive Value where
  | string (text : String)
  | scalar
  | array (items : List Value)
  | table (kind : TableKind) (entries : List (String × Value))
  | tables (items : List (List (String × Value)))

/-- The contents of a table. -/
abbrev Entries : Type := List (String × Value)

/-- A dotted key: the keys of the tables it goes through, and its own. -/
structure Key where
  parents : List String
  name : String

/-- A header: of one table, or of one more table of several. -/
inductive Header where
  | table (key : Key)
  | tables (key : Key)

/-- A part of a document that belongs to one table. -/
structure Section where
  header : Header
  pairs : List (Key × Value)

/-- Changes the last element of a list that has one. -/
def updateLast? {α : Type} (change : α → Option α) :
    List α → Option (List α)
  | [] => none
  | [last] => (change last).map ([·])
  | first :: rest => (updateLast? change rest).map (first :: ·)

/-- Whether a path may go through a table of the kind. -/
def TableKind.admits (onDottedKey : Bool) : TableKind → Bool
  | inlined => false
  | headed => !onDottedKey
  | implied => true
  | dotted => true

/-- Changes the table at the end of a path, making the tables on the way that
are missing. Of several tables under one header the last one is meant. The
change is told the kind of the table; `start` is the kind of the first. -/
def changeAt? (onDottedKey : Bool)
    (change : TableKind → Entries → Option Entries) :
    List String → TableKind → Entries → Option Entries
  | [], start, entries => change start entries
  | key :: path, _, entries =>
    match entries.lookup key with
    | none => do
      let kind := if onDottedKey then TableKind.dotted else .implied
      let made ← changeAt? onDottedKey change path kind []
      return entries ++ [(key, .table kind made)]
    | some (.table kind inner) =>
      if kind.admits onDottedKey then do
        let changed ← changeAt? onDottedKey change path kind inner
        return put key (.table kind changed) entries
      else none
    | some (.tables items) => do
      let changed ←
        updateLast? (changeAt? onDottedKey change path .headed) items
      return put key (.tables changed) entries
    | some _ => none

/-- Adds a pair to a table. Its key must be new there, and a dotted key must
end in a table that dotted keys made. -/
def addPair? (entries : Entries) (pair : Key × Value) : Option Entries :=
  let (key, value) := pair
  changeAt? true
    (fun kind inner =>
      if (kind == .dotted) == key.parents.isEmpty then none
      else
        match inner.lookup key.name with
        | none => some (inner ++ [(key.name, value)])
        | some _ => none)
    key.parents .headed entries

/-- Adds pairs to a table, in order. -/
def addPairs? (entries : Entries) : List (Key × Value) → Option Entries
  | [] => some entries
  | pair :: pairs => do
    let entries ← addPair? entries pair
    addPairs? entries pairs

/-- Adds a section to a document. The header of one table makes the table,
or fills one that is only implied; a repeated header adds one more table. -/
def addSection? (document : Entries) (part : Section) : Option Entries :=
  match part.header with
  | .table key =>
    changeAt? false
      (fun _ inner =>
        match inner.lookup key.name with
        | none => do
          let made ← addPairs? [] part.pairs
          return inner ++ [(key.name, .table .headed made)]
        | some (.table .implied old) => do
          let filled ← addPairs? old part.pairs
          return put key.name (.table .headed filled) inner
        | some _ => none)
      key.parents .headed document
  | .tables key =>
    changeAt? false
      (fun _ inner => do
        let made ← addPairs? [] part.pairs
        match inner.lookup key.name with
        | none => some (inner ++ [(key.name, .tables [made])])
        | some (.tables items) =>
          some (put key.name (.tables (items ++ [made])) inner)
        | some _ => none)
      key.parents .headed document

/-- Adds sections to a document, in order. -/
def addSections? (document : Entries) : List Section → Option Entries
  | [] => some document
  | part :: parts => do
    let document ← addSection? document part
    addSections? document parts

end StyleProbe.Toml
