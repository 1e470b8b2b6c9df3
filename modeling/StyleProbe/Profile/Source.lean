import StyleProbe.Profile
import StyleProbe.Toml.Reader

/-!
# Profile files

The profile source in a TOML document: a name, a description and the
properties, each with its name and its lists. Only the name of the profile
and the names of the properties are required. A field of another name or of
another type is refused.
-/

namespace StyleProbe.ProfileSource

open Toml (Value Entries)

def string? : Value → Option String
  | .string text => some text
  | _ => none

/-- The values of an array, or the tables under a repeated header. -/
def list? : Value → Option (List Value)
  | .array items => some items
  | .tables items => some (items.map (.table .headed))
  | _ => none

def strings? (value : Value) : Option (List String) := do
  (← list? value).mapM string?

/-- The type of value of the given name. -/
def typeOfName? : String → Option ValueType
  | "color" => some .color
  | "length" => some .length
  | "percentage" => some .percentage
  | "number" => some .number
  | "any" => some .any
  | _ => none

/-- A type of value: its name, or a table with its name alone and nothing
under it. -/
def type? : Value → Option ValueType
  | .string name => typeOfName? name
  | .table _ [(name, .table _ [])] => typeOfName? name
  | .table _ [(name, .array [])] => typeOfName? name
  | _ => none

def types? (value : Value) : Option (List ValueType) := do
  (← list? value).mapM type?

/-- A field that may be left out. -/
def field? {α : Type} (absent : α) (read : Value → Option α) (name : String)
    (entries : Entries) : Option α :=
  match entries.lookup name with
  | none => some absent
  | some value => read value

/-- A field that a list may end before. -/
def item? {α : Type} (absent : α) (read : Value → Option α) (index : Nat)
    (items : List Value) : Option α :=
  match items[index]? with
  | none => some absent
  | some value => read value

/-- Whether the entries have no other names. -/
def onlyFields (names : List String) (entries : Entries) : Bool :=
  entries.all fun entry => names.contains entry.1

/-- A property: a table of its fields, or an array of them in order, where
anything may follow the fourth. -/
def entry? : Value → Option PropertyEntry
  | .table _ entries => do
    guard (onlyFields ["name", "keywords", "functions", "types"] entries)
    return {
      name := ← string? (← entries.lookup "name")
      keywords := ← field? [] strings? "keywords" entries
      functions := ← field? [] strings? "functions" entries
      types := ← field? [] types? "types" entries }
  | .array items => do
    return {
      name := ← string? (← items[0]?)
      keywords := ← item? [] strings? 1 items
      functions := ← item? [] strings? 2 items
      types := ← item? [] types? 3 items }
  | _ => none

def entries? (value : Value) : Option (List PropertyEntry) := do
  (← list? value).mapM entry?

/-- The profile source in the text of a profile file, if it is one. -/
def ofToml? (text : String) : Option ProfileSource := do
  let entries ← Toml.document? text
  guard (onlyFields ["name", "description", "property"] entries)
  return {
    name := ← string? (← entries.lookup "name")
    description := ← field? "" string? "description" entries
    properties := ← field? [] entries? "property" entries }

end StyleProbe.ProfileSource
