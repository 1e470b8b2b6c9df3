import StyleProbe.Assoc
import StyleProbe.Profile.Table
import StyleProbe.Property.Name
import StyleProbe.Surface

/-!
# Profiles

The style capabilities of one environment, such as one browser generation:
the properties it knows and what each accepts. A profile is made from a
source, which lists its properties as its author wrote them; `ofSource`
checks the source and puts the properties in order.

A profile is a surface. It recognizes the style keys of its properties, and
its probes keep what the grammars accept.
-/

namespace StyleProbe

/-- A property as its author wrote it. -/
structure PropertyEntry where
  name : String
  keywords : List String := []
  functions : List String := []
  types : List ValueType := []

/-- A profile as its author wrote it. -/
structure ProfileSource where
  name : String
  description : String := ""
  properties : List PropertyEntry := []

/-- What is wrong with a profile, or that there is none of that name. -/
inductive ProfileError where
  | unknown (name : String)
  | unnamed
  | refused (profile property : String) (cause : PropertyTable.Refusal)
deriving DecidableEq

/-- The wording of an error. -/
def ProfileError.message : ProfileError → String
  | unknown name => "unknown profile: " ++ name
  | unnamed => "profile name is empty"
  | refused profile property cause =>
    match cause with
    | .unnamed => profile ++ ": property with an empty name"
    | .acceptsNothing =>
      profile ++ ": property `" ++ property ++ "` accepts no values"
    | .alreadyDeclared =>
      profile ++ ": property `" ++ property ++ "` is declared twice"

/-- The style capabilities of one environment. The style keys of its
properties are kept with them. -/
structure Profile where
  name : String
  description : String
  table : PropertyTable
  styleKeys : List String
  styleKeys_eq : styleKeys = table.names.map styleKey

namespace Profile

/-- The profile with the properties of a table, whose keys are collected. -/
def ofTable (name description : String) (table : PropertyTable) : Profile where
  name
  description
  table
  styleKeys := table.names.map styleKey
  styleKeys_eq := rfl

@[simp] theorem table_ofTable (name description : String)
    (table : PropertyTable) : (ofTable name description table).table = table :=
  rfl

/-- A profile has no keys but those of its table. -/
theorem ofTable_table (profile : Profile) :
    ofTable profile.name profile.description profile.table = profile := by
  obtain ⟨name, description, table, styleKeys, rfl⟩ := profile
  rfl

/-- Adds a property as written to the table of the named profile. -/
def addEntry (profile : String) (table : PropertyTable)
    (entry : PropertyEntry) : Except ProfileError PropertyTable :=
  let grammar := Grammar.ofLists entry.keywords entry.functions entry.types
  match table.insert? entry.name grammar with
  | .ok table => .ok table
  | .error cause => .error (.refused profile (normalName entry.name) cause)

/-- Adds the properties in order, up to the first one that is refused. -/
def addEntries (profile : String) :
    PropertyTable → List PropertyEntry → Except ProfileError PropertyTable
  | table, [] => .ok table
  | table, entry :: entries => do
    let table ← addEntry profile table entry
    addEntries profile table entries

/-- The profile that a source describes. Its name must not be blank and each
of its properties must be fit for the table. -/
def ofSource (source : ProfileSource) : Except ProfileError Profile :=
  let name := Text.trim source.name
  if name = "" then .error .unnamed
  else do
    let table ← addEntries name .empty source.properties
    return ofTable name source.description table

/-- The names of the properties, in increasing order. -/
def properties (profile : Profile) : List String :=
  profile.table.names

/-- Whether one of the properties has the style key. -/
def recognizes (profile : Profile) (key : String) : Bool :=
  profile.styleKeys.contains key

/-- The text that the environment keeps for a value of a property. -/
def accept? (profile : Profile) (property value : String) : Option String :=
  (profile.table.grammar? property).bind (·.accept? value)

/-- The profile as a surface. A probe is the values it holds, by normal
name; what is not accepted leaves it as it is. -/
def surface (profile : Profile) : Surface where
  Probe := List (String × String)
  recognizes := profile.recognizes
  fresh := []
  assign held property value :=
    match profile.accept? (normalName property) value with
    | some kept => put (normalName property) kept held
    | none => held
  read held property := (held.lookup (normalName property)).getD ""

end Profile

end StyleProbe
