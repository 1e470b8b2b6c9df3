import StyleProbe.Property.Name

/-!
# Resolutions

The answers to the questions under which name an environment knows a
property and which form of a value it keeps.
-/

namespace StyleProbe

/-- The name under which an environment honours a property. -/
inductive PropertyResolution where
  | native (name : String)
  | prefixed (vendor : Vendor) (name : String)
  | unsupported
deriving DecidableEq

namespace PropertyResolution

def isSupported : PropertyResolution → Bool
  | unsupported => false
  | _ => true

/-- The name, and nothing if there is none. -/
def name : PropertyResolution → String
  | native name => name
  | prefixed _ name => name
  | unsupported => ""

def text : PropertyResolution → String
  | unsupported => "unsupported"
  | resolution => resolution.name

end PropertyResolution

/-- The value that an environment keeps. -/
inductive ValueResolution where
  | supported (value : String)
  | unsupported
deriving DecidableEq

namespace ValueResolution

def isSupported : ValueResolution → Bool
  | supported _ => true
  | unsupported => false

/-- The value, and nothing if there is none. -/
def value : ValueResolution → String
  | supported value => value
  | unsupported => ""

def text : ValueResolution → String
  | supported value => value
  | unsupported => "unsupported"

/-- Whatever a probe holds is supported; a probe that holds nothing reads as
the empty text. -/
def ofReading (reading : String) : ValueResolution :=
  if reading = "" then unsupported else supported reading

end ValueResolution

/-- The answer to both questions together, and which one it answers. -/
inductive Resolution where
  | property (resolution : PropertyResolution)
  | value (value : String)
  | unsupported
deriving DecidableEq

namespace Resolution

/-- The value's answer, where the name has none. -/
def ofValue : ValueResolution → Resolution
  | .supported v => value v
  | .unsupported => unsupported

/-- The resolved name or value, and nothing if there is none. -/
def answer : Resolution → String
  | property resolution => resolution.name
  | value v => v
  | unsupported => ""

def text : Resolution → String
  | property resolution => "property: " ++ resolution.text
  | value v => "value: " ++ v
  | unsupported => "unsupported"

end Resolution

end StyleProbe
