import StyleProbe.Assoc
import StyleProbe.Surface

/-!
# Scripted surfaces

A surface given by lists: the keys it recognizes and the values it accepts
for each property, word for word. Its probes keep accepted values unchanged.
A sticky one gives each property a value at most once.
-/

namespace StyleProbe

/-- The script of a surface. -/
structure Script where
  keys : List String
  accepts : List (String × List String)
  sticky : Bool

namespace Script

/-- Whether the value is accepted for the property. -/
def accepted (script : Script) (property value : String) : Bool :=
  script.accepts.any fun entry =>
    entry.1 == property && entry.2.contains value

/-- The surface that follows the script; a probe is the values it holds. -/
def surface (script : Script) : Surface where
  Probe := List (String × String)
  recognizes key := script.keys.contains key
  fresh := []
  assign held property value :=
    if script.sticky && (held.lookup property).isSome then held
    else if script.accepted property value then put property value held
    else held
  read held property := (held.lookup property).getD ""

end Script

end StyleProbe
