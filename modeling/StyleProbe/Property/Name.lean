import StyleProbe.Text.Blank
import StyleProbe.Text.CamelCase
import StyleProbe.Vendor

/-!
# Property names

A property's hyphenated name, and the keys under which a style object would
know it: the camel-case key of the name itself and one key for each vendor.
-/

namespace StyleProbe

/-- A hyphenated property name such as `user-select`: not empty, and with no
blanks at its ends. -/
structure PropertyName where
  text : String
  trimmed : Text.trim text = text
  nonempty : text ≠ ""
deriving DecidableEq

namespace PropertyName

/-- The name that a text gives when it is trimmed; none if it is blank. -/
def ofText? (text : String) : Option PropertyName :=
  if h : Text.trim text = "" then none
  else some ⟨Text.trim text, Text.trim_trim text, h⟩

/-- The key of the property itself, such as `userSelect`. -/
def camelKey (name : PropertyName) : String :=
  Text.camelCase name.text

/-- The key of the vendor's form, such as `WebkitUserSelect`. -/
def vendorKey (name : PropertyName) (vendor : Vendor) : String :=
  vendor.camelLead ++ Text.capitalize name.camelKey

/-- The vendor's form of the name, such as `-webkit-user-select`. -/
def vendorText (name : PropertyName) (vendor : Vendor) : String :=
  vendor.hyphenLead ++ name.text

theorem ofText?_text (name : PropertyName) :
    ofText? name.text = some name := by
  simp [ofText?, name.trimmed, name.nonempty]

end PropertyName

/-- The key under which a style object exposes a hyphenated property: the
vendor's key for a name with a vendor prefix, such as `msFlex` for
`-ms-flex`, and the camel-case key for any other. -/
def styleKey (property : String) : String :=
  match Vendor.strip? property with
  | some (vendor, rest) =>
    vendor.camelLead ++ Text.capitalize (Text.camelCase rest)
  | none => Text.camelCase property

end StyleProbe
