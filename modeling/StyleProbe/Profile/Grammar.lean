import StyleProbe.Css.Color
import StyleProbe.Css.Component.Reader

/-!
# Value grammars

What one property accepts in one environment, and the text in which an
accepted value is kept: keywords in small letters, colours resolved, lengths
with small units and a unitless zero in pixels, functions and free values as
they are serialized.
-/

namespace StyleProbe

open Css (Component Color)

/-- A type of value that a grammar can allow; `any` allows every value whose
brackets match. -/
inductive ValueType where
  | color
  | length
  | percentage
  | number
  | any
deriving DecidableEq

/-- The keywords, functions and types of value that a property accepts. -/
structure Grammar where
  keywords : List String
  functions : List String
  types : List ValueType
deriving DecidableEq

namespace Grammar

/-- The keywords that every property accepts. -/
def wideKeywords : List String := ["inherit", "initial", "unset", "revert"]

/-- The units of a length. -/
def lengthUnits : List String :=
  ["em", "ex", "ch", "rem", "vw", "vh", "vmin", "vmax", "cm", "mm", "q",
   "in", "pt", "pc", "px"]

/-- The grammar of the given keywords, functions and types; the case of
ASCII letters does not matter. -/
def ofLists (keywords functions : List String) (types : List ValueType) :
    Grammar where
  keywords := keywords.map Text.lowerAscii
  functions := functions.map Text.lowerAscii
  types

/-- Whether the grammar allows nothing of its own. -/
def isEmpty (g : Grammar) : Bool :=
  g.keywords.isEmpty && g.functions.isEmpty && g.types.isEmpty

/-- The keyword that a component value is, if the grammar allows it. -/
def keyword? (g : Grammar) : Component → Option String
  | .token (.ident name) =>
    let lower := Text.lowerAscii name
    if wideKeywords.contains lower || g.keywords.contains lower then
      some lower
    else none
  | _ => none

/-- Whether a component value is a function that the grammar allows by
name. -/
def allowsFunction (g : Grammar) : Component → Bool
  | .function name _ => g.functions.contains (Text.lowerAscii name)
  | _ => false

end Grammar

/-- The text in which a component value is kept as a value of the type, if
it is one. -/
def ValueType.accept? : ValueType → Component → Option String
  | color, value => (Color.parse value).toOption.map Color.text
  | length, .token (.dimension n unit) =>
    let lower := Text.lowerAscii unit
    if Grammar.lengthUnits.contains lower then some (n.text ++ lower)
    else none
  | length, .token (.number n) => if n.isZero then some "0px" else none
  | percentage, .token (.percentage n) => some (n.text ++ "%")
  | number, .token (.number n) => some n.text
  | any, value => some value.text
  | _, _ => none

namespace Grammar

/-- The text in which a single component value is kept, if it is accepted: a
keyword, an allowed function, or the first of the types that it has. -/
def acceptOne? (g : Grammar) (value : Component) : Option String :=
  match g.keyword? value with
  | some lower => some lower
  | none =>
    if g.allowsFunction value then some value.text
    else g.types.findSome? (·.accept? value)

/-- The text in which a value is kept, if it is accepted. Several component
values are accepted together as a list of allowed functions, or as a free
value. -/
def accept? (g : Grammar) (value : String) : Option String :=
  match Component.parseValue value with
  | .error _ => none
  | .ok values =>
    match values.filter (fun v => !v.isWhitespace) with
    | [] => none
    | [single] => g.acceptOne? single
    | several =>
      if g.types.contains .any || several.all g.allowsFunction then
        some (Component.serialize values)
      else none

end Grammar

end StyleProbe
