import StyleProbe.Css.Token

/-!
# Errors of the style language

Everything that can be wrong with a style sheet, a value or a colour, and
the wording of each.
-/

namespace StyleProbe.Css

/-- What is wrong with a piece of style text. -/
inductive Error where
  /-- A comment runs to the end of the input. -/
  | unterminatedComment
  /-- The input ended where something still had to be closed. -/
  | unclosed (expected : Terminator)
  /-- A closing bracket that nothing opened. -/
  | unbalanced (bracket : Bracket)
  | unknownColorName (name : String)
  | invalidHexColor (digits : String)
  | unsupportedColorFunction (name : String)
  | invalidColor (text : String)
  | argumentCount (found : Nat)
  | invalidChannel (text : String)
  | invalidAlpha (text : String)
deriving DecidableEq

/-- The wording of an error. -/
def Error.message : Error → String
  | unterminatedComment => "unterminated comment at end of input"
  | unclosed expected =>
    "expected " ++ expected.token.text ++ " but reached the end of input"
  | unbalanced bracket => "unbalanced " ++ bracket.closingText
  | unknownColorName name => "Unknown color name: " ++ name
  | invalidHexColor digits => "Invalid hex color: #" ++ digits
  | unsupportedColorFunction name => "Unsupported color function: " ++ name
  | invalidColor text => "Invalid color value: " ++ text
  | argumentCount found =>
    "rgb() takes 3 or 4 arguments, found " ++ toString found
  | invalidChannel text => "Invalid rgb() channel: " ++ text
  | invalidAlpha text => "Invalid rgb() alpha: " ++ text

end StyleProbe.Css
