import StyleProbe.Binary32.Decimal

/-!
# Tokens

The lexical units of a style sheet or of one declaration value, and the text
each is written as. Comments and the end of the input are no tokens.

A token does not remember its spelling: a string is written with double
quotes whatever it was read with, escapes are resolved, numbers are written
in their shortest form, and a run of whitespace is one space.
-/

namespace StyleProbe.Css

/-- The three kinds of bracket. -/
inductive Bracket where
  | round
  | square
  | curly
deriving DecidableEq

namespace Bracket

def openingText : Bracket → String
  | round => "("
  | square => "["
  | curly => "\x7b"

def closingText : Bracket → String
  | round => ")"
  | square => "]"
  | curly => "\x7d"

end Bracket

/-- One lexical unit. The name of a function comes with its opening
parenthesis, and the names of at-keywords and hashes without their mark. -/
inductive Token where
  | ident (name : String)
  | function (name : String)
  | atKeyword (name : String)
  | hash (name : String)
  | string (contents : String)
  | badString
  | delim (char : Char)
  | number (value : Binary32)
  | percentage (value : Binary32)
  | dimension (value : Binary32) (unit : String)
  | whitespace
  | colon
  | semicolon
  | comma
  | opening (bracket : Bracket)
  | closing (bracket : Bracket)
deriving DecidableEq

/-- The text a token is written as. -/
def Token.text : Token → String
  | ident name => name
  | function name => name ++ "("
  | atKeyword name => "@" ++ name
  | hash name => "#" ++ name
  | string contents => "\"" ++ contents ++ "\""
  | badString => "\""
  | delim char => String.singleton char
  | number value => value.text
  | percentage value => value.text ++ "%"
  | dimension value unit => value.text ++ unit
  | whitespace => " "
  | colon => ":"
  | semicolon => ";"
  | comma => ","
  | opening bracket => bracket.openingText
  | closing bracket => bracket.closingText

/-- What can end a list of component values before the input does. -/
inductive Terminator where
  | bracket (bracket : Bracket)
  | semicolon
deriving DecidableEq

/-- The token that a terminator stands for. -/
def Terminator.token : Terminator → Token
  | bracket b => .closing b
  | semicolon => .semicolon

end StyleProbe.Css
