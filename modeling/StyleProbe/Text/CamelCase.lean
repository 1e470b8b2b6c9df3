import StyleProbe.Text.Uppercase
import StyleProbe.Text.WordChar

/-!
# Camel case

The spelling of a hyphenated name as an object key: each hyphen with a word
character after it is dropped and that character is raised, so `user-select`
becomes `userSelect`. A hyphen with anything else after it stays.
-/

namespace StyleProbe.Text

/-- `camelCase` on the characters of the name. -/
def camelChars : List Char → List Char
  | [] => []
  | '-' :: c :: rest =>
    if isWordChar c then upperChar c ++ camelChars rest
    else '-' :: camelChars (c :: rest)
  | c :: rest => c :: camelChars rest

/-- Drops each hyphen that stands before a word character and raises that
character. -/
def camelCase (name : String) : String :=
  String.ofList (camelChars name.toList)

/-- `capitalize` on the characters of the text. -/
def capitalizeChars : List Char → List Char
  | [] => []
  | c :: rest => upperChar c ++ rest

/-- Raises the first character. -/
def capitalize (s : String) : String :=
  String.ofList (capitalizeChars s.toList)

end StyleProbe.Text
