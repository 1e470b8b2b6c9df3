import StyleProbe.Css.Component.Reader
import StyleProbe.Text.Blank

/-!
# Style sheets

The style rules of a style sheet and the declarations of each. Rules inside
grouping at-rules, such as `@media`, count as rules of the sheet; all other
at-rules are skipped. Reading a style sheet cannot fail once it is split
into tokens: what is malformed is skipped or read as far as it goes.
-/

namespace StyleProbe.Css

open Component (read isWhitespace)

/-- A property and the text of its value. -/
structure Declaration where
  property : String
  value : String
deriving DecidableEq

/-- A style rule: the tokens before its block and the component values in
it. -/
structure Rule where
  prelude : List Token
  block : List Component

/-! ## Declarations -/

/-- Splits component values at the semicolons of the outermost level. -/
def splitAtSemicolons : List Component → List (List Component)
  | [] => [[]]
  | .token .semicolon :: values => [] :: splitAtSemicolons values
  | value :: values =>
    match splitAtSemicolons values with
    | first :: more => (value :: first) :: more
    | [] => [[value]]

/-- Drops `!important` from the end of a trimmed value. -/
def dropImportant (values : List Component) : List Component :=
  match values.reverse with
  | .token (.ident word) :: .token (.delim '!') :: before =>
    if Text.sameIgnoringCase word "important" then
      Component.trim before.reverse
    else values
  | _ => values

/-- The declaration that the component values form: a name, a colon and a
value with something in it. -/
def Declaration.ofComponents? (values : List Component) :
    Option Declaration :=
  match Component.trim values with
  | .token (.ident name) :: afterName =>
    match Component.trim afterName with
    | .token .colon :: afterColon =>
      match dropImportant (Component.trim afterColon) with
      | [] => none
      | value =>
        some ⟨Text.lowerAscii name, Component.serialize value⟩
    | _ => none
  | _ => none

/-- The declarations of a rule, in order; what forms none is left out. -/
def Rule.declarations (rule : Rule) : List Declaration :=
  (splitAtSemicolons rule.block).filterMap Declaration.ofComponents?

/-- The text of the tokens before the block. -/
def Rule.selector (rule : Rule) : String :=
  Text.trim (rule.prelude.foldr (fun t s => t.text ++ s) "")

/-! ## Rules -/

/-- The at-rules whose blocks hold style rules. -/
def groupingAtRules : List String :=
  ["media", "supports", "document", "layer", "container"]

/-- Whether the block of the at-rule holds style rules. -/
def isGrouping (name : String) : Bool :=
  groupingAtRules.contains (Text.lowerAscii name)

/-- Whether the token ends the part of an at-rule before its block. -/
def endsAtPrelude (t : Token) : Bool :=
  t == .opening .curly || t == .semicolon

/-- The style rules of the tokens, where `depth` grouping at-rules are
open. -/
def rulesFrom (depth : Nat) : List Token → List Rule
  | [] => []
  | first :: rest =>
    if first = .whitespace ∨ first = .semicolon then rulesFrom depth rest
    else if first = .closing .curly ∧ 0 < depth then
      rulesFrom (depth - 1) rest
    else
      match first with
      | .atKeyword name =>
        match _h : rest.dropWhile (fun t => !endsAtPrelude t) with
        | .opening .curly :: body =>
          if isGrouping name then rulesFrom (depth + 1) body
          else rulesFrom depth (read (some (.bracket .curly)) body).rest
        | _ :: after => rulesFrom depth after
        | [] => []
      | _ =>
        match _h : rest.dropWhile (· != .opening .curly) with
        | _ :: body =>
          let reading := read (some (.bracket .curly)) body
          { prelude := first :: rest.takeWhile (· != .opening .curly)
            block := reading.values } :: rulesFrom depth reading.rest
        | [] => []
termination_by tokens => tokens.length
decreasing_by
  all_goals
    simp only [List.length_cons]
    first
    | omega
    | have hdrop := congrArg List.length _h
      simp only [List.length_cons] at hdrop
      have hle := length_dropWhile_le (fun t => !endsAtPrelude t) rest
      have hle' := length_dropWhile_le (· != Token.opening .curly) rest
      have hread := Component.length_rest_read (some (.bracket .curly)) body
      omega
    | have hdrop := congrArg List.length _h
      simp only [List.length_cons] at hdrop
      have hle := length_dropWhile_le (fun t => !endsAtPrelude t) rest
      omega

/-- The style rules of a style sheet, in order. -/
def rules (tokens : List Token) : List Rule :=
  rulesFrom 0 tokens

end StyleProbe.Css
