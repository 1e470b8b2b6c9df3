import StyleProbe.Css.Stylesheet
import StyleProbe.Query

/-!
# Audits

The verdict on every declaration of a style sheet: the name and the value
that the environment honours, and whether it takes a vendor prefix. Prefixes
that the style sheet writes are taken off first, so that `-webkit-transform`
is audited as `transform`.

An audit is a query, so it can be answered with or without a cache. Only a
style sheet that cannot be split into tokens has none.
-/

namespace StyleProbe

/-- The verdict on a declaration. -/
inductive Status where
  | native
  | needsPrefix
  | unsupported
deriving DecidableEq

def Status.text : Status → String
  | native => "native"
  | needsPrefix => "needs prefix"
  | unsupported => "unsupported"

/-- A declaration of a style sheet, with the name and the value that the
environment honours. -/
structure AuditEntry where
  selector : String
  property : String
  value : String
  resolvedProperty : PropertyResolution
  resolvedValue : ValueResolution
deriving DecidableEq

namespace AuditEntry

/-- A declaration is supported if both its halves are; it needs a prefix if
the honoured name has one or the honoured value starts with one. -/
def status (entry : AuditEntry) : Status :=
  match entry.resolvedProperty, entry.resolvedValue with
  | .unsupported, _ => .unsupported
  | _, .unsupported => .unsupported
  | .prefixed _ _, .supported _ => .needsPrefix
  | .native _, .supported value =>
    if (Vendor.strip? value).isSome then .needsPrefix else .native

/-- One line about the declaration, unless its own text has line breaks. -/
def text (entry : AuditEntry) : String :=
  entry.selector ++ " \x7b " ++ entry.property ++ ": " ++ entry.value ++
    " \x7d -> " ++
    match entry.status with
    | .unsupported => "[unsupported]"
    | status =>
      entry.resolvedProperty.text ++ ": " ++ entry.resolvedValue.text ++
        " [" ++ status.text ++ "]"

end AuditEntry

/-- The verdicts on the declarations of a style sheet, in order. -/
structure AuditReport where
  entries : List AuditEntry
deriving DecidableEq

namespace AuditReport

/-- How many declarations have the verdict. -/
def count (report : AuditReport) (status : Status) : Nat :=
  (report.entries.filter (·.status == status)).length

/-- The last line of a report. -/
def summary (report : AuditReport) : String :=
  toString report.entries.length ++ " declarations: " ++
    toString (report.count .native) ++ " native, " ++
    toString (report.count .needsPrefix) ++ " need a prefix, " ++
    toString (report.count .unsupported) ++ " unsupported"

/-- The report: a line for each declaration and the summary. -/
def text (report : AuditReport) : String :=
  report.entries.foldr (fun entry rest => entry.text ++ "\n" ++ rest)
    report.summary

end AuditReport

namespace Audit

/-- The declarations of a style sheet with the selectors of their rules, in
order. -/
def declarations (rules : List Css.Rule) :
    List (String × Css.Declaration) :=
  rules.flatMap fun rule =>
    rule.declarations.map fun declaration => (rule.selector, declaration)

/-- What is kept of a value under the name that was found for its property.
The name is checked before anything is asked for under it; `none` is for a
name that fails the check. -/
def valueUnder? (resolved : PropertyResolution) (value : String) :
    Query (Option ValueResolution) :=
  if resolved.isSupported then
    match PropertyName.ofText? resolved.name with
    | none => pure none
    | some name => return some (← Query.askValue name value)
  else pure (some .unsupported)

/-- The entry of a declaration, without the vendor prefixes of its property
and its value: the name is asked for first and the value under it. A
declaration with nothing but a vendor prefix for a name has none. -/
def entryOf? (selector : String) (declaration : Css.Declaration) :
    Query (Option AuditEntry) :=
  match PropertyName.ofText? (Vendor.stripped declaration.property) with
  | none => pure none
  | some key => do
    let resolvedProperty ← Query.askName key
    let kept ← valueUnder? resolvedProperty (Vendor.stripped declaration.value)
    return kept.map fun resolvedValue => {
      selector
      property := declaration.property
      value := declaration.value
      resolvedProperty
      resolvedValue }

/-- The entries of the declarations, in order. -/
def entries : List (String × Css.Declaration) → Query (List AuditEntry)
  | [] => pure []
  | (selector, declaration) :: rest => do
    let first ← entryOf? selector declaration
    let more ← entries rest
    return first.toList ++ more

/-- The audit of a style sheet. -/
def ofStylesheet (css : String) : Except Css.Error (Query AuditReport) := do
  let tokens ← Css.tokenize css
  return do
    let entries ← entries (declarations (Css.rules tokens))
    return { entries }

end Audit

end StyleProbe
