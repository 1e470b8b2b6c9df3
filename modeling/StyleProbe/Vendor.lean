/-!
# Vendors

The four vendors that shipped experimental properties under a name of their
own, in the order in which they are tried, and the two spellings of their
prefixes.

Main statements: `dropLead?_eq_some_iff` and `strip?_eq_some_iff`.
-/

namespace StyleProbe

/-- A vendor with a prefix of its own. -/
inductive Vendor where
  | webkit
  | moz
  | ms
  | o
deriving DecidableEq

namespace Vendor

/-- All vendors; where several would do, the first one is taken. -/
def all : List Vendor := [webkit, moz, ms, o]

@[simp] theorem mem_all (vendor : Vendor) : vendor ∈ all := by
  cases vendor <;> decide

/-- What an object key for a vendor's property starts with. -/
def camelLead : Vendor → String
  | webkit => "Webkit"
  | moz => "Moz"
  | ms => "ms"
  | o => "O"

/-- What a vendor's name in a style sheet starts with. -/
def hyphenLead : Vendor → String
  | webkit => "-webkit-"
  | moz => "-moz-"
  | ms => "-ms-"
  | o => "-o-"

/-- What follows `lead` in a text that starts with it. -/
def dropLead? : List Char → List Char → Option (List Char)
  | [], cs => some cs
  | _ :: _, [] => none
  | l :: lead, c :: cs => if l = c then dropLead? lead cs else none

/-- The first vendor whose prefix starts the text, with what follows it. The
letters of the prefix have to be small. -/
def strip? (text : String) : Option (Vendor × String) :=
  all.findSome? fun vendor =>
    (dropLead? vendor.hyphenLead.toList text.toList).map fun rest =>
      (vendor, String.ofList rest)

/-- The text without one vendor prefix, if it starts with one. -/
def stripped (text : String) : String :=
  match strip? text with
  | some (_, rest) => rest
  | none => text

/-- What can stand before a value, in write order. The bare form goes last,
so that it has the final say. -/
def valueLeads : List String :=
  ["-o-", "-ms-", "-moz-", "-webkit-", ""]

/-- Dropping a lead undoes writing it. -/
theorem dropLead?_eq_some_iff {lead cs rest : List Char} :
    dropLead? lead cs = some rest ↔ cs = lead ++ rest := by
  induction lead generalizing cs with
  | nil => simp [dropLead?]
  | cons l lead ih =>
    cases cs with
    | nil => simp [dropLead?]
    | cons c cs =>
      by_cases h : l = c
      · simp [dropLead?, h, ih]
      · simp [dropLead?, h, Ne.symm h]

/-- The prefix that was written is the one that is found, whatever follows
it. -/
theorem strip?_hyphenLead (vendor : Vendor) (rest : String) :
    strip? (vendor.hyphenLead ++ rest) = some (vendor, rest) := by
  cases vendor <;> simp [strip?, all, hyphenLead, dropLead?]

/-- Stripping a prefix undoes writing it. -/
theorem strip?_eq_some_iff {text rest : String} {vendor : Vendor} :
    strip? text = some (vendor, rest) ↔ text = vendor.hyphenLead ++ rest := by
  constructor
  · intro h
    obtain ⟨before, vendor', after, -, hfound, -⟩ :=
      List.findSome?_eq_some_iff.mp h
    obtain ⟨cs, hdrop, hpair⟩ := Option.map_eq_some_iff.mp hfound
    obtain ⟨rfl, rfl⟩ := Prod.mk.inj hpair
    apply String.toList_inj.mp
    rw [dropLead?_eq_some_iff.mp hdrop, String.toList_append,
      String.toList_ofList]
  · rintro rfl
    exact strip?_hyphenLead vendor rest

end Vendor

end StyleProbe
