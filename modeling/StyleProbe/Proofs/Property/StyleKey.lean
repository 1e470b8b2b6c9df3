import StyleProbe.Proofs.Text.CamelCase
import StyleProbe.Property.Name

/-!
# Style keys and camel-case keys

A declared name is known under its style key. A name that is asked for is
looked up under its camel-case key and the vendors' keys made from it. The
vendors' keys are the style keys of the vendors' forms, whatever the name.
The camel-case key is the style key of the name itself for every name
without a vendor prefix, but a prefix tells them apart in two ways: the key
of an `-ms-` name starts with a small letter, and a hyphen at the end of the
prefix stays in camel case when no word character follows it.

Main statements: `PropertyName.styleKey_vendorText` and
`styleKey_eq_camelCase_iff`.
-/

namespace StyleProbe

/-! ## Names with a vendor prefix -/

/-- What camel case makes of a vendor prefix without its last hyphen. -/
def Vendor.raisedLead : Vendor → String
  | .webkit => "Webkit"
  | .moz => "Moz"
  | .ms => "Ms"
  | .o => "O"

/-- An object key starts with the raised prefix, but for one vendor. -/
theorem Vendor.raisedLead_eq_camelLead_iff {vendor : Vendor} :
    vendor.raisedLead = vendor.camelLead ↔ vendor ≠ .ms := by
  cases vendor <;> decide

theorem styleKey_hyphenLead (vendor : Vendor) (rest : String) :
    styleKey (vendor.hyphenLead ++ rest) =
      vendor.camelLead ++ Text.capitalize (Text.camelCase rest) := by
  rw [styleKey, Vendor.strip?_hyphenLead]

/-- **A vendor's key is the style key of the vendor's form.** -/
theorem PropertyName.styleKey_vendorText (name : PropertyName)
    (vendor : Vendor) :
    styleKey (name.vendorText vendor) = name.vendorKey vendor :=
  styleKey_hyphenLead vendor name.text

/-- The last hyphen of a prefix is left to what follows. -/
theorem camelChars_hyphenLead (vendor : Vendor) (rest : List Char) :
    Text.camelChars (vendor.hyphenLead.toList ++ rest) =
      vendor.raisedLead.toList ++ Text.camelChars ('-' :: rest) := by
  cases vendor <;> rfl

/-! ## Where the two keys are one -/

/-- Whether the text starts with a word character. -/
def startsWord (text : String) : Bool :=
  text.toList.head?.any Text.isWordChar

/-- Capitalizing does what camel case does to a hyphen in front, exactly when
a word character comes first. -/
theorem camelChars_hyphen_eq_capitalize_iff (text : String) :
    Text.camelChars ('-' :: text.toList) =
        Text.capitalizeChars (Text.camelChars text.toList) ↔
      startsWord text = true := by
  unfold startsWord
  cases text.toList with
  | nil => decide
  | cons c rest =>
    by_cases hword : Text.isWordChar c = true
    · rw [Text.camelChars_hyphen_word hword,
        Text.camelChars_cons_of_ne (Text.ne_hyphen_of_isWordChar hword)]
      simp [Text.capitalizeChars, hword]
    · have hother : ∀ d ∈ (c :: rest).head?, Text.isWordChar d = false := by
        simpa using hword
      rw [Text.camelChars_hyphen_other hother]
      refine iff_of_false ?_ (by simpa using hword)
      intro h
      cases hkey : Text.camelChars (c :: rest) with
      | nil =>
        rw [hkey] at h
        cases h
      | cons d key =>
        -- The hyphen in front would have to come from raising a character.
        rw [hkey, Text.capitalizeChars] at h
        have hsplit : ['-', d] ++ key = Text.upperChar d ++ key := h
        exact Text.upperChar_ne_hyphen_cons d
          (List.append_cancel_right hsplit).symm

/-- The name has no vendor prefix, or one that camel case makes the key's
own: not `-ms-`, and followed by a word character. -/
def KeyedPlainly (property : String) : Prop :=
  ∀ (vendor : Vendor) (rest : String), property = vendor.hyphenLead ++ rest →
    vendor ≠ .ms ∧ startsWord rest = true

theorem styleKey_hyphenLead_eq_camelCase_iff (vendor : Vendor)
    (rest : String) :
    styleKey (vendor.hyphenLead ++ rest) =
        Text.camelCase (vendor.hyphenLead ++ rest) ↔
      vendor ≠ .ms ∧ startsWord rest = true := by
  have hkeys : styleKey (vendor.hyphenLead ++ rest) =
        Text.camelCase (vendor.hyphenLead ++ rest) ↔
      vendor.camelLead.toList ++
          Text.capitalizeChars (Text.camelChars rest.toList) =
        vendor.raisedLead.toList ++ Text.camelChars ('-' :: rest.toList) := by
    rw [styleKey_hyphenLead, ← String.toList_inj, ← camelChars_hyphenLead]
    simp [Text.capitalize, Text.camelCase]
  rw [hkeys, ← camelChars_hyphen_eq_capitalize_iff]
  by_cases hms : vendor = .ms
  · subst hms
    simp [Vendor.camelLead, Vendor.raisedLead]
  · rw [Vendor.raisedLead_eq_camelLead_iff.mpr hms, List.append_cancel_left_eq]
    simp [hms, eq_comm]

/-- **The camel-case key of a name is its style key exactly when the name is
keyed plainly.** -/
theorem styleKey_eq_camelCase_iff {property : String} :
    styleKey property = Text.camelCase property ↔ KeyedPlainly property := by
  cases hstrip : Vendor.strip? property with
  | none =>
    have hplain : KeyedPlainly property := by
      intro vendor rest hproperty
      rw [Vendor.strip?_eq_some_iff.mpr hproperty] at hstrip
      cases hstrip
    have hkeys : styleKey property = Text.camelCase property := by
      rw [styleKey, hstrip]
    exact iff_of_true hkeys hplain
  | some found =>
    obtain ⟨vendor, rest⟩ := found
    obtain rfl := Vendor.strip?_eq_some_iff.mp hstrip
    rw [styleKey_hyphenLead_eq_camelCase_iff]
    constructor
    · intro h vendor' rest' hproperty
      rw [Vendor.strip?_eq_some_iff.mpr hproperty] at hstrip
      cases hstrip
      exact h
    · intro h
      exact h vendor rest rfl

end StyleProbe
