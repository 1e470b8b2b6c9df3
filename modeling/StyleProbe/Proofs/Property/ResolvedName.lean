import StyleProbe.Proofs.Profile.Recognition

/-!
# Names that are answered

A resolver answers a name with the name itself or with a vendor's form of
it. Either is a name again, so the value can be asked for under it: a prefix
in front of a trimmed text that is not blank leaves no blank at an end. And
if the name is in small letters, the answer is a normal name.

Main statements: `Resolver.exists_resolvedName` and
`Resolver.normalName_resolved`.
-/

namespace StyleProbe

theorem Vendor.lowerAscii_hyphenLead (vendor : Vendor) :
    Text.lowerAscii vendor.hyphenLead = vendor.hyphenLead := by
  cases vendor <;> decide

namespace PropertyName

variable (name : PropertyName)

theorem trim_vendorText (vendor : Vendor) :
    Text.trim (name.vendorText vendor) = name.vendorText vendor := by
  have hne : name.text.toList ≠ [] := by
    intro h
    exact name.nonempty (String.toList_inj.mp h)
  rw [← String.toList_inj, Text.toList_trim, vendorText, String.toList_append]
  apply trimBy_eq_self
  · intro c hc
    have hhyphen : '-' = c := by
      cases vendor <;> simpa [Vendor.hyphenLead] using hc
    rw [← hhyphen]
    decide
  · intro c hc
    -- The last character is the one of the trimmed name.
    rw [List.getLast?_append,
      Option.or_of_isSome (List.getLast?_isSome.mpr hne), ← name.trimmed,
      Text.toList_trim] at hc
    exact getLast?_trimBy Text.isBlank _ c hc

/-- The vendor's form of a name, as a name. -/
def withVendor (vendor : Vendor) : PropertyName where
  text := name.vendorText vendor
  trimmed := name.trim_vendorText vendor
  nonempty := by
    rw [vendorText, Ne, String.append_eq_empty_iff]
    exact fun h => name.nonempty h.2

end PropertyName

namespace Resolver

variable {resolver : Resolver} {key : PropertyName}

theorem resolved_cases (h : (resolver.name key).value.isSupported = true) :
    (resolver.name key).value = .native key.text ∨
      ∃ vendor, (resolver.name key).value =
        .prefixed vendor (key.vendorText vendor) := by
  rw [value_name] at h ⊢
  split
  · exact .inl rfl
  · rename_i hown
    rw [if_neg hown] at h
    split
    · exact .inr ⟨_, rfl⟩
    · rename_i hnone
      rw [hnone] at h
      cases h

/-- **What is answered is a name.** -/
theorem exists_resolvedName
    (h : (resolver.name key).value.isSupported = true) :
    ∃ name : PropertyName, name.text = (resolver.name key).value.name := by
  rcases resolved_cases h with hnative | ⟨vendor, hprefixed⟩
  · exact ⟨key, by rw [hnative]; rfl⟩
  · exact ⟨key.withVendor vendor, by rw [hprefixed]; rfl⟩

/-- What is answered passes the check of names, and stays as it is. -/
theorem ofText?_resolved (h : (resolver.name key).value.isSupported = true) :
    ∃ name, PropertyName.ofText? (resolver.name key).value.name = some name ∧
      name.text = (resolver.name key).value.name := by
  obtain ⟨name, hname⟩ := exists_resolvedName h
  exact ⟨name, by rw [← hname, PropertyName.ofText?_text], hname⟩

/-- The answer to a name in small letters is a normal name. -/
theorem normalName_resolved (hlower : Text.lowerAscii key.text = key.text)
    (h : (resolver.name key).value.isSupported = true) :
    normalName (resolver.name key).value.name =
      (resolver.name key).value.name := by
  obtain ⟨name, hname⟩ := exists_resolvedName h
  have hsmall : Text.lowerAscii name.text = name.text := by
    rw [hname]
    rcases resolved_cases h with hnative | ⟨vendor, hprefixed⟩
    · rw [hnative]
      exact hlower
    · rw [hprefixed]
      simp only [PropertyResolution.name, PropertyName.vendorText,
        Text.lowerAscii_append, vendor.lowerAscii_hyphenLead, hlower]
  rw [← hname, normalName, name.trimmed, hsmall]

end Resolver

end StyleProbe
