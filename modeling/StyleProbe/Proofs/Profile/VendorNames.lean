import StyleProbe.Proofs.Profile.Capability
import StyleProbe.Proofs.Property.StyleKey

/-!
# Asking for what has a vendor's form

A profile that declares a vendor's form of a name finds the name when it is
asked for it: the key that it has for the form is the key that the vendor is
tried with, whatever the name is made of. The name itself, or the form of a
vendor that comes before, may be found first.

Main statement: `Profile.name_of_vendorForm`.
-/

namespace StyleProbe

namespace Vendor

theorem exists_find?_all {p : Vendor → Bool} {vendor : Vendor}
    (h : p vendor = true) :
    ∃ found, all.find? p = some found ∧
      all.idxOf found ≤ all.idxOf vendor := by
  have hself : all.find? (· == vendor) = some vendor := by
    cases vendor <;> decide
  refine exists_find?_of_imp (fun other hother => ?_) hself
  rwa [beq_iff_eq.mp hother]

end Vendor

namespace Resolver

/-- **A name with a vendor's key that is recognized is answered**, with
itself or with the form of a vendor that is tried no later. -/
theorem name_of_vendorKey {resolver : Resolver} {key : PropertyName}
    {vendor : Vendor}
    (h : resolver.surface.recognizes (key.vendorKey vendor) = true) :
    (resolver.name key).value = .native key.text ∨
      ∃ found, (resolver.name key).value =
          .prefixed found (key.vendorText found) ∧
        Vendor.all.idxOf found ≤ Vendor.all.idxOf vendor := by
  rw [value_name]
  split
  · exact .inl rfl
  · obtain ⟨found, hfound, hle⟩ := Vendor.exists_find?_all
      (p := fun vendor => resolver.surface.recognizes (key.vendorKey vendor)) h
    rw [hfound]
    exact .inr ⟨found, rfl, hle⟩

end Resolver

/-- What follows a vendor prefix in a trimmed text has no blanks at its end,
so it is trimmed if it does not start with one. -/
theorem Text.trim_of_hyphenLead {vendor : Vendor} {rest : String}
    (htrim : Text.trim (vendor.hyphenLead ++ rest) = vendor.hyphenLead ++ rest)
    (hne : rest ≠ "")
    (hstart : ∀ c ∈ rest.toList.head?, Text.isBlank c = false) :
    Text.trim rest = rest := by
  have hsome : rest.toList ≠ [] := fun hnil =>
    hne (String.toList_inj.mp hnil)
  rw [← String.toList_inj, Text.toList_trim]
  refine trimBy_eq_self hstart fun c hc => ?_
  -- The last character is the one of the whole text.
  have hlast := getLast?_trimBy Text.isBlank (vendor.hyphenLead ++ rest).toList
  rw [← Text.toList_trim, htrim, String.toList_append, List.getLast?_append,
    Option.or_of_isSome (List.getLast?_isSome.mpr hsome)] at hlast
  exact hlast c hc

namespace Profile

theorem normalName_of_mem_properties {profile : Profile} {property : String}
    (h : property ∈ profile.properties) : normalName property = property := by
  obtain ⟨entry, hentry, rfl⟩ := List.mem_map.mp h
  exact profile.table.normal entry hentry

/-- **A name with a declared vendor's form is found**: a profile answers it
with the name itself or with the form of a vendor that is tried no later. The
key that a vendor is tried with is the style key of the vendor's form, for
every name. -/
theorem name_of_vendorForm :
    (∀ (name : PropertyName) (vendor : Vendor),
      name.vendorKey vendor = styleKey (name.vendorText vendor)) ∧
    ∀ (profile : Profile) (strategy : Strategy) (vendor : Vendor)
      (rest : String), vendor.hyphenLead ++ rest ∈ profile.properties →
      rest ≠ "" → (∀ c ∈ rest.toList.head?, Text.isBlank c = false) →
      ∃ key, PropertyName.ofText? rest = some key ∧
        ((Resolver.name ⟨profile.surface, strategy⟩ key).value =
            .native rest ∨
          ∃ found, (Resolver.name ⟨profile.surface, strategy⟩ key).value =
              .prefixed found (found.hyphenLead ++ rest) ∧
            Vendor.all.idxOf found ≤ Vendor.all.idxOf vendor) := by
  refine ⟨fun name vendor => (name.styleKey_vendorText vendor).symm, ?_⟩
  intro profile strategy vendor rest hdeclared hne hstart
  have htrim : Text.trim rest = rest := by
    refine @Text.trim_of_hyphenLead vendor _ ?_ hne hstart
    have hnormal := normalName_of_mem_properties hdeclared
    rw [← hnormal, normalName, Text.trim_lowerAscii, Text.trim_trim]
  let key : PropertyName := ⟨rest, htrim, hne⟩
  have hkey : profile.recognizes (key.vendorKey vendor) = true :=
    recognizes_iff.mpr ⟨_, hdeclared, key.styleKey_vendorText vendor⟩
  exact ⟨key, key.ofText?_text, Resolver.name_of_vendorKey hkey⟩

/-- What declares two vendors' forms of a name that starts with a vendor prefix
itself and has a letter outside ASCII. -/
def twiceSource : ProfileSource where
  name := "twice"
  properties := [
    { name := "-o--webkit-größe", keywords := ["auto"] },
    { name := "-ms--webkit-größe", keywords := ["auto"] }]

/-- Of two declared forms the one of the earlier vendor is found. -/
theorem name_of_vendorForm_twice :
    ∃ profile key, ofSource twiceSource = .ok profile ∧
      PropertyName.ofText? "-webkit-größe" = some key ∧
      Vendor.o.hyphenLead ++ "-webkit-größe" ∈ profile.properties ∧
      ((Resolver.name ⟨profile.surface, .default⟩ key).value =
          .native "-webkit-größe" ∨
        ∃ found, (Resolver.name ⟨profile.surface, .default⟩ key).value =
            .prefixed found (found.hyphenLead ++ "-webkit-größe") ∧
          Vendor.all.idxOf found ≤ Vendor.all.idxOf Vendor.o) ∧
      (Resolver.name ⟨profile.surface, .default⟩ key).value =
        .prefixed .ms "-ms--webkit-größe" := by
  have hform : Vendor.o.hyphenLead ++ "-webkit-größe" = "-o--webkit-größe" := by
    decide +kernel
  let key : PropertyName := ⟨"-webkit-größe", by decide +kernel, by decide⟩
  obtain ⟨profile, hprofile, hdeclared, hanswer⟩ :
      ∃ profile, ofSource twiceSource = .ok profile ∧
        "-o--webkit-größe" ∈ profile.properties ∧
        (Resolver.name ⟨profile.surface, .default⟩ key).value =
          .prefixed .ms "-ms--webkit-größe" := by
    refine ⟨_, rfl, by decide +kernel, by decide +kernel⟩
  rw [← hform] at hdeclared
  have hstart : ∀ c ∈ "-webkit-größe".toList.head?, Text.isBlank c = false := by
    have hfirst : "-webkit-größe".toList.head? = some '-' := by decide
    rintro c hc
    cases hfirst.symm.trans hc
    decide
  obtain ⟨key', hkey', hfound⟩ := name_of_vendorForm.2 profile .default .o
    "-webkit-größe" hdeclared (by decide) hstart
  have hkey : PropertyName.ofText? "-webkit-größe" = some key :=
    key.ofText?_text
  obtain rfl : key = key' := Option.some.inj (hkey.symm.trans hkey')
  exact ⟨profile, key, hprofile, hkey, hdeclared, hfound, hanswer⟩

end Profile

end StyleProbe
