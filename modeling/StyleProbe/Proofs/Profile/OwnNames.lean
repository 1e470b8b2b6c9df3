import StyleProbe.Proofs.Profile.Recognition
import StyleProbe.Proofs.Property.StyleKey

/-!
# Asking for a declared name

A property is declared under its style key and asked for under its camel-case
key. A declared name is found again in every profile when the two keys are
one, which is so for the names that are keyed plainly. Any other name is
found only where some other property happens to have its camel-case key; a
profile that declares nothing else does not find it.

Main statement: `Profile.resolvesToItself_iff`.
-/

namespace StyleProbe

namespace Profile

/-- Asked for the name of the property as it is declared, the profile answers
with that name, whichever way it is probed. -/
def ResolvesToItself (profile : Profile) (property : String) : Prop :=
  ∀ strategy, ∃ key, PropertyName.ofText? property = some key ∧
    (Resolver.name ⟨profile.surface, strategy⟩ key).value = .native property

theorem resolvesToItself_iff_recognizes (profile : Profile)
    {property : String} (hnormal : normalName property = property)
    (hne : property ≠ "") :
    profile.ResolvesToItself property ↔
      profile.recognizes (Text.camelCase property) = true := by
  obtain ⟨key, hkey, rfl⟩ := exists_propertyName_of_normal hnormal hne
  constructor
  · intro h
    obtain ⟨key', hkey', hvalue⟩ := h .default
    rw [hkey] at hkey'
    cases hkey'
    exact (Resolver.value_name_eq_native_iff _ key).mp hvalue
  · intro h strategy
    exact ⟨key, hkey, (Resolver.value_name_eq_native_iff _ key).mpr h⟩

/-- What declares the one property and nothing else. -/
def loneSource (property : String) : ProfileSource where
  name := "lone"
  properties := [{ name := property, types := [.any] }]

/-- Every normal name can be declared alone. -/
theorem exists_lone {property : String}
    (hnormal : normalName property = property) (hne : property ≠ "") :
    ∃ profile, ofSource (loneSource property) = .ok profile ∧
      profile.properties = [property] := by
  obtain ⟨table, hinsert, hnames⟩ : ∃ table,
      PropertyTable.empty.insert? property (.ofLists [] [] [.any]) =
        .ok table ∧ table.names = [property] := by
    have hnamed : ¬ normalName property = "" := by rwa [hnormal]
    have hgrammar : ¬ (Grammar.ofLists [] [] [.any]).isEmpty = true := by
      decide
    have hnew : normalName property ∉ PropertyTable.empty.names := by
      simp [PropertyTable.names, PropertyTable.empty]
    rw [PropertyTable.insert?, dif_neg hnamed, dif_neg hgrammar, dif_neg hnew]
    refine ⟨_, rfl, ?_⟩
    simp [PropertyTable.names, PropertyTable.empty, insertEntry, hnormal]
  have htitle : Text.trim "lone" ≠ "" := by decide
  refine ⟨ofTable (Text.trim "lone") "" table, ?_, hnames⟩
  simp [ofSource, loneSource, htitle, addEntries, addEntry, hinsert, bind,
    Except.bind, pure, Except.pure]

/-- **A declared name resolves to itself in every profile exactly when it is
keyed plainly**: it has no vendor prefix, or one other than `-ms-` that a
word character follows. -/
theorem resolvesToItself_iff {property : String}
    (hnormal : normalName property = property) (hne : property ≠ "") :
    (∀ profile : Profile, property ∈ profile.properties →
        profile.ResolvesToItself property) ↔ KeyedPlainly property := by
  constructor
  · intro h
    obtain ⟨profile, -, hproperties⟩ := exists_lone hnormal hne
    have hself := h profile (by simp [hproperties])
    rw [resolvesToItself_iff_recognizes profile hnormal hne,
      recognizes_iff] at hself
    obtain ⟨declared, hdeclared, hkeys⟩ := hself
    rw [hproperties, List.mem_singleton] at hdeclared
    subst hdeclared
    exact styleKey_eq_camelCase_iff.mp hkeys
  · intro hplain profile hdeclared
    rw [resolvesToItself_iff_recognizes profile hnormal hne, recognizes_iff]
    exact ⟨property, hdeclared, styleKey_eq_camelCase_iff.mpr hplain⟩

/-- A name with a vendor prefix that is found again. -/
theorem resolvesToItself_webkitLineClamp :
    normalName "-webkit-line-clamp" = "-webkit-line-clamp" ∧
      "-webkit-line-clamp" ≠ "" ∧
      ∃ profile, ofSource (loneSource "-webkit-line-clamp") = .ok profile ∧
        "-webkit-line-clamp" ∈ profile.properties ∧
        profile.ResolvesToItself "-webkit-line-clamp" := by
  have hnormal : normalName "-webkit-line-clamp" = "-webkit-line-clamp" := by
    decide +kernel
  have hne : "-webkit-line-clamp" ≠ "" := by decide
  have hplain : KeyedPlainly "-webkit-line-clamp" :=
    styleKey_eq_camelCase_iff.mp (by decide +kernel)
  obtain ⟨profile, hprofile, hproperties⟩ := exists_lone hnormal hne
  have hdeclared : "-webkit-line-clamp" ∈ profile.properties := by
    simp [hproperties]
  have hself := (resolvesToItself_iff hnormal hne).mpr hplain profile hdeclared
  exact ⟨hnormal, hne, profile, hprofile, hdeclared, hself⟩

/-- A host that knows a property as `msFlex` does not find it when it is asked
for `-ms-flex`, the name under which it declares the property. -/
theorem name_msFlex_unsupported :
    ∃ profile, ofSource (loneSource "-ms-flex") = .ok profile ∧
      "-ms-flex" ∈ profile.properties ∧
      profile.recognizes "msFlex" = true ∧
      ∃ key, PropertyName.ofText? "-ms-flex" = some key ∧
        (Resolver.name ⟨profile.surface, .default⟩ key).value =
          .unsupported := by
  refine ⟨_, rfl, by decide +kernel, by decide +kernel, _, rfl, ?_⟩
  decide +kernel

end Profile

end StyleProbe
