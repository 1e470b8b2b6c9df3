import StyleProbe.Profile
import StyleProbe.Resolver

/-!
# Recognizing names

A name is looked up in two steps: the resolver searches its candidates for
the first key that the surface recognizes, and a profile recognizes the style
keys of its properties.

Main statements: `Resolver.value_name` (the answer on any surface),
`Resolver.value_name_eq_native_iff` and `Profile.recognizes_iff`.
-/

namespace StyleProbe

namespace Resolver

/-! ## The search -/

theorem value_firstRecognized (surface : Surface)
    (candidates : List (String × PropertyResolution)) :
    (firstRecognized surface candidates).value =
      match candidates.find? fun c => surface.recognizes c.1 with
      | some candidate => candidate.2
      | none => .unsupported := by
  induction candidates with
  | nil => rfl
  | cons candidate candidates ih =>
    obtain ⟨key, resolution⟩ := candidate
    cases hkey : surface.recognizes key with
    | true => simp [firstRecognized, Surface.ask, hkey]
    | false => simpa [firstRecognized, Surface.ask, hkey] using ih

/-- **The answer to a name**: the name itself if its own key is recognized,
and otherwise the form of the first vendor whose key is. -/
theorem value_name (resolver : Resolver) (key : PropertyName) :
    (resolver.name key).value =
      if resolver.surface.recognizes key.camelKey then .native key.text
      else
        match Vendor.all.find?
            fun vendor => resolver.surface.recognizes (key.vendorKey vendor)
          with
        | some vendor => .prefixed vendor (key.vendorText vendor)
        | none => .unsupported := by
  rw [name, value_firstRecognized, nameCandidates]
  cases hown : resolver.surface.recognizes key.camelKey with
  | true => simp [hown]
  | false =>
    have hcomp : ((fun c : String × PropertyResolution =>
        resolver.surface.recognizes c.1) ∘ fun vendor =>
          (key.vendorKey vendor,
            PropertyResolution.prefixed vendor (key.vendorText vendor))) =
        fun vendor => resolver.surface.recognizes (key.vendorKey vendor) := rfl
    rw [List.find?_cons_of_neg (by simp [hown]), List.find?_map, hcomp]
    cases Vendor.all.find?
        fun vendor => resolver.surface.recognizes (key.vendorKey vendor) with
    | none => rfl
    | some vendor => rfl

/-- A name is native when its own key is recognized, and not otherwise. -/
theorem value_name_eq_native_iff (resolver : Resolver) (key : PropertyName) :
    (resolver.name key).value = .native key.text ↔
      resolver.surface.recognizes key.camelKey = true := by
  rw [value_name]
  cases resolver.surface.recognizes key.camelKey with
  | true => simp
  | false =>
    cases Vendor.all.find?
        fun vendor => resolver.surface.recognizes (key.vendorKey vendor) with
    | none => simp
    | some vendor => simp

end Resolver

namespace Profile

/-! ## What a profile recognizes -/

variable {profile : Profile}

/-- The keys of a profile are the style keys of its properties. -/
theorem recognizes_iff {key : String} :
    profile.recognizes key = true ↔
      ∃ property ∈ profile.properties, styleKey property = key := by
  rw [recognizes, profile.styleKeys_eq, List.contains_iff_mem, List.mem_map]
  rfl

end Profile

theorem exists_propertyName_of_normal {property : String}
    (hnormal : normalName property = property) (hne : property ≠ "") :
    ∃ key, PropertyName.ofText? property = some key ∧ key.text = property := by
  have htrim : Text.trim property = property := by
    rw [← hnormal, normalName, Text.trim_lowerAscii, Text.trim_trim]
  have hkey := PropertyName.ofText?_text ⟨property, htrim, hne⟩
  exact ⟨_, hkey, rfl⟩

end StyleProbe
