import StyleProbe.Proofs.Profile.OwnNames
import StyleProbe.Proofs.Profile.PrefixedForms

/-!
# Names that share a key

A name is looked up by its key, but values are assigned to it by the name
itself. So an answer can be trusted as far as keys tell names apart, and
style keys do not: `ms-flex` and `-ms-flex` are both `msFlex`. A profile
that declares the second answers for the first, under a name that it does
not declare, and its probes ignore whatever is assigned under that name.

An answer is honoured on every profile exactly when no other name has the
key that was recognized for it.

Main statement: `Profile.honours_answer_iff`.
-/

namespace StyleProbe

/-! ## The keys of one name -/

theorem Vendor.eq_of_head?_camelLead {vendor vendor' : Vendor} :
    vendor.camelLead.toList.head? = vendor'.camelLead.toList.head? →
      vendor = vendor' := by
  cases vendor <;> cases vendor' <;> decide

namespace PropertyName

variable {name : PropertyName}

theorem vendorKey_ne_camelKey (vendor : Vendor) :
    name.vendorKey vendor ≠ name.camelKey := by
  intro h
  have hlead : 0 < vendor.camelLead.toList.length := by
    cases vendor <;> decide
  have hle := Text.length_le_capitalizeChars name.camelKey.toList
  have hlength := congrArg (fun key => key.toList.length) h
  simp only [vendorKey, Text.capitalize, String.toList_append,
    String.toList_ofList, List.length_append] at hlength
  omega

theorem head?_vendorKey (vendor : Vendor) :
    (name.vendorKey vendor).toList.head? =
      vendor.camelLead.toList.head? := by
  cases vendor <;> simp [vendorKey, Vendor.camelLead]

theorem vendorKey_inj {vendor vendor' : Vendor}
    (h : name.vendorKey vendor = name.vendorKey vendor') :
    vendor = vendor' := by
  have hfirst := congrArg (fun key => key.toList.head?) h
  simp only [head?_vendorKey] at hfirst
  exact Vendor.eq_of_head?_camelLead hfirst

end PropertyName

namespace Resolver

variable {resolver : Resolver} {key : PropertyName}
  {candidate candidate' : String × PropertyResolution}

theorem mem_nameCandidates :
    candidate ∈ nameCandidates key ↔
      candidate = (key.camelKey, .native key.text) ∨
        ∃ vendor, candidate =
          (key.vendorKey vendor, .prefixed vendor (key.vendorText vendor)) := by
  simp [nameCandidates, eq_comm]

theorem candidate_eq_of_key (h : candidate ∈ nameCandidates key)
    (h' : candidate' ∈ nameCandidates key) (hkey : candidate.1 = candidate'.1) :
    candidate = candidate' := by
  rcases mem_nameCandidates.mp h with rfl | ⟨vendor, rfl⟩
  · rcases mem_nameCandidates.mp h' with rfl | ⟨vendor', rfl⟩
    · rfl
    · exact absurd hkey.symm (PropertyName.vendorKey_ne_camelKey vendor')
  · rcases mem_nameCandidates.mp h' with rfl | ⟨vendor', rfl⟩
    · exact absurd hkey (PropertyName.vendorKey_ne_camelKey vendor)
    · rw [PropertyName.vendorKey_inj hkey]

theorem candidate_eq_of_resolution (h : candidate ∈ nameCandidates key)
    (h' : candidate' ∈ nameCandidates key)
    (hmeant : candidate.2 = candidate'.2) : candidate = candidate' := by
  rcases mem_nameCandidates.mp h with rfl | ⟨vendor, rfl⟩
  · rcases mem_nameCandidates.mp h' with rfl | ⟨vendor', rfl⟩
    · rfl
    · cases hmeant
  · rcases mem_nameCandidates.mp h' with rfl | ⟨vendor', rfl⟩
    · cases hmeant
    · cases hmeant
      rfl

theorem isSupported_of_mem_nameCandidates
    (h : candidate ∈ nameCandidates key) :
    candidate.2.isSupported = true := by
  rcases mem_nameCandidates.mp h with rfl | ⟨vendor, rfl⟩
  · rfl
  · rfl

theorem recognizes_of_answer (h : candidate ∈ nameCandidates key)
    (hanswer : (resolver.name key).value = candidate.2) :
    resolver.surface.recognizes candidate.1 = true := by
  have hsupported := isSupported_of_mem_nameCandidates h
  rw [name, value_firstRecognized] at hanswer
  split at hanswer
  · rename_i found hfound
    have hrecognized := List.find?_some hfound
    rwa [candidate_eq_of_resolution (List.mem_of_find?_eq_some hfound) h
      hanswer] at hrecognized
  · rw [← hanswer] at hsupported
    cases hsupported

/-- A surface that recognizes one key only answers the candidate that has
it. -/
theorem answer_of_recognizes_only (h : candidate ∈ nameCandidates key)
    (hknown : ∀ asked, resolver.surface.recognizes asked = true ↔
      asked = candidate.1) :
    (resolver.name key).value = candidate.2 := by
  rw [name, value_firstRecognized]
  split
  · rename_i found hfound
    have hrecognized := List.find?_some hfound
    have hkey := (hknown found.1).mp hrecognized
    rw [candidate_eq_of_key (List.mem_of_find?_eq_some hfound) h hkey]
  · rename_i hnone
    exact absurd ((hknown candidate.1).mpr rfl)
      (List.find?_eq_none.mp hnone candidate h)

end Resolver

/-! ## What is honoured -/

theorem Grammar.accept?_inherit (g : Grammar) :
    g.accept? "inherit" = some "inherit" := by
  have hvalues : Css.Component.parseValue "inherit" =
      .ok [.token (.ident "inherit")] := by
    with_unfolding_all rfl
  have hlower : Text.lowerAscii "inherit" = "inherit" := by decide
  unfold accept?
  rw [hvalues]
  simp [Css.Component.isWhitespace, acceptOne?, keyword?, wideKeywords, hlower]

namespace Profile

/-- The profile declares the property, and its probes keep what is assigned
under that name. -/
structure Honours (profile : Profile) (strategy : Strategy)
    (property : String) : Prop where
  declared : property ∈ profile.properties
  kept : ∃ name, PropertyName.ofText? property = some name ∧
    (Resolver.value ⟨profile.surface, strategy⟩ name "inherit").value =
      .supported "inherit"

/-- No value is kept under the name. -/
def Ignores (profile : Profile) (strategy : Strategy)
    (property : String) : Prop :=
  ∃ name, PropertyName.ofText? property = some name ∧ ∀ value,
    (Resolver.value ⟨profile.surface, strategy⟩ name value).value =
      .unsupported

section Normal

variable {profile : Profile} {property : String}

theorem honours_of_declared (strategy : Strategy)
    (hnormal : normalName property = property) (hne : property ≠ "")
    (hdeclared : property ∈ profile.properties) :
    profile.Honours strategy property := by
  obtain ⟨name, hname, rfl⟩ := exists_propertyName_of_normal hnormal hne
  refine ⟨hdeclared, name, hname, ?_⟩
  rw [value_eq_supported_iff, hnormal, findSome?_accept?_iff]
  cases hgrammar : profile.table.grammar? name.text with
  | none =>
    exact absurd hdeclared (profile.table.grammar?_eq_none_iff.mp hgrammar)
  | some grammar =>
    exact ⟨grammar, rfl, by simp [preferredForms, grammar.accept?_inherit]⟩

theorem ignores_of_not_declared (strategy : Strategy)
    (hnormal : normalName property = property) (hne : property ≠ "")
    (hdeclared : property ∉ profile.properties) :
    profile.Ignores strategy property := by
  obtain ⟨name, hname, rfl⟩ := exists_propertyName_of_normal hnormal hne
  refine ⟨name, hname, ?_⟩
  intro value
  cases hanswer :
      (Resolver.value ⟨profile.surface, strategy⟩ name value).value with
  | unsupported => rfl
  | supported kept =>
    rw [value_eq_supported_iff, hnormal, findSome?_accept?_iff] at hanswer
    obtain ⟨grammar, hgrammar, -⟩ := hanswer
    rw [profile.table.grammar?_eq_none_iff.mpr hdeclared] at hgrammar
    cases hgrammar

end Normal

/-! ## Answers -/

section Answers

variable {key : PropertyName} {asked : String} {resolution : PropertyResolution}

/-- A name that is answered is honoured, or it is ignored and another
declared name has the key that was recognized. -/
theorem honours_or_ignores_answer {profile : Profile} {strategy : Strategy}
    (hlower : Text.lowerAscii key.text = key.text)
    (hcandidate : (asked, resolution) ∈ Resolver.nameCandidates key)
    (hanswer : (Resolver.name ⟨profile.surface, strategy⟩ key).value =
      resolution) :
    profile.Honours strategy resolution.name ∨
      profile.Ignores strategy resolution.name ∧
        ∃ other ∈ profile.properties, other ≠ resolution.name ∧
          styleKey other = asked := by
  have hsupported : resolution.isSupported = true :=
    Resolver.isSupported_of_mem_nameCandidates hcandidate
  have hrecognized : profile.recognizes asked = true :=
    Resolver.recognizes_of_answer hcandidate hanswer
  obtain ⟨other, hother, hkey⟩ := recognizes_iff.mp hrecognized
  rw [← hanswer] at hsupported ⊢
  have hnormal := Resolver.normalName_resolved hlower hsupported
  obtain ⟨name, hname⟩ := Resolver.exists_resolvedName hsupported
  have hne := name.nonempty
  rw [hname] at hne
  by_cases hdeclared :
      (Resolver.name ⟨profile.surface, strategy⟩ key).value.name ∈
        profile.properties
  · exact .inl (honours_of_declared strategy hnormal hne hdeclared)
  · refine .inr ⟨ignores_of_not_declared strategy hnormal hne hdeclared, other,
      hother, ?_, hkey⟩
    rintro rfl
    exact hdeclared hother

/-- Any name with the key of a candidate makes some profile give that
answer, one that declares the name and nothing else. -/
theorem exists_answer_of_styleKey {other : String}
    (hcandidate : (asked, resolution) ∈ Resolver.nameCandidates key)
    (hnormal : normalName other = other) (hne : other ≠ "")
    (hkey : styleKey other = asked) :
    ∃ profile : Profile, profile.properties = [other] ∧
      ∀ strategy, (Resolver.name ⟨profile.surface, strategy⟩ key).value =
        resolution := by
  obtain ⟨profile, -, hproperties⟩ := exists_lone hnormal hne
  refine ⟨profile, hproperties, fun strategy => ?_⟩
  -- The profile has one key, so no earlier candidate gets in the way.
  apply Resolver.answer_of_recognizes_only hcandidate
  intro key'
  change profile.recognizes key' = true ↔ _
  rw [recognizes_iff, hproperties]
  simp [hkey, eq_comm]

/-- **An answer can be trusted as far as keys tell names apart.** A name that
is answered is honoured, or it is ignored and another declared name has the
key that was recognized. So it is honoured on every profile exactly when no
other name has that key. -/
theorem honours_answer_iff (hlower : Text.lowerAscii key.text = key.text)
    (hcandidate : (asked, resolution) ∈ Resolver.nameCandidates key) :
    (∀ (profile : Profile) (strategy : Strategy),
      (Resolver.name ⟨profile.surface, strategy⟩ key).value = resolution →
      profile.Honours strategy resolution.name ∨
        profile.Ignores strategy resolution.name ∧
          ∃ other ∈ profile.properties, other ≠ resolution.name ∧
            styleKey other = asked) ∧
    ((∀ (profile : Profile) (strategy : Strategy),
        (Resolver.name ⟨profile.surface, strategy⟩ key).value = resolution →
        profile.Honours strategy resolution.name) ↔
      ∀ other, normalName other = other → other ≠ "" →
        styleKey other = asked → other = resolution.name) := by
  refine ⟨fun profile strategy => honours_or_ignores_answer hlower hcandidate,
    ?_, ?_⟩
  · intro h other hnormal hne hkey
    -- Declared alone, the other name would be answered for.
    obtain ⟨profile, hproperties, hanswer⟩ :=
      exists_answer_of_styleKey hcandidate hnormal hne hkey
    have hdeclared := (h profile .default (hanswer .default)).declared
    rw [hproperties, List.mem_singleton] at hdeclared
    exact hdeclared.symm
  · intro h profile strategy hanswer
    rcases honours_or_ignores_answer hlower hcandidate hanswer with hhonours |
      ⟨-, other, hother, hdiffers, hkey⟩
    · exact hhonours
    · obtain ⟨entry, hentry, rfl⟩ := List.mem_map.mp hother
      exact absurd (h entry.1 (profile.table.normal entry hentry)
        (profile.table.named entry hentry) hkey) hdiffers

end Answers

/-- The key of `ms-flex` is the key of another name. -/
theorem honours_answer_iff_msFlex :
    ∃ key, PropertyName.ofText? "ms-flex" = some key ∧
      Text.lowerAscii key.text = key.text ∧
      ("msFlex", .native "ms-flex") ∈ Resolver.nameCandidates key ∧
      ¬ ∀ (profile : Profile) (strategy : Strategy),
        (Resolver.name ⟨profile.surface, strategy⟩ key).value =
          .native "ms-flex" →
        profile.Honours strategy "ms-flex" := by
  let key : PropertyName := ⟨"ms-flex", by decide +kernel, by decide⟩
  have hlower : Text.lowerAscii key.text = key.text := by decide +kernel
  have hcandidate :
      ("msFlex", .native "ms-flex") ∈ Resolver.nameCandidates key := by
    decide +kernel
  refine ⟨key, key.ofText?_text, hlower, hcandidate, ?_⟩
  intro h
  have hunique := (honours_answer_iff hlower hcandidate).2.mp h
  have hshared : "-ms-flex" = "ms-flex" :=
    hunique "-ms-flex" (by decide +kernel) (by decide) (by decide +kernel)
  exact absurd hshared (by decide)

/-- A profile that declares `-ms-flex` and nothing else answers for `ms-flex`,
in small letters, and its probes keep no value for it. -/
theorem name_msFlex_ignored :
    ∃ profile, ofSource (loneSource "-ms-flex") = .ok profile ∧
      ∃ key, PropertyName.ofText? "ms-flex" = some key ∧
        Text.lowerAscii key.text = key.text ∧
        (Resolver.name ⟨profile.surface, .default⟩ key).value =
          .native "ms-flex" ∧
        "ms-flex" ∉ profile.properties ∧
        (Resolver.value ⟨profile.surface, .default⟩ key "inherit").value =
          .unsupported := by
  refine ⟨_, rfl, _, rfl, by decide +kernel, by decide +kernel,
    by decide +kernel, by decide +kernel⟩

end Profile

end StyleProbe
