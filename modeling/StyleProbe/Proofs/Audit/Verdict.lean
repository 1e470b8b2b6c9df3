import StyleProbe.Proofs.Audit.Account
import StyleProbe.Proofs.Profile.PrefixedForms

/-!
# Verdicts on a profile

Whether an entry counts as native is read off the text that was kept for its
value: one that starts with a vendor prefix takes a prefix. On a profile the
text tells the truth. A grammar keeps the prefix of a form that it accepts,
so a kept text without a prefix is what it keeps of the bare value, and if
the bare value is refused, the kept text starts with the prefix of the first
vendor whose form is accepted.

A style sheet's properties are in small letters, and so are the names that
are answered for them. These are names as a profile keeps them, so the value
is asked for under the name that is answered.

Main statement: `Session.audit_truthful`.
-/

namespace StyleProbe

/-! ## Small letters -/

theorem Vendor.lowerAscii_stripped {text : String}
    (h : Text.lowerAscii text = text) :
    Text.lowerAscii (stripped text) = stripped text := by
  unfold stripped
  split
  · rename_i vendor rest hstrip
    obtain rfl := strip?_eq_some_iff.mp hstrip
    rw [Text.lowerAscii_append, vendor.lowerAscii_hyphenLead] at h
    rw [← String.toList_inj, String.toList_append, String.toList_append] at h
    exact String.toList_inj.mp (List.append_cancel_left h)
  · exact h

theorem PropertyName.lowerAscii_of_ofText? {text : String}
    {name : PropertyName} (hname : ofText? text = some name)
    (h : Text.lowerAscii text = text) :
    Text.lowerAscii name.text = name.text := by
  unfold ofText? at hname
  split at hname
  · cases hname
  · cases hname
    rw [← Text.trim_lowerAscii, h]

namespace Css

theorem Declaration.lowerAscii_property {values : List Component}
    {declaration : Declaration}
    (h : Declaration.ofComponents? values = some declaration) :
    Text.lowerAscii declaration.property = declaration.property := by
  unfold ofComponents? at h
  split at h
  · split at h
    · split at h
      · cases h
      · cases h
        exact Text.lowerAscii_lowerAscii _
    · cases h
  · cases h

end Css

theorem Audit.lowerAscii_property_of_mem {rules : List Css.Rule}
    {declared : String × Css.Declaration}
    (h : declared ∈ declarations rules) :
    Text.lowerAscii declared.2.property = declared.2.property := by
  obtain ⟨rule, -, hmem⟩ := List.mem_flatMap.mp h
  obtain ⟨declaration, hdeclaration, rfl⟩ := List.mem_map.mp hmem
  obtain ⟨values, -, hvalues⟩ := List.mem_filterMap.mp hdeclaration
  exact Css.Declaration.lowerAscii_property hvalues

/-! ## The preferred vendor -/

/-- The first vendor whose form of the value the grammar accepts. -/
def Grammar.preferredVendor? (g : Grammar) (value : String) : Option Vendor :=
  Vendor.all.find? fun vendor => (g.accept? (vendor.hyphenLead ++ value)).isSome

namespace Grammar

variable {g : Grammar} {value : String}

theorem exists_preferredVendor {vendor : Vendor}
    (h : g.accept? (vendor.hyphenLead ++ value) ≠ none) :
    ∃ preferred, g.preferredVendor? value = some preferred := by
  apply Option.isSome_iff_exists.mp
  rw [preferredVendor?, List.find?_isSome]
  exact ⟨vendor, vendor.mem_all, Option.isSome_iff_ne_none.mpr h⟩

theorem accept?_preferredVendor {vendor : Vendor}
    (h : g.preferredVendor? value = some vendor) :
    ∃ kept, g.accept? (vendor.hyphenLead ++ value) = some kept := by
  have haccepted := List.find?_some h
  exact Option.isSome_iff_exists.mp haccepted

/-- If the bare value is refused, the preferred vendor's form is kept. -/
theorem findSome?_preferredForms_of_refused {vendor : Vendor}
    (hbare : g.accept? value = none)
    (hvendor : g.preferredVendor? value = some vendor) :
    (preferredForms value).findSome? g.accept? =
      g.accept? (vendor.hyphenLead ++ value) := by
  obtain ⟨haccepted, before, after, hall, hbefore⟩ :=
    List.find?_eq_some_iff_append.mp hvendor
  -- The vendors before the preferred one keep nothing.
  have hrefused : before.findSome?
      (g.accept? ∘ fun vendor => vendor.hyphenLead ++ value) = none := by
    rw [List.findSome?_eq_none_iff]
    intro other hother
    simpa using hbefore other hother
  obtain ⟨kept, hkept⟩ := Option.isSome_iff_exists.mp haccepted
  rw [preferredForms_eq, List.findSome?_cons, hbare]
  dsimp only
  rw [List.findSome?_map, hall, List.findSome?_append, hrefused]
  simp [hkept]

theorem accept?_of_findSome?_preferredForms {kept : String}
    (h : (preferredForms value).findSome? g.accept? = some kept) :
    g.accept? value = some kept ∨
      ∃ vendor : Vendor,
        g.accept? (vendor.hyphenLead ++ value) = some kept := by
  obtain ⟨before, form, after, hforms, hkept, -⟩ :=
    List.findSome?_eq_some_iff.mp h
  have hmem : form ∈ preferredForms value := by
    rw [hforms]
    simp
  rw [preferredForms_eq, List.mem_cons, List.mem_map] at hmem
  rcases hmem with rfl | ⟨vendor, -, rfl⟩
  · exact .inl hkept
  · exact .inr ⟨vendor, hkept⟩

end Grammar

/-! ## Entries -/

namespace AuditEntry

/-- The verdict tells what the profile's grammar does with the value without
a vendor prefix. -/
structure Truthful (profile : Profile) (entry : AuditEntry) : Prop where
  native : entry.status = .native →
    ∃ name grammar kept,
      entry.resolvedProperty = .native name ∧
      profile.table.grammar? name = some grammar ∧
      grammar.accept? (Vendor.stripped entry.value) = some kept ∧
      entry.resolvedValue = .supported kept
  needsPrefix : ∀ grammar,
    profile.table.grammar? entry.resolvedProperty.name = some grammar →
    grammar.accept? (Vendor.stripped entry.value) = none →
    (∃ vendor : Vendor, grammar.accept?
      (vendor.hyphenLead ++ Vendor.stripped entry.value) ≠ none) →
    ∃ vendor rest,
      grammar.preferredVendor? (Vendor.stripped entry.value) = some vendor ∧
      grammar.accept? (vendor.hyphenLead ++ Vendor.stripped entry.value) =
        some (vendor.hyphenLead ++ rest) ∧
      entry.status = .needsPrefix ∧
      entry.resolvedValue = .supported (vendor.hyphenLead ++ rest)

theorem exists_of_status_native {entry : AuditEntry}
    (h : entry.status = .native) :
    ∃ name kept, entry.resolvedProperty = .native name ∧
      entry.resolvedValue = .supported kept ∧ Vendor.strip? kept = none := by
  unfold status at h
  split at h
  · cases h
  · cases h
  · cases h
  · rename_i name kept hproperty hvalue
    refine ⟨name, kept, hproperty, hvalue, ?_⟩
    cases hstrip : Vendor.strip? kept with
    | none => rfl
    | some found =>
      rw [hstrip] at h
      cases h

/-- An honoured property whose value is kept with a prefix needs one. -/
theorem status_of_strip? {entry : AuditEntry} {kept : String}
    (hproperty : entry.resolvedProperty.isSupported = true)
    (hvalue : entry.resolvedValue = .supported kept)
    (hkept : (Vendor.strip? kept).isSome = true) :
    entry.status = .needsPrefix := by
  unfold status
  rw [hvalue]
  cases hresolved : entry.resolvedProperty with
  | unsupported =>
    rw [hresolved] at hproperty
    cases hproperty
  | native name => simp [hkept]
  | prefixed vendor name => rfl

/-- What a profile's grammars say about a declaration in small letters is
what its entry holds. -/
theorem Accounts.resolvedValue_iff {profile : Profile} {strategy : Strategy}
    {declared : String × Css.Declaration} {entry : AuditEntry}
    (h : entry.Accounts ⟨profile.surface, strategy⟩ declared)
    (hlower : Text.lowerAscii declared.2.property = declared.2.property)
    (hsupported : entry.resolvedProperty.isSupported = true)
    {kept : String} :
    entry.resolvedValue = .supported kept ↔
      ∃ grammar,
        profile.table.grammar? entry.resolvedProperty.name = some grammar ∧
        (preferredForms (Vendor.stripped entry.value)).findSome?
          grammar.accept? = some kept := by
  obtain ⟨key, hkey, hresolved⟩ := h.resolvedProperty
  obtain ⟨name, -, hname, hasked⟩ := h.resolvedValue hsupported
  -- The profile files the answered name as it stands.
  have hnormal : normalName name.text = entry.resolvedProperty.name := by
    have hsmall := PropertyName.lowerAscii_of_ofText? hkey
      (Vendor.lowerAscii_stripped hlower)
    rw [hresolved] at hsupported
    rw [hname, hresolved]
    exact Resolver.normalName_resolved hsmall hsupported
  rw [hasked, profile.value_eq_supported_iff, hnormal, h.value,
    profile.findSome?_accept?_iff]

/-- **An entry on a profile tells the truth** about a declaration in small
letters. -/
theorem Accounts.truthful {profile : Profile} {strategy : Strategy}
    {declared : String × Css.Declaration} {entry : AuditEntry}
    (h : entry.Accounts ⟨profile.surface, strategy⟩ declared)
    (hlower : Text.lowerAscii declared.2.property = declared.2.property) :
    entry.Truthful profile where
  native := by
    intro hstatus
    obtain ⟨name, kept, hproperty, hvalue, hbare⟩ :=
      exists_of_status_native hstatus
    have hsupported : entry.resolvedProperty.isSupported = true := by
      rw [hproperty]
      rfl
    obtain ⟨grammar, hgrammar, hfound⟩ :=
      (h.resolvedValue_iff hlower hsupported).mp hvalue
    rw [hproperty] at hgrammar
    refine ⟨name, grammar, kept, hproperty, hgrammar, ?_, hvalue⟩
    rcases Grammar.accept?_of_findSome?_preferredForms hfound with hkept |
      ⟨vendor, hkept⟩
    · exact hkept
    · -- A vendor's form would have left its prefix in front.
      obtain ⟨rest, rfl⟩ := Grammar.accept?_hyphenLead hkept
      rw [Vendor.strip?_hyphenLead] at hbare
      cases hbare
  needsPrefix := by
    intro grammar hgrammar hrefused hsome
    obtain ⟨accepted, haccepted⟩ := hsome
    obtain ⟨vendor, hvendor⟩ := Grammar.exists_preferredVendor haccepted
    have hsupported : entry.resolvedProperty.isSupported = true := by
      cases hresolved : entry.resolvedProperty with
      | unsupported =>
        -- It would have the empty name, and no grammar is filed there.
        rw [hresolved] at hgrammar
        exact absurd rfl (profile.table.ne_empty_of_grammar? hgrammar)
      | _ => rfl
    have hfound := Grammar.findSome?_preferredForms_of_refused hrefused hvendor
    obtain ⟨kept, hkept⟩ := Grammar.accept?_preferredVendor hvendor
    obtain ⟨rest, rfl⟩ := Grammar.accept?_hyphenLead hkept
    have hvalue : entry.resolvedValue =
        .supported (vendor.hyphenLead ++ rest) :=
      (h.resolvedValue_iff hlower hsupported).mpr
        ⟨grammar, hgrammar, hfound.trans hkept⟩
    refine ⟨vendor, rest, hvendor, hkept, ?_, hvalue⟩
    apply status_of_strip? hsupported hvalue
    rw [Vendor.strip?_hyphenLead]
    rfl

end AuditEntry

/-! ## Audits -/

namespace Session

/-- **The audit of a style sheet tells the truth** on every profile, however
it is probed and whatever was asked before: each of its entries does. -/
theorem audit_truthful (profile : Profile) (strategy : Strategy)
    (steps : List Step) {css : String} {report : AuditReport}
    (hreport : (step ⟨profile.surface, strategy⟩
      (after ⟨profile.surface, strategy⟩ .empty steps)
      (.audit css)).value.1 = .report report) :
    ∀ entry ∈ report.entries, entry.Truthful profile := by
  cases htokens : Css.tokenize css with
  | error e =>
    rw [step_audit_of_error _ _ htokens] at hreport
    cases hreport
  | ok tokens =>
    obtain ⟨report', hreport', haccount⟩ := exists_report _ steps htokens
    rw [hreport'] at hreport
    cases hreport
    intro entry hentry
    obtain ⟨declared, hdeclared, haccounts⟩ :=
      AuditEntry.exists_of_accounts haccount hentry
    have hmem := List.mem_of_mem_filter hdeclared
    exact haccounts.truthful (Audit.lowerAscii_property_of_mem hmem)

/-- A value that is accepted bare, and one that two vendors' forms of are. -/
theorem audit_truthful_box :
    ∃ profile report,
      Profile.ofSource {
        name := "boxes"
        properties := [
          { name := "transition", keywords := ["all"] },
          { name := "display", keywords := ["-moz-box", "-webkit-box"] }] } =
        .ok profile ∧
      (step ⟨profile.surface, .isolated⟩
        (after ⟨profile.surface, .isolated⟩ .empty [])
        (.audit "a{transition:ALL;display:-ms-box}")).value.1 =
          .report report ∧
      report.entries.map AuditEntry.verdict =
        [(.native "transition", .supported "all", .native),
          (.native "display", .supported "-webkit-box", .needsPrefix)] ∧
      ∀ entry ∈ report.entries, entry.Truthful profile := by
  have htokens : Css.tokenize "a{transition:ALL;display:-ms-box}" =
      .ok [.ident "a", .opening .curly, .ident "transition", .colon,
        .ident "ALL", .semicolon, .ident "display", .colon, .ident "-ms-box",
        .closing .curly] := by
    decide +kernel
  refine ⟨_, _, rfl, report_step_audit (sound_after (Cache.sound_empty _) [])
    htokens, by decide +kernel, ?_⟩
  exact audit_truthful _ .isolated [] (report_step_audit
    (sound_after (Cache.sound_empty _) []) htokens)

end Session

end StyleProbe
