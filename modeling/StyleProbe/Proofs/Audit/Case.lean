import StyleProbe.Proofs.Audit.Account
import StyleProbe.Proofs.Css.Stylesheet.Case
import StyleProbe.Proofs.Profile.Case

/-!
# Verdicts and letter case

A style sheet in small letters has the same declarations as the style sheet,
in small letters, and each is asked for under the same name. Its verdict is
the same as long as no vendor prefix is written with capitals. Such a prefix
is not taken off a value, and does not count as a prefix of a value that is
kept, although it is one to the grammars.

Main statement: `Session.audit_lowerAscii`.
-/

namespace StyleProbe

/-! ## Prefixes with capitals -/

/-- The text starts with a vendor prefix that is not in small letters. -/
def Vendor.Capitalized (text : String) : Prop :=
  strip? text = none ∧ strip? (Text.lowerAscii text) ≠ none

theorem Vendor.strip?_lowerAscii {text rest : String} {vendor : Vendor}
    (h : strip? text = some (vendor, rest)) :
    strip? (Text.lowerAscii text) = some (vendor, Text.lowerAscii rest) := by
  rw [strip?_eq_some_iff] at h ⊢
  rw [h, Text.lowerAscii_append, vendor.lowerAscii_hyphenLead]

/-- A prefix is found in the lowered text and not in the text only if it is
written with capitals. -/
theorem Vendor.isSome_strip?_iff (text : String) :
    (strip? (Text.lowerAscii text)).isSome = (strip? text).isSome ↔
      ¬ Capitalized text := by
  cases hstrip : strip? text with
  | none =>
    cases hlower : strip? (Text.lowerAscii text) <;>
      simp [Capitalized, hstrip, hlower]
  | some found => simp [Capitalized, hstrip, strip?_lowerAscii hstrip]

theorem Vendor.stripped_lowerAscii {text : String}
    (h : ¬ Capitalized text) :
    stripped (Text.lowerAscii text) = Text.lowerAscii (stripped text) := by
  cases hstrip : strip? text with
  | some found => simp [stripped, hstrip, strip?_lowerAscii hstrip]
  | none =>
    have hlower : strip? (Text.lowerAscii text) = none := by
      have := (isSome_strip?_iff text).mpr h
      rwa [hstrip, Option.isSome_none, Option.isSome_eq_false_iff,
        Option.isNone_iff_eq_none] at this
    simp [stripped, hstrip, hlower]

/-! ## Declarations -/

theorem Css.Declaration.isNameless_lowered (declaration : Declaration) :
    declaration.lowered.isNameless = declaration.isNameless := rfl

theorem Audit.declarations_map_lowered {ts : List Css.Token}
    (h : ∀ t ∈ ts, t.Lexed) :
    declarations (Css.rules (ts.map Css.Token.lowered)) =
      (declarations (Css.rules ts)).map fun d =>
        (Text.lowerAscii d.1, d.2.lowered) := by
  have hlexed : ∀ rule ∈ Css.rules ts,
      (∀ t ∈ rule.prelude, t.Lexed) ∧
        ∀ t ∈ Css.Component.flattenAll rule.block, t.Lexed :=
    Css.forall_mem_rulesFrom (fun _ => trivial) h
  rw [Css.rules, Css.rulesFrom_map_lowered, ← Css.rules]
  generalize Css.rules ts = rules at hlexed ⊢
  induction rules with
  | nil => rfl
  | cons rule rules ih =>
    obtain ⟨hprelude, hblock⟩ := hlexed rule List.mem_cons_self
    have hrest := ih fun rule' hrule' =>
      hlexed rule' (List.mem_cons_of_mem rule hrule')
    have hcons : ∀ (first : Css.Rule) (more : List Css.Rule),
        declarations (first :: more) =
          (first.declarations.map fun d => (first.selector, d)) ++
            declarations more := fun _ _ => List.flatMap_cons
    rw [List.map_cons, hcons, hrest, Css.selector_lowered hprelude,
      Css.declarations_lowered hblock, hcons, List.map_append, List.map_map,
      List.map_map]
    rfl

namespace AuditEntry

/-- The second entry is for the declaration of the first one in small letters,
and agrees with it where no vendor prefix is written with capitals. -/
structure Lowers (entry entry' : AuditEntry) : Prop where
  selector : entry'.selector = Text.lowerAscii entry.selector
  property : entry'.property = entry.property
  value : entry'.value = Text.lowerAscii entry.value
  resolvedProperty : entry'.resolvedProperty = entry.resolvedProperty
  resolvedValue : ¬ Vendor.Capitalized entry.value →
    entry'.resolvedValue = entry.resolvedValue.lowered
  status : ¬ Vendor.Capitalized entry.value →
    (entry'.status = entry.status ↔
      ¬ ∃ name kept, entry.resolvedProperty = .native name ∧
        entry.resolvedValue = .supported kept ∧ Vendor.Capitalized kept)

/-- Lowering the value that is kept changes the status exactly if it uncovers
a prefix. -/
theorem status_eq_iff {entry entry' : AuditEntry}
    (hproperty : entry'.resolvedProperty = entry.resolvedProperty)
    (hvalue : entry'.resolvedValue = entry.resolvedValue.lowered) :
    entry'.status = entry.status ↔
      ¬ ∃ name kept, entry.resolvedProperty = .native name ∧
        entry.resolvedValue = .supported kept ∧ Vendor.Capitalized kept := by
  unfold status
  rw [hproperty, hvalue]
  cases entry.resolvedProperty with
  | unsupported => simp
  | prefixed vendor name =>
    cases entry.resolvedValue <;> simp [ValueResolution.lowered]
  | native name =>
    cases entry.resolvedValue with
    | unsupported => simp [ValueResolution.lowered]
    | supported kept =>
      have hprefix := Vendor.isSome_strip?_iff kept
      simp only [ValueResolution.lowered]
      cases hkept : (Vendor.strip? kept).isSome <;>
        cases hlower : (Vendor.strip? (Text.lowerAscii kept)).isSome <;>
        simp_all

theorem Accounts.lowers {profile : Profile} {strategy : Strategy}
    {declared : String × Css.Declaration} {entry entry' : AuditEntry}
    (h : entry.Accounts ⟨profile.surface, strategy⟩ declared)
    (h' : entry'.Accounts ⟨profile.surface, strategy⟩
      (Text.lowerAscii declared.1, declared.2.lowered)) :
    entry.Lowers entry' := by
  have hproperty : entry'.resolvedProperty = entry.resolvedProperty := by
    obtain ⟨key, hkey, hresolved⟩ := h.resolvedProperty
    obtain ⟨key', hkey', hresolved'⟩ := h'.resolvedProperty
    have hsame : some key' = some key := hkey'.symm.trans hkey
    rw [hresolved, hresolved', Option.some.inj hsame]
  have hvalue : ¬ Vendor.Capitalized entry.value →
      entry'.resolvedValue = entry.resolvedValue.lowered := by
    intro hsmall
    cases hresolved : entry.resolvedProperty with
    | unsupported =>
      rw [h.unsupported hresolved, h'.unsupported (hproperty.trans hresolved)]
      rfl
    | _ =>
      have hsupported : entry.resolvedProperty.isSupported = true := by
        rw [hresolved]
        rfl
      obtain ⟨name, hname, -, hasked⟩ := h.resolvedValue hsupported
      obtain ⟨name', hname', -, hasked'⟩ :=
        h'.resolvedValue (hproperty ▸ hsupported)
      rw [hproperty, hname] at hname'
      rw [h.value] at hsmall
      rw [hasked, hasked', ← Option.some.inj hname',
        ← profile.value_lowered strategy rfl,
        ← Vendor.stripped_lowerAscii hsmall]
      rfl
  exact ⟨h'.selector.trans (congrArg Text.lowerAscii h.selector.symm),
    h'.property.trans h.property.symm,
    h'.value.trans (congrArg Text.lowerAscii h.value.symm), hproperty, hvalue,
    fun hsmall => status_eq_iff hproperty (hvalue hsmall)⟩

theorem forall₂_lowers {profile : Profile} {strategy : Strategy}
    {declared : List (String × Css.Declaration)}
    {entries entries' : List AuditEntry}
    (h : List.Forall₂ (Accounts ⟨profile.surface, strategy⟩) declared entries)
    (h' : List.Forall₂ (Accounts ⟨profile.surface, strategy⟩)
      (declared.map fun d => (Text.lowerAscii d.1, d.2.lowered)) entries') :
    List.Forall₂ Lowers entries entries' := by
  induction h generalizing entries' with
  | nil =>
    cases h'
    exact .nil
  | cons hfirst _ ih =>
    cases h' with
    | cons hfirst' hrest' => exact .cons (hfirst.lowers hfirst') (ih hrest')

end AuditEntry

namespace Session

/-- **The case of letters matters to verdicts only in vendor prefixes.** The
audit of a style sheet in small letters has an entry for each entry of the
audit of the style sheet, in order, for the same declaration in small letters
and with the same name. Unless the value starts with a vendor prefix that is
written with capitals, the kept values differ in case only, and the status is
the same unless the kept value starts with such a prefix under a native
name. -/
theorem audit_lowerAscii (profile : Profile) (strategy : Strategy)
    (steps steps' : List Step) {css : String} {tokens : List Css.Token}
    (htokens : Css.tokenize css = .ok tokens) :
    ∃ report report',
      (step ⟨profile.surface, strategy⟩
        (after ⟨profile.surface, strategy⟩ .empty steps)
        (.audit css)).value.1 = .report report ∧
      (step ⟨profile.surface, strategy⟩
        (after ⟨profile.surface, strategy⟩ .empty steps')
        (.audit (Text.lowerAscii css))).value.1 = .report report' ∧
      List.Forall₂ AuditEntry.Lowers report.entries report'.entries := by
  have htokens' : Css.tokenize (Text.lowerAscii css) =
      .ok (tokens.map Css.Token.lowered) := by
    rw [Css.tokenize_lowerAscii, htokens]
    rfl
  obtain ⟨report, hreport, haccount⟩ := exists_report
    ⟨profile.surface, strategy⟩ steps htokens
  obtain ⟨report', hreport', haccount'⟩ := exists_report
    ⟨profile.surface, strategy⟩ steps' htokens'
  rw [Audit.declarations_map_lowered (Css.lexed_of_mem_tokenize htokens),
    List.filter_map] at haccount'
  simp only [Function.comp_def, Css.Declaration.isNameless_lowered]
    at haccount'
  exact ⟨report, report', hreport, hreport',
    AuditEntry.forall₂_lowers haccount haccount'⟩

/-- A sheet with capitals in its names, and a value with a prefix in small
letters. -/
theorem audit_lowerAscii_box :
    ∃ profile tokens report report',
      Profile.ofSource {
        name := "boxes"
        properties := [{ name := "display", keywords := ["-moz-box"] }] } =
        .ok profile ∧
      Css.tokenize "A\x7bDisplay:-moz-BOX!Important\x7d" = .ok tokens ∧
      (step ⟨profile.surface, .isolated⟩
        (after ⟨profile.surface, .isolated⟩ .empty [])
        (.audit "A\x7bDisplay:-moz-BOX!Important\x7d")).value.1 =
          .report report ∧
      (step ⟨profile.surface, .isolated⟩
        (after ⟨profile.surface, .isolated⟩ .empty [])
        (.audit (Text.lowerAscii
          "A\x7bDisplay:-moz-BOX!Important\x7d"))).value.1 =
          .report report' ∧
      report.entries.map AuditEntry.verdict =
        [(.native "display", .supported "-moz-box", .needsPrefix)] ∧
      List.Forall₂ AuditEntry.Lowers report.entries report'.entries := by
  have htokens : Css.tokenize "A\x7bDisplay:-moz-BOX!Important\x7d" =
      .ok [.ident "A", .opening .curly, .ident "Display", .colon,
        .ident "-moz-BOX", .delim '!', .ident "Important", .closing .curly] := by
    decide +kernel
  obtain ⟨report, report', hreport, hreport', hlowers⟩ :=
    audit_lowerAscii _ .isolated [] [] htokens
  refine ⟨_, _, report, report', rfl, htokens, hreport, hreport', ?_, hlowers⟩
  rw [report_step_audit (sound_after (Cache.sound_empty _) []) htokens]
    at hreport
  cases hreport
  decide +kernel

/-- A function with its prefix in capitals and in small letters: kept as it is
written, it counts as native and as prefixed. -/
theorem audit_capitals_native :
    ∃ profile report report',
      Profile.ofSource {
        name := "sums"
        properties := [{ name := "width", functions := ["-webkit-calc"] }] } =
        .ok profile ∧
      (step ⟨profile.surface, .isolated⟩
        (after ⟨profile.surface, .isolated⟩ .empty [])
        (.audit "p{width:-WEBKIT-CALC(a)}")).value.1 =
          .report report ∧
      (step ⟨profile.surface, .isolated⟩
        (after ⟨profile.surface, .isolated⟩ .empty [])
        (.audit (Text.lowerAscii "p{width:-WEBKIT-CALC(a)}"))).value.1 =
          .report report' ∧
      report.entries.map AuditEntry.status = [.native] ∧
      report'.entries.map AuditEntry.status = [.needsPrefix] := by
  have htokens : Css.tokenize "p{width:-WEBKIT-CALC(a)}" =
      .ok [.ident "p", .opening .curly, .ident "width", .colon,
        .function "-WEBKIT-CALC", .ident "a", .closing .round,
        .closing .curly] := by
    decide +kernel
  have htokens' : Css.tokenize (Text.lowerAscii "p{width:-WEBKIT-CALC(a)}") =
      .ok [.ident "p", .opening .curly, .ident "width", .colon,
        .function "-webkit-calc", .ident "a", .closing .round,
        .closing .curly] := by
    decide +kernel
  have hsound := fun resolver =>
    sound_after (Cache.sound_empty resolver) []
  exact ⟨_, _, _, rfl, report_step_audit (hsound _) htokens,
    report_step_audit (hsound _) htokens', by decide +kernel,
    by decide +kernel⟩

end Session

end StyleProbe
