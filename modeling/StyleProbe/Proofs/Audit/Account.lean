import Mathlib.Data.List.Forall2
import StyleProbe.Proofs.Property.ResolvedName
import StyleProbe.Proofs.Session.Reachable
import StyleProbe.Surface.Scripted

/-!
# The account of an audit

An audit gives one entry for each declaration of the style sheet that names a
property, in the order of the style sheet, and no other. An entry keeps the
declaration as it was written and holds what the resolver itself answers for
it without any vendor prefix: the name of the property, and the value under
that name. So a prefix that is written in front of a property or a value
without one changes no verdict.

The name that is answered is checked once more before the value is asked for
under it. The check never fails, since what a resolver answers is a name, so
no declaration is lost there.

Main statements: `Audit.accounts_entries` and `Session.audit_account`.
-/

namespace StyleProbe

/-! ## Written prefixes -/

/-- The second text is the first, or the first had no vendor prefix and one
was written in front of it. -/
def Vendor.WrittenOnto (text text' : String) : Prop :=
  text' = text ∨
    strip? text = none ∧ ∃ vendor : Vendor, text' = vendor.hyphenLead ++ text

/-- A prefix that was written is stripped again. -/
theorem Vendor.WrittenOnto.stripped_eq {text text' : String}
    (h : WrittenOnto text text') : stripped text' = stripped text := by
  rcases h with rfl | ⟨hbare, vendor, rfl⟩
  · rfl
  · rw [stripped, strip?_hyphenLead, stripped, hbare]

/-- The second declaration is the first with vendor prefixes written onto its
property or its value. -/
structure Css.Declaration.PrefixesWritten
    (declaration declaration' : Declaration) : Prop where
  property : Vendor.WrittenOnto declaration.property declaration'.property
  value : Vendor.WrittenOnto declaration.value declaration'.value

/-- The property is blank when a vendor prefix is taken off it. -/
def Css.Declaration.isNameless (declaration : Declaration) : Bool :=
  Text.trim (Vendor.stripped declaration.property) == ""

/-! ## Accounts -/

/-- The entry accounts for the declaration of a rule with the selector: it
keeps the declaration and holds the resolver's own answers, the value's under
the name that is answered. -/
structure AuditEntry.Accounts (resolver : Resolver)
    (declared : String × Css.Declaration) (entry : AuditEntry) : Prop where
  selector : entry.selector = declared.1
  property : entry.property = declared.2.property
  value : entry.value = declared.2.value
  resolvedProperty : ∃ key,
    PropertyName.ofText? (Vendor.stripped declared.2.property) = some key ∧
      entry.resolvedProperty = (resolver.name key).value
  resolvedValue : entry.resolvedProperty.isSupported = true →
    ∃ name, PropertyName.ofText? entry.resolvedProperty.name = some name ∧
      name.text = entry.resolvedProperty.name ∧
      entry.resolvedValue =
        (resolver.value name (Vendor.stripped declared.2.value)).value
  unsupported : entry.resolvedProperty = .unsupported →
    entry.resolvedValue = .unsupported

/-- What an entry says about a declaration. -/
def AuditEntry.verdict (entry : AuditEntry) :
    PropertyResolution × ValueResolution × Status :=
  (entry.resolvedProperty, entry.resolvedValue, entry.status)

namespace Audit

variable {resolver : Resolver}

section Value

variable {resolved : PropertyResolution} (value : String)

theorem valueUnder?_of_supported {name : PropertyName}
    (h : resolved.isSupported = true)
    (hname : PropertyName.ofText? resolved.name = some name) :
    valueUnder? resolved value =
      Query.askValue name value >>= fun kept => pure (some kept) := by
  rw [valueUnder?, if_pos h, hname]

theorem valueUnder?_of_unsupported (h : resolved.isSupported = false) :
    valueUnder? resolved value = pure (some .unsupported) := by
  simp [valueUnder?, h]

end Value

section Entry

variable {selector : String} {declaration : Css.Declaration}

theorem entryOf?_of_nameless
    (hkey : PropertyName.ofText? (Vendor.stripped declaration.property) =
      none) : entryOf? selector declaration = pure none := by
  simp [entryOf?, hkey]

/-- The entry of a declaration that names a property holds what is answered,
if the value has an answer under the name that is. -/
theorem value_answer_entryOf? {key : PropertyName}
    (hkey : PropertyName.ofText? (Vendor.stripped declaration.property) =
      some key) :
    ((entryOf? selector declaration).answer resolver).value =
      ((valueUnder? (resolver.name key).value
          (Vendor.stripped declaration.value)).answer resolver).value.map
        fun resolvedValue => {
          selector
          property := declaration.property
          value := declaration.value
          resolvedProperty := (resolver.name key).value
          resolvedValue } := by
  have hask : ((Query.askName key).answer resolver).value =
      (resolver.name key).value := rfl
  simp only [entryOf?, hkey, Query.value_answer_bind, Query.value_answer_pure,
    hask]

/-- **A declaration that names a property has an entry**, which accounts for
it: what is answered is a name, so the check of it loses no declaration. -/
theorem exists_entry {key : PropertyName}
    (hkey : PropertyName.ofText? (Vendor.stripped declaration.property) =
      some key) :
    ∃ entry,
      ((entryOf? selector declaration).answer resolver).value = some entry ∧
        entry.Accounts resolver (selector, declaration) := by
  rw [value_answer_entryOf? hkey]
  cases hsupported : (resolver.name key).value.isSupported with
  | true =>
    obtain ⟨name, hname, htext⟩ := Resolver.ofText?_resolved hsupported
    rw [valueUnder?_of_supported _ hsupported hname]
    refine ⟨_, rfl, rfl, rfl, rfl, ⟨key, hkey, rfl⟩, ?_, ?_⟩
    · exact fun _ => ⟨name, hname, htext, rfl⟩
    · intro hunsupported
      dsimp only at hunsupported
      rw [hunsupported] at hsupported
      cases hsupported
  | false =>
    rw [valueUnder?_of_unsupported _ hsupported]
    refine ⟨_, rfl, rfl, rfl, rfl, ⟨key, hkey, rfl⟩, ?_, fun _ => rfl⟩
    intro h
    dsimp only at h
    rw [hsupported] at h
    cases h

end Entry

theorem isNameless_iff (declaration : Css.Declaration) :
    declaration.isNameless = true ↔
      PropertyName.ofText? (Vendor.stripped declaration.property) = none := by
  simp [Css.Declaration.isNameless, PropertyName.ofText?]

/-- The entries are those that the declarations have, in order. -/
theorem value_answer_entries (declared : List (String × Css.Declaration)) :
    ((entries declared).answer resolver).value =
      declared.filterMap fun d =>
        ((entryOf? d.1 d.2).answer resolver).value := by
  induction declared with
  | nil => rfl
  | cons first rest ih =>
    obtain ⟨selector, declaration⟩ := first
    rw [entries, Query.value_answer_bind, Query.value_answer_bind, ih,
      List.filterMap_cons]
    cases ((entryOf? selector declaration).answer resolver).value <;> rfl

/-- **The entries account for the declarations** that name a property, one for
each, in order. -/
theorem accounts_entries (declared : List (String × Css.Declaration)) :
    List.Forall₂ (AuditEntry.Accounts resolver)
      (declared.filter fun d => !d.2.isNameless)
      ((entries declared).answer resolver).value := by
  rw [value_answer_entries]
  induction declared with
  | nil => exact .nil
  | cons first rest ih =>
    obtain ⟨selector, declaration⟩ := first
    have hnameless := isNameless_iff declaration
    cases hkey :
        PropertyName.ofText? (Vendor.stripped declaration.property) with
    | none =>
      rw [hkey] at hnameless
      rw [List.filter_cons_of_neg (by simp [hnameless]), List.filterMap_cons,
        entryOf?_of_nameless hkey]
      exact ih
    | some key =>
      rw [hkey] at hnameless
      obtain ⟨entry, hentry, haccounts⟩ := exists_entry hkey
      rw [List.filter_cons_of_pos (by simpa using hnameless),
        List.filterMap_cons, hentry]
      exact .cons haccounts ih

theorem entries_ofRules (rules : List Css.Rule) :
    ((ofRules rules).answer resolver).value.entries =
      ((entries (declarations rules)).answer resolver).value := by
  rw [ofRules, Query.value_answer_bind]
  rfl

end Audit

/-! ## Verdicts -/

namespace AuditEntry

variable {resolver : Resolver}

theorem status_eq {entry entry' : AuditEntry}
    (hproperty : entry'.resolvedProperty = entry.resolvedProperty)
    (hvalue : entry'.resolvedValue = entry.resolvedValue) :
    entry'.status = entry.status := by
  simp only [status, hproperty, hvalue]

theorem exists_of_accounts {declared : List (String × Css.Declaration)}
    {entries : List AuditEntry}
    (h : List.Forall₂ (Accounts resolver) declared entries)
    {entry : AuditEntry} (hentry : entry ∈ entries) :
    ∃ d ∈ declared, entry.Accounts resolver d := by
  induction h with
  | nil => cases hentry
  | @cons first firstEntry rest restEntries hfirst _ ih =>
    rcases List.mem_cons.mp hentry with rfl | hrest
    · exact ⟨first, List.mem_cons_self, hfirst⟩
    · obtain ⟨d, hd, haccounts⟩ := ih hrest
      exact ⟨d, List.mem_cons_of_mem first hd, haccounts⟩

theorem Accounts.verdict_eq {declared declared' : String × Css.Declaration}
    {entry entry' : AuditEntry} (h : entry.Accounts resolver declared)
    (h' : entry'.Accounts resolver declared')
    (hwritten : declared.2.PrefixesWritten declared'.2) :
    entry'.verdict = entry.verdict := by
  have hproperty : entry'.resolvedProperty = entry.resolvedProperty := by
    obtain ⟨key, hkey, hresolved⟩ := h.resolvedProperty
    obtain ⟨key', hkey', hresolved'⟩ := h'.resolvedProperty
    rw [hwritten.property.stripped_eq, hkey] at hkey'
    rw [hresolved, hresolved', Option.some.inj hkey']
  have hvalue : entry'.resolvedValue = entry.resolvedValue := by
    cases hresolved : entry.resolvedProperty with
    | unsupported =>
      rw [h.unsupported hresolved, h'.unsupported (hproperty.trans hresolved)]
    | _ =>
      have hsupported : entry.resolvedProperty.isSupported = true := by
        rw [hresolved]
        rfl
      obtain ⟨name, hname, -, hasked⟩ := h.resolvedValue hsupported
      obtain ⟨name', hname', -, hasked'⟩ :=
        h'.resolvedValue (hproperty ▸ hsupported)
      rw [hproperty, hname] at hname'
      rw [hasked, hasked', Option.some.inj hname',
        hwritten.value.stripped_eq]
  rw [verdict, verdict, status_eq hproperty hvalue, hproperty, hvalue]

/-- Written prefixes change none of the verdicts on a list of declarations. -/
theorem map_verdict_eq {declared declared' : List (String × Css.Declaration)}
    (hwritten : List.Forall₂ (fun d d' => d.2.PrefixesWritten d'.2) declared
      declared') :
    ∀ {entries entries' : List AuditEntry},
      List.Forall₂ (Accounts resolver)
        (declared.filter fun d => !d.2.isNameless) entries →
      List.Forall₂ (Accounts resolver)
        (declared'.filter fun d => !d.2.isNameless) entries' →
      entries'.map verdict = entries.map verdict := by
  -- On the declarations: both sheets leave out the same nameless ones.
  induction hwritten with
  | nil =>
    intro entries entries' h h'
    cases h
    cases h'
    rfl
  | @cons first first' rest rest' hfirst _ ih =>
    intro entries entries' h h'
    have hsame : first'.2.isNameless = first.2.isNameless := by
      rw [Css.Declaration.isNameless, hfirst.property.stripped_eq]
      rfl
    cases hnameless : first.2.isNameless with
    | true =>
      rw [List.filter_cons_of_neg (by simp [hnameless])] at h
      rw [List.filter_cons_of_neg (by simp [hsame, hnameless])] at h'
      exact ih h h'
    | false =>
      rw [List.filter_cons_of_pos (by simp [hnameless])] at h
      rw [List.filter_cons_of_pos (by simp [hsame, hnameless])] at h'
      cases h with
      | cons hentry hentries =>
        cases h' with
        | cons hentry' hentries' =>
          rw [List.map_cons, List.map_cons, hentry.verdict_eq hentry' hfirst,
            ih hentries hentries']

end AuditEntry

namespace Session

/-- An audit reports, and its report accounts for the declarations. -/
theorem exists_report (resolver : Resolver) (steps : List Step) {css : String}
    {tokens : List Css.Token} (htokens : Css.tokenize css = .ok tokens) :
    ∃ report,
      (step resolver (after resolver .empty steps) (.audit css)).value.1 =
        .report report ∧
      List.Forall₂ (AuditEntry.Accounts resolver)
        ((Audit.declarations (Css.rules tokens)).filter
          fun d => !d.2.isNameless) report.entries := by
  have hsound := sound_after (Cache.sound_empty resolver) steps
  refine ⟨_, report_step_audit hsound htokens, ?_⟩
  rw [Audit.entries_ofRules]
  exact Audit.accounts_entries _

/-- **The account of an audit**: whatever was asked before, the report has one
entry for each declaration that names a property, in order, and no other, and
each holds what the resolver itself answers. Another style sheet with the same
declarations, up to vendor prefixes that are written onto them, gets the same
verdicts.

The prefixes are written onto the texts that were taken from the style sheet.
A prefix that is glued to a number in the style sheet itself is read anew with
it: `-webkit-1.5px` is the name `-webkit-1` and the length `.5px`. -/
theorem audit_account (resolver : Resolver) (steps : List Step) {css : String}
    {tokens : List Css.Token} (htokens : Css.tokenize css = .ok tokens) :
    ∃ report,
      (step resolver (after resolver .empty steps) (.audit css)).value.1 =
        .report report ∧
      List.Forall₂ (AuditEntry.Accounts resolver)
        ((Audit.declarations (Css.rules tokens)).filter
          fun d => !d.2.isNameless) report.entries ∧
      ∀ (steps' : List Step) {css' : String} {tokens' : List Css.Token},
        Css.tokenize css' = .ok tokens' →
        List.Forall₂ (fun d d' => d.2.PrefixesWritten d'.2)
          (Audit.declarations (Css.rules tokens))
          (Audit.declarations (Css.rules tokens')) →
        ∃ report',
          (step resolver (after resolver .empty steps') (.audit css')).value.1 =
            .report report' ∧
          report'.entries.map AuditEntry.verdict =
            report.entries.map AuditEntry.verdict := by
  obtain ⟨report, hreport, haccount⟩ := exists_report resolver steps htokens
  refine ⟨report, hreport, haccount, ?_⟩
  intro steps' css' tokens' htokens' hwritten
  obtain ⟨report', hreport', haccount'⟩ :=
    exists_report resolver steps' htokens'
  exact ⟨report', hreport',
    AuditEntry.map_verdict_eq hwritten haccount haccount'⟩

/-- A declaration with nothing but a prefix for a name, and one that is
written bare and then with two prefixes, on a surface that knows prefixed
forms only. -/
theorem audit_account_transition :
    let resolver : Resolver :=
      ⟨Script.surface ⟨["MozTransition"], [("-moz-transition", ["-o-all"])],
        false⟩, .default⟩
    ∃ tokens tokens' report report',
      Css.tokenize "a{-o-:x;transition:all}" = .ok tokens ∧
      Css.tokenize "a{-o-:x;-ms-transition:-webkit-all}" = .ok tokens' ∧
      List.Forall₂ (fun d d' => d.2.PrefixesWritten d'.2)
        (Audit.declarations (Css.rules tokens))
        (Audit.declarations (Css.rules tokens')) ∧
      (step resolver (after resolver .empty [])
        (.audit "a{-o-:x;transition:all}")).value.1 = .report report ∧
      List.Forall₂ (AuditEntry.Accounts resolver)
        [("a", ⟨"transition", "all"⟩)] report.entries ∧
      (step resolver (after resolver .empty [.cached (.name "transition")])
        (.audit "a{-o-:x;-ms-transition:-webkit-all}")).value.1 =
          .report report' ∧
      report'.entries.map AuditEntry.verdict =
        report.entries.map AuditEntry.verdict := by
  intro resolver
  obtain ⟨tokens, htokens, hdeclared⟩ : ∃ tokens,
      Css.tokenize "a{-o-:x;transition:all}" = .ok tokens ∧
      Audit.declarations (Css.rules tokens) =
        [("a", ⟨"-o-", "x"⟩), ("a", ⟨"transition", "all"⟩)] :=
    ⟨[.ident "a", .opening .curly, .ident "-o-", .colon, .ident "x",
      .semicolon, .ident "transition", .colon, .ident "all",
      .closing .curly], by decide +kernel, by decide +kernel⟩
  obtain ⟨tokens', htokens', hdeclared'⟩ : ∃ tokens,
      Css.tokenize "a{-o-:x;-ms-transition:-webkit-all}" = .ok tokens ∧
      Audit.declarations (Css.rules tokens) =
        [("a", ⟨"-o-", "x"⟩), ("a", ⟨"-ms-transition", "-webkit-all"⟩)] :=
    ⟨[.ident "a", .opening .curly, .ident "-o-", .colon, .ident "x",
      .semicolon, .ident "-ms-transition", .colon, .ident "-webkit-all",
      .closing .curly], by decide +kernel, by decide +kernel⟩
  have hwritten : List.Forall₂ (fun d d' => d.2.PrefixesWritten d'.2)
      (Audit.declarations (Css.rules tokens))
      (Audit.declarations (Css.rules tokens')) := by
    rw [hdeclared, hdeclared']
    refine .cons ⟨.inl rfl, .inl rfl⟩ (.cons ⟨?_, ?_⟩ .nil)
    · exact .inr ⟨by decide +kernel, .ms, by decide +kernel⟩
    · exact .inr ⟨by decide +kernel, .webkit, by decide +kernel⟩
  have hnamed : ((Audit.declarations (Css.rules tokens)).filter
      fun d => !d.2.isNameless) = [("a", ⟨"transition", "all"⟩)] := by
    rw [hdeclared]
    decide +kernel
  obtain ⟨report, hreport, haccount, hverdicts⟩ :=
    audit_account resolver [] htokens
  obtain ⟨report', hreport', hsame⟩ :=
    hverdicts [.cached (.name "transition")] htokens' hwritten
  rw [hnamed] at haccount
  exact ⟨tokens, tokens', report, report', htokens, htokens', hwritten,
    hreport, haccount, hreport', hsame⟩

end Session

end StyleProbe
