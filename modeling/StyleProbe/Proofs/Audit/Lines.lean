import StyleProbe.Proofs.Audit.Selector
import StyleProbe.Proofs.Css.OneLine
import StyleProbe.Proofs.Profile.PrefixedForms
import StyleProbe.Request

/-!
# The lines of a report

A report is printed with one line for each entry and the summary behind them.
That takes that nothing in an entry has a line feed. Selector, property and
value are written from tokens of the style sheet. What a profile keeps of a
value is written from tokens too, those of a form of the value, or is a
keyword that is one of them; a grammar whose keywords have line feeds makes no
difference.

No line ends in a carriage return either, so the lines can be cut to a width
and printed, and what is printed has the same lines, each cut.

Main statement: `Session.audit_lines`.
-/

namespace StyleProbe

open Css (Component Color)
open Text (IsLine)

/-! ## What a profile answers -/

theorem ValueType.oneLine_of_accept? {type : ValueType} {value : Component}
    {kept : String}
    (hvalue : ∀ t ∈ Component.flatten value, Text.OneLine t.text)
    (h : type.accept? value = some kept) : Text.OneLine kept := by
  have hsign : Text.OneLine "%" := by decide
  unfold ValueType.accept? at h
  split at h
  · obtain ⟨color, -, rfl⟩ := Option.map_eq_some_iff.mp h
    exact color.oneLine_text
  · rename_i n unit
    have hunit : Text.OneLine unit := by
      have := hvalue (.dimension n unit) (by simp [Component.flatten])
      exact (Text.oneLine_append.mp this).2
    dsimp only at h
    split at h
    · cases h
      simp [n.oneLine_text, hunit.lowerAscii]
    · cases h
  · split at h
    · cases h
      decide
    · cases h
  · rename_i n
    cases h
    simp [n.oneLine_text, hsign]
  · cases h
    exact Binary32.oneLine_text _
  · cases h
    exact Component.oneLine_text hvalue
  · cases h

namespace Grammar

variable {g : Grammar} {kept : String}

/-- A keyword is kept as the name of the token, whatever the grammar says. -/
theorem oneLine_of_keyword? {value : Component}
    (hvalue : ∀ t ∈ Component.flatten value, Text.OneLine t.text)
    (h : g.keyword? value = some kept) : Text.OneLine kept := by
  unfold keyword? at h
  split at h
  · rename_i name
    have hname : Text.OneLine name :=
      hvalue (.ident name) (by simp [Component.flatten])
    dsimp only at h
    split at h
    · cases h
      exact hname.lowerAscii
    · cases h
  · cases h

theorem oneLine_of_acceptOne? {value : Component}
    (hvalue : ∀ t ∈ Component.flatten value, Text.OneLine t.text)
    (h : g.acceptOne? value = some kept) : Text.OneLine kept := by
  unfold acceptOne? at h
  split at h
  · rename_i lower hkeyword
    cases h
    exact oneLine_of_keyword? hvalue hkeyword
  · split at h
    · cases h
      exact Component.oneLine_text hvalue
    · obtain ⟨before, type, after, -, htype, -⟩ :=
        List.findSome?_eq_some_iff.mp h
      exact ValueType.oneLine_of_accept? hvalue htype

/-- **A grammar keeps no line feed.** -/
theorem oneLine_of_accept? {value : String} (h : g.accept? value = some kept) :
    Text.OneLine kept := by
  unfold accept? at h
  split at h
  · cases h
  rename_i values hvalues
  have htokens := Component.oneLine_of_mem_parseValue hvalues
  split at h
  · cases h
  · rename_i single hsingle
    have hmem : single ∈ values :=
      (List.mem_filter.mp (hsingle ▸ List.mem_singleton_self single)).1
    refine oneLine_of_acceptOne? (fun t ht => htokens t ?_) h
    exact Component.mem_flattenAll.mpr ⟨single, hmem, ht⟩
  · split at h
    · cases h
      exact Component.oneLine_serialize htokens
    · cases h

end Grammar

theorem Profile.oneLine_value (profile : Profile) (strategy : Strategy)
    (key : PropertyName) (value : String) :
    Text.OneLine
      (Resolver.value ⟨profile.surface, strategy⟩ key value).value.text := by
  cases hanswer :
    (Resolver.value ⟨profile.surface, strategy⟩ key value).value with
  | unsupported => decide
  | supported kept =>
    rw [profile.value_eq_supported_iff] at hanswer
    obtain ⟨before, form, after, -, hform, -⟩ :=
      List.findSome?_eq_some_iff.mp hanswer
    obtain ⟨grammar, -, hkept⟩ := Option.bind_eq_some_iff.mp hform
    exact Grammar.oneLine_of_accept? hkept

theorem Resolver.oneLine_name {resolver : Resolver} {key : PropertyName}
    (h : Text.OneLine key.text) :
    Text.OneLine (resolver.name key).value.text := by
  cases hsupported : (resolver.name key).value.isSupported with
  | false =>
    cases hanswer : (resolver.name key).value with
    | unsupported => decide
    | _ =>
      rw [hanswer] at hsupported
      cases hsupported
  | true =>
    rcases resolved_cases hsupported with hnative | ⟨vendor, hprefixed⟩
    · rw [hnative]
      exact h
    · have hlead : Text.OneLine vendor.hyphenLead := by
        cases vendor <;> decide
      rw [hprefixed]
      exact Text.oneLine_append.mpr ⟨hlead, h⟩

theorem PropertyName.oneLine_of_ofText? {text : String} {key : PropertyName}
    (hkey : ofText? (Vendor.stripped text) = some key)
    (h : Text.OneLine text) : Text.OneLine key.text := by
  have hstripped : Text.OneLine (Vendor.stripped text) := by
    unfold Vendor.stripped
    split
    · rename_i vendor rest hstrip
      obtain rfl := Vendor.strip?_eq_some_iff.mp hstrip
      exact (Text.oneLine_append.mp h).2
    · exact h
  unfold ofText? at hkey
  split at hkey
  · cases hkey
  · rw [← Option.some.inj hkey]
    exact hstripped.trim

/-! ## Entries -/

namespace AuditEntry

/-- Nothing in the entry has a line feed. -/
structure OneLine (entry : AuditEntry) : Prop where
  selector : Text.OneLine entry.selector
  property : Text.OneLine entry.property
  value : Text.OneLine entry.value
  resolvedProperty : Text.OneLine entry.resolvedProperty.text
  resolvedValue : Text.OneLine entry.resolvedValue.text

theorem Accounts.oneLine {profile : Profile} {strategy : Strategy}
    {declared : String × Css.Declaration} {entry : AuditEntry}
    (h : entry.Accounts ⟨profile.surface, strategy⟩ declared)
    (hselector : Text.OneLine declared.1)
    (hproperty : Text.OneLine declared.2.property)
    (hvalue : Text.OneLine declared.2.value) : entry.OneLine where
  selector := h.selector ▸ hselector
  property := h.property ▸ hproperty
  value := h.value ▸ hvalue
  resolvedProperty := by
    obtain ⟨key, hkey, hresolved⟩ := h.resolvedProperty
    rw [hresolved]
    exact Resolver.oneLine_name (PropertyName.oneLine_of_ofText? hkey hproperty)
  resolvedValue := by
    cases hsupported : entry.resolvedProperty.isSupported with
    | true =>
      obtain ⟨name, -, -, hasked⟩ := h.resolvedValue hsupported
      rw [hasked]
      exact profile.oneLine_value strategy name _
    | false =>
      have hnone : entry.resolvedProperty = .unsupported := by
        cases hresolved : entry.resolvedProperty with
        | unsupported => rfl
        | _ =>
          rw [hresolved] at hsupported
          cases hsupported
      rw [h.unsupported hnone]
      decide

/-- An entry ends in a bracket, so without line feeds it is a line. -/
theorem OneLine.isLine {entry : AuditEntry} (h : entry.OneLine) :
    IsLine entry.text.toList := by
  have hopen : Text.OneLine " \x7b " := by decide
  have hcolon : Text.OneLine ": " := by decide
  have hclose : Text.OneLine " \x7d -> " := by decide
  have hbracket : Text.OneLine " [" := by decide
  have hstatus : ∀ status : Status, Text.OneLine status.text := by
    intro status
    cases status <;> decide
  unfold text
  refine IsLine.append ?_ ?_ ?_
  · simp only [Text.oneLine_append, h.selector, hopen, h.property, hcolon,
      h.value, hclose, and_self]
  · split
    · exact ⟨by decide, by decide⟩
    · refine IsLine.append ?_ ⟨by decide, by decide⟩ (by decide)
      simp only [Text.oneLine_append, h.resolvedProperty, hcolon,
        h.resolvedValue, hbracket, hstatus, and_self]
  · split <;> simp

end AuditEntry

/-! ## Reports -/

namespace AuditReport

variable {report : AuditReport}

/-- Every entry has one of the three verdicts. -/
theorem count_add_count_add_count (report : AuditReport) :
    report.count .native + report.count .needsPrefix +
      report.count .unsupported = report.entries.length := by
  unfold count
  induction report.entries with
  | nil => rfl
  | cons entry entries ih =>
    rw [List.length_cons, ← ih]
    cases hstatus : entry.status <;> simp [hstatus] <;> omega

theorem isLine_summary (report : AuditReport) :
    IsLine report.summary.toList := by
  have hentries : Text.OneLine " declarations: " := by decide
  have hnative : Text.OneLine " native, " := by decide
  have hprefix : Text.OneLine " need a prefix, " := by decide
  refine IsLine.append ?_ ⟨by decide, by decide⟩ (by decide)
  simp only [Text.oneLine_append, toString, Text.oneLine_repr, hentries,
    hnative, hprefix, and_self]

theorem toList_text (report : AuditReport) :
    report.text.toList =
      (report.entries.map (·.text.toList)).flatMap (· ++ ['\n']) ++
        report.summary.toList := by
  have hrows : ∀ entries : List AuditEntry,
      (entries.foldr (fun entry rest => entry.text ++ "\n" ++ rest)
        report.summary).toList =
          (entries.map (·.text.toList)).flatMap (· ++ ['\n']) ++
            report.summary.toList := by
    intro entries
    induction entries with
    | nil =>
      rw [List.foldr_nil, List.map_nil, List.flatMap_nil, List.nil_append]
    | cons entry entries ih =>
      rw [List.foldr_cons, String.toList_append, ih]
      simp
  exact hrows report.entries

/-- **A report has a line for each entry and the summary behind them.** -/
theorem lines_text (h : ∀ entry ∈ report.entries, entry.OneLine) :
    Text.lines report.text =
      report.entries.map (·.text.toList) ++ [report.summary.toList] := by
  have hlines : ∀ line ∈ report.entries.map (·.text.toList), IsLine line := by
    intro line hline
    obtain ⟨entry, hentry, rfl⟩ := List.mem_map.mp hline
    exact (h entry hentry).isLine
  have hsome : report.summary.toList.isEmpty = false := by simp [summary]
  rw [Text.lines, toList_text,
    Text.linesOfPieces_flatMap_append hlines report.isLine_summary.line_feed,
    hsome]
  rfl

theorem isLine_of_mem_lines_text (h : ∀ entry ∈ report.entries, entry.OneLine) :
    ∀ line ∈ Text.lines report.text, IsLine line := by
  intro line hline
  rw [lines_text h, List.mem_append, List.mem_singleton] at hline
  rcases hline with hline | hlast
  · obtain ⟨entry, hentry, rfl⟩ := List.mem_map.mp hline
    exact (h entry hentry).isLine
  · rw [hlast]
    exact report.isLine_summary

end AuditReport

/-! ## Printing -/

/-- **On a terminal the lines of a text are printed**, each cut to the
width. -/
theorem Request.lines_printed {verbosity : Verbosity}
    (hverbosity : verbosity ≠ .verbose) {text : String}
    (h : ∀ line ∈ Text.lines text, IsLine line) (width : Nat) :
    Text.lines (printed verbosity (some width) text) =
      (Text.lines text).map (Text.cutLine width) := by
  have hprinted : printed verbosity (some width) text =
      String.ofList (((Text.lines text).map (Text.cutLine width)).flatMap
        (· ++ ['\n'])) := by
    rw [List.flatMap_map]
    cases verbosity with
    | verbose => exact absurd rfl hverbosity
    | _ => rfl
  have hcut : ∀ line ∈ (Text.lines text).map (Text.cutLine width),
      IsLine line := by
    intro line hline
    obtain ⟨whole, hwhole, rfl⟩ := List.mem_map.mp hline
    exact (h whole hwhole).cutLine width
  have hnone : '\n' ∉ ([] : List Char) := by simp
  have hsplit := Text.linesOfPieces_flatMap_append hcut hnone
  rw [List.append_nil] at hsplit
  rw [hprinted, Text.lines, String.toList_ofList, hsplit]
  exact List.append_nil _

namespace Session

/-- Nothing in the report of an audit on a profile has a line feed. -/
theorem oneLine_of_mem_report {profile : Profile} {strategy : Strategy}
    {steps : List Step} {css : String} {report : AuditReport}
    (hreport : (step ⟨profile.surface, strategy⟩
      (after ⟨profile.surface, strategy⟩ .empty steps)
      (.audit css)).value.1 = .report report) :
    ∀ entry ∈ report.entries, entry.OneLine := by
  cases htokens : Css.tokenize css with
  | error e =>
    rw [step_audit_of_error _ _ htokens] at hreport
    cases hreport
  | ok tokens =>
    obtain ⟨report', hreport', haccount⟩ := exists_report _ steps htokens
    rw [hreport'] at hreport
    cases hreport
    intro entry hentry
    obtain ⟨declared, hdeclared, haccounts⟩ :=
      AuditEntry.exists_of_accounts haccount hentry
    obtain ⟨rule, hrule, hmem⟩ :=
      List.mem_flatMap.mp (List.mem_of_mem_filter hdeclared)
    obtain ⟨declaration, hdeclaration, rfl⟩ := List.mem_map.mp hmem
    obtain ⟨hproperty, hvalue⟩ := Css.oneLine_of_mem_declarations htokens rule
      hrule declaration hdeclaration
    exact haccounts.oneLine (Css.oneLine_selector htokens rule hrule) hproperty
      hvalue

/-- **A report is printed with one line for each entry**, at any width and on
every profile: nothing in an entry has a line feed, the last line counts the
verdicts, and on a terminal each line is printed whole if it fits and cut to
the width if it does not. -/
theorem audit_lines (profile : Profile) (strategy : Strategy)
    (steps : List Step) {css : String} {report : AuditReport}
    (hreport : (step ⟨profile.surface, strategy⟩
      (after ⟨profile.surface, strategy⟩ .empty steps)
      (.audit css)).value.1 = .report report) :
    (∀ entry ∈ report.entries, entry.OneLine) ∧
      Text.lines report.text =
        report.entries.map (·.text.toList) ++ [report.summary.toList] ∧
      (Text.lines report.text).length = report.entries.length + 1 ∧
      report.summary =
        toString report.entries.length ++ " declarations: " ++
          toString (report.count .native) ++ " native, " ++
          toString (report.count .needsPrefix) ++ " need a prefix, " ++
          toString (report.count .unsupported) ++ " unsupported" ∧
      report.count .native + report.count .needsPrefix +
        report.count .unsupported = report.entries.length ∧
      ∀ (verbosity : Verbosity) (width : Nat), verbosity ≠ .verbose →
        3 ≤ width →
        let shown :=
          Text.lines (Request.printed verbosity (some width) report.text)
        shown.length = report.entries.length + 1 ∧
          (∀ line ∈ shown, line.length ≤ width) ∧
          ∀ i : Nat, shown[i]? = (Text.lines report.text)[i]?.map fun line =>
            if line.length ≤ width then line
            else line.take (width - 3) ++ ['.', '.', '.'] := by
  have hentries := oneLine_of_mem_report hreport
  have hlines := AuditReport.lines_text hentries
  have hlength : (Text.lines report.text).length =
      report.entries.length + 1 := by
    rw [hlines, List.length_append, List.length_map, List.length_singleton]
  refine ⟨hentries, hlines, hlength, rfl, report.count_add_count_add_count, ?_⟩
  intro verbosity width hverbosity hwidth
  have hshown := Request.lines_printed hverbosity
    (AuditReport.isLine_of_mem_lines_text hentries) width
  refine ⟨?_, ?_, ?_⟩
  · rw [hshown, List.length_map, hlength]
  · intro line hline
    rw [hshown] at hline
    obtain ⟨whole, -, rfl⟩ := List.mem_map.mp hline
    exact Text.length_cutLine_le whole hwidth
  · intro i
    have hcut : Text.cutLine width = _ := funext (Text.cutLine_eq hwidth)
    rw [hshown, List.getElem?_map, hcut]

/-- A selector and a string that are written over two lines, printed at a
width that fits the entry and cuts the summary. -/
theorem audit_lines_string :
    let css := "a,\nb\x7bx:\"y\\\nz\"\x7d"
    ∃ profile report,
      Profile.ofSource {
        name := "strings"
        properties := [{ name := "x", types := [.any] }] } =
          .ok profile ∧
      (step ⟨profile.surface, .isolated⟩
        (after ⟨profile.surface, .isolated⟩ .empty [.audit css])
        (.audit css)).value.1 = .report report ∧
      Text.lines (Request.printed .quiet (some 40) report.text) =
        ["a, b \x7b x: \"yz\" \x7d -> x: \"yz\" [native]".toList,
          "1 declarations: 1 native, 0 need a pr...".toList] ∧
      Verbosity.quiet ≠ .verbose ∧ 3 ≤ 40 ∧
      (Text.lines report.text).length = report.entries.length + 1 ∧
      ∀ i : Nat,
        (Text.lines (Request.printed .quiet (some 40) report.text))[i]? =
          (Text.lines report.text)[i]?.map fun line =>
            if line.length ≤ 40 then line
            else line.take 37 ++ ['.', '.', '.'] := by
  intro css
  have htokens : Css.tokenize css =
      .ok [.ident "a", .comma, .whitespace, .ident "b", .opening .curly,
        .ident "x", .colon, .string "yz", .closing .curly] := by
    decide +kernel
  have hreport := fun profile : Profile =>
    report_step_audit (sound_after
      (Cache.sound_empty ⟨profile.surface, .isolated⟩) [.audit css]) htokens
  have hlines := fun profile =>
    audit_lines profile .isolated [.audit css] (hreport profile)
  refine ⟨_, _, rfl, hreport _, by decide +kernel, by decide, by decide,
    (hlines _).2.2.1, ?_⟩
  exact ((hlines _).2.2.2.2.2 .quiet 40 (by decide) (by decide)).2.2

end Session

end StyleProbe
