import StyleProbe.Proofs.Audit.Account
import StyleProbe.Proofs.Css.Stylesheet.Selector

/-!
# Selectors in a report

Each entry of a report has the selector of the rule that its declaration
stands in. The selector is the rule's own as long as the prelude is legible:
it is read back as that prelude, and no other legible prelude has it.

Main statement: `Session.audit_selector`.
-/

namespace StyleProbe

theorem AuditEntry.Accounts.exists_rule {resolver : Resolver}
    {rules : List Css.Rule} {declared : String × Css.Declaration}
    {entry : AuditEntry} (h : entry.Accounts resolver declared)
    (hdeclared : declared ∈ Audit.declarations rules) :
    ∃ rule ∈ rules, entry.selector = rule.selector ∧
      ⟨entry.property, entry.value⟩ ∈ rule.declarations := by
  obtain ⟨rule, hrule, hmem⟩ := List.mem_flatMap.mp hdeclared
  obtain ⟨declaration, hdeclaration, rfl⟩ := List.mem_map.mp hmem
  refine ⟨rule, hrule, h.selector, ?_⟩
  rw [h.property, h.value]
  exact hdeclaration

namespace Session

/-- **Reported selectors are those of legible rules.** Every entry of an audit
has the selector of a rule with its declaration. The selector of a rule with a
legible prelude is read back as that prelude, less the whitespace at its ends
and with each run of whitespace as one token, so two such rules, of whatever
style sheets, have the same selector only if their preludes are the same. -/
theorem audit_selector (resolver : Resolver) (steps : List Step)
    {css : String} {tokens : List Css.Token}
    (htokens : Css.tokenize css = .ok tokens) :
    ∃ report,
      (step resolver (after resolver .empty steps) (.audit css)).value.1 =
        .report report ∧
      (∀ entry ∈ report.entries, ∃ rule ∈ Css.rules tokens,
        entry.selector = rule.selector ∧
          ⟨entry.property, entry.value⟩ ∈ rule.declarations) ∧
      ∀ rule ∈ Css.rules tokens, rule.Legible →
        Css.tokenize rule.selector =
            .ok (Css.collapse rule.solidPrelude) ∧
          ∀ {css' : String} {tokens' : List Css.Token},
            Css.tokenize css' = .ok tokens' →
            ∀ rule' ∈ Css.rules tokens', rule'.Legible →
              rule'.selector = rule.selector →
              Css.collapse rule'.solidPrelude =
                Css.collapse rule.solidPrelude := by
  obtain ⟨report, hreport, haccount⟩ := exists_report resolver steps htokens
  refine ⟨report, hreport, ?_, ?_⟩
  · intro entry hentry
    obtain ⟨declared, hdeclared, haccounts⟩ :=
      AuditEntry.exists_of_accounts haccount hentry
    exact haccounts.exists_rule (List.mem_of_mem_filter hdeclared)
  · intro rule hrule hlegible
    have hread := Css.tokenize_selector_of_legible
      (Css.lexed_of_mem_tokenize htokens) hrule hlegible
    refine ⟨hread, ?_⟩
    intro css' tokens' htokens' rule' hrule' hlegible' hsame
    have hread' := Css.tokenize_selector_of_legible
      (Css.lexed_of_mem_tokenize htokens') hrule' hlegible'
    rw [hsame, hread] at hread'
    exact (Except.ok.inj hread').symm

/-- The block of a rule with one declaration. -/
def colorRed : List Css.Component :=
  [.token (.ident "color"), .token .colon, .token (.ident "red")]

theorem rules_colorRed {first : Css.Token} {prelude : List Css.Token}
    (hfirst : Css.StartsRule 0 first)
    (hprelude : ∀ t ∈ prelude, Css.NoBrace t) :
    Css.rules (first :: (prelude ++ .opening .curly ::
      (Css.Component.flattenAll colorRed ++ [.closing .curly]))) =
        [⟨first :: prelude, colorRed⟩] := by
  have hblock : Css.Component.WellFormedAll colorRed := by
    simp [colorRed, Css.Component.WellFormedAll, Css.Component.WellFormed,
      Css.Token.isPlain]
  exact (Css.Segment.rule hfirst hprelude hblock (.nil 0)).rulesFrom_eq

/-- A selector with a combinator, a string, a class and a function. -/
theorem audit_selector_legible :
    ∃ tokens rule report,
      Css.tokenize "a  > .b[c='d']:not(e) {color:red}" = .ok tokens ∧
      Css.rules tokens = [rule] ∧ rule.Legible ∧
      rule.selector = "a > .b[c=\"d\"]:not(e)" ∧
      (step ⟨Script.surface ⟨[], [], false⟩, .default⟩
        (after ⟨Script.surface ⟨[], [], false⟩, .default⟩ .empty [])
        (.audit "a  > .b[c='d']:not(e) {color:red}")).value.1 =
          .report report ∧
      Css.tokenize rule.selector =
        .ok (Css.collapse rule.solidPrelude) := by
  let prelude : List Css.Token :=
    [.whitespace, .delim '>', .whitespace, .delim '.', .ident "b",
      .opening .square, .ident "c", .delim '=', .string "d", .closing .square,
      .colon, .function "not", .ident "e", .closing .round, .whitespace]
  let rule : Css.Rule := ⟨.ident "a" :: prelude, colorRed⟩
  have htokens : Css.tokenize "a  > .b[c='d']:not(e) {color:red}" =
      .ok (.ident "a" :: (prelude ++ .opening .curly ::
        (Css.Component.flattenAll colorRed ++ [.closing .curly]))) := by
    decide +kernel
  have hfirst : Css.StartsRule 0 (.ident "a") := ⟨by simp, by simp, by simp⟩
  have hprelude : ∀ t ∈ prelude, Css.NoBrace t := by
    simp [prelude, Css.NoBrace]
  have hrules := rules_colorRed hfirst hprelude
  have hlegible : rule.Legible := by decide +kernel
  obtain ⟨report, hreport, -, hread⟩ :=
    audit_selector ⟨Script.surface ⟨[], [], false⟩, .default⟩ [] htokens
  have hmem : rule ∈ Css.rules (.ident "a" :: (prelude ++ .opening .curly ::
      (Css.Component.flattenAll colorRed ++ [.closing .curly]))) := by
    rw [hrules]
    exact List.mem_cons_self
  exact ⟨_, rule, report, htokens, hrules, hlegible, by decide +kernel,
    hreport, (hread rule hmem hlegible).1⟩

/-- A sign that is not in the text of its number: another rule, without the
sign, has the same selector. -/
theorem selector_without_sign :
    ∃ tokens tokens' rule rule',
      Css.tokenize "a:b(2n+1){color:red}" = .ok tokens ∧
      Css.tokenize "a:b(2n1){color:red}" = .ok tokens' ∧
      Css.rules tokens = [rule] ∧ Css.rules tokens' = [rule'] ∧
      rule.selector = "a:b(2n1)" ∧ rule'.selector = rule.selector ∧
      Css.tokenize rule.selector ≠ .ok (Css.collapse rule.solidPrelude) ∧
      Css.collapse rule'.solidPrelude ≠ Css.collapse rule.solidPrelude := by
  let signed : List Css.Token :=
    [.colon, .function "b", .dimension (.ofNat 2) "n", .number (.ofNat 1),
      .closing .round]
  let unsigned : List Css.Token :=
    [.colon, .function "b", .dimension (.ofNat 2) "n1", .closing .round]
  have hrules : ∀ prelude ∈ [signed, unsigned],
      Css.rules (.ident "a" :: (prelude ++ .opening .curly ::
        (Css.Component.flattenAll colorRed ++ [.closing .curly]))) =
          [⟨.ident "a" :: prelude, colorRed⟩] := by
    intro prelude hprelude
    apply rules_colorRed ⟨by simp, by simp, by simp⟩
    simp only [List.mem_cons, List.not_mem_nil, or_false] at hprelude
    rcases hprelude with rfl | rfl <;> simp [signed, unsigned, Css.NoBrace]
  exact ⟨_, _, _, _, by decide +kernel, by decide +kernel,
    hrules signed (by simp), hrules unsigned (by simp), by decide +kernel,
    by decide +kernel, by decide +kernel, by decide +kernel⟩

end Session

end StyleProbe
