import StyleProbe.Proofs.Css.Stylesheet.Recovery
import StyleProbe.Session

/-!
# Audits that fail

An audit fails when its style sheet cannot be split into tokens, and for no
other reason. Everything after that recovers: an audit by the walk that
raises faults, but recovers from them, is the audit itself. All of the style
sheet is walked before anything is asked for, so an audit that fails has
made no call and leaves the cache as it was.

Main statement: `Session.audit_fails_iff`.
-/

namespace StyleProbe

namespace Audit

/-- The audit of the rules of a style sheet. -/
def ofRules (rules : List Css.Rule) : Query AuditReport := do
  let entries ← entries (declarations rules)
  return { entries }

theorem ofStylesheet_of_ok {css : String} {tokens : List Css.Token}
    (h : Css.tokenize css = .ok tokens) :
    ofStylesheet css = .ok (ofRules (Css.rules tokens)) := by
  rw [ofStylesheet, h]
  rfl

theorem ofStylesheet_of_error {css : String} {e : Css.Error}
    (h : Css.tokenize css = .error e) : ofStylesheet css = .error e := by
  rw [ofStylesheet, h]
  rfl

/-- The audit of a style sheet by the walk that raises the faults from which
it does not recover. -/
def walking (recovery : Css.Recovery) (css : String) :
    Except Css.Error (Query AuditReport) := do
  let tokens ← Css.tokenize css
  let walked ← Css.walk recovery false tokens
  return ofRules walked.rules

/-- A walk that recovers adds no error to an audit. -/
theorem walking_lenient (css : String) :
    walking .lenient css = ofStylesheet css := by
  unfold walking
  cases htokens : Css.tokenize css with
  | error e => exact (ofStylesheet_of_error htokens).symm
  | ok tokens =>
    have hrules := Css.rules_walk_lenient tokens
    cases hwalk : Css.walk .lenient false tokens with
    | error e =>
      rw [hwalk] at hrules
      cases hrules
    | ok walked =>
      rw [hwalk] at hrules
      have hwalked : walked.rules = Css.rules tokens := Except.ok.inj hrules
      rw [ofStylesheet_of_ok htokens, ← hwalked]
      simp only [bind, Except.bind, hwalk]
      rfl

end Audit

namespace Session

variable {css : String}

theorem step_audit_of_error (resolver : Resolver) (cache : Cache)
    {e : Css.Error} (h : Css.tokenize css = .error e) :
    step resolver cache (.audit css) = ⟨(.cssError e, cache), []⟩ := by
  rw [step, auditQuery, Audit.ofStylesheet_of_error h]
  rfl

theorem step_audit_of_ok (resolver : Resolver) (cache : Cache)
    {tokens : List Css.Token} (h : Css.tokenize css = .ok tokens) :
    (step resolver cache (.audit css)).value.1 =
      .report (cache.answer resolver
        (Audit.ofRules (Css.rules tokens))).value.1 := by
  rw [step, auditQuery, Audit.ofStylesheet_of_ok h]
  exact congrArg Prod.fst
    (Cache.value_answer_bind resolver (Audit.ofRules (Css.rules tokens))
      (fun report => pure (Answer.report report)) cache)

/-- **Only a style sheet that cannot be split into tokens makes an audit
fail**, with the error of splitting it, and then nothing else happens: no
call is made, and the cache stays as it is. -/
theorem audit_fails_iff (resolver : Resolver) (cache : Cache) (css : String) :
    Audit.walking .lenient css = Audit.ofStylesheet css ∧
      (∀ e, (step resolver cache (.audit css)).value.1 = .cssError e ↔
        Css.tokenize css = .error e) ∧
      (∀ e, Css.tokenize css = .error e →
        step resolver cache (.audit css) = ⟨(.cssError e, cache), []⟩) ∧
      ((∃ tokens, Css.tokenize css = .ok tokens) ↔
        ∃ report, (step resolver cache (.audit css)).value.1 =
          .report report) := by
  refine ⟨Audit.walking_lenient css, ?_, ?_, ?_⟩
  · intro e
    cases htokens : Css.tokenize css with
    | error e' =>
      rw [step_audit_of_error resolver cache htokens]
      simp
    | ok tokens =>
      rw [step_audit_of_ok resolver cache htokens]
      simp
  · intro e h
    exact step_audit_of_error resolver cache h
  · cases htokens : Css.tokenize css with
    | error e =>
      rw [step_audit_of_error resolver cache htokens]
      simp
    | ok tokens =>
      rw [step_audit_of_ok resolver cache htokens]
      simp

end Session

end StyleProbe
