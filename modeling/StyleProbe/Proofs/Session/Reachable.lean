import StyleProbe.Proofs.Session.Failure
import StyleProbe.Proofs.Session.Transparency

/-!
# The caches of sessions

Every cache that a session can meet is one that some steps leave, from the
empty cache on. Such a cache is sound, so an audit reports what the resolver
answers without a cache.

Main statements: `sound_after` and `report_step_audit`.
-/

namespace StyleProbe.Session

/-- The cache that the steps leave. -/
def after (resolver : Resolver) : Cache → List Step → Cache
  | cache, [] => cache
  | cache, first :: rest =>
    after resolver (step resolver cache first).value.2 rest

variable {resolver : Resolver}

/-- Steps leave a sound cache sound. -/
theorem sound_after {cache : Cache} (h : cache.Sound resolver)
    (steps : List Step) : (after resolver cache steps).Sound resolver := by
  induction steps generalizing cache with
  | nil => exact h
  | cons first rest ih => exact ih (step_answer first h).2

/-- An audit in a session reports what the resolver itself answers. -/
theorem report_step_audit {cache : Cache} (h : cache.Sound resolver)
    {css : String} {tokens : List Css.Token}
    (htokens : Css.tokenize css = .ok tokens) :
    (step resolver cache (.audit css)).value.1 =
      .report ((Audit.ofRules (Css.rules tokens)).answer resolver).value := by
  rw [step_audit_of_ok resolver cache htokens, (h.answer _).1]

end StyleProbe.Session
