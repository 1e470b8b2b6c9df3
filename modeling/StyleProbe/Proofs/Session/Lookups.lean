import StyleProbe.Proofs.Audit.Account
import StyleProbe.Proofs.Cache.Lookup

/-!
# The lookups of sessions

What each step of a session looks up is written down without its query: a
question has one or two lookups, an audit has them entry by entry of its
report, and everything else has none. They depend on the step and on the
resolver's answers only, so the past of a cache is the lookups of the steps
that were taken.

Main statements: `Step.lookups`, `recalls_step` (one step) and
`recalls_after` (a whole session).
-/

namespace StyleProbe

/-- The lookups of an entry: the name of its property, taken without a vendor
prefix, and if that is supported its value, also without one, under the name
that was found. -/
def AuditEntry.lookups (entry : AuditEntry) : List Lookup :=
  (PropertyName.ofText? (Vendor.stripped entry.property)).toList.map .name ++
    if entry.resolvedProperty.isSupported then
      (PropertyName.ofText? entry.resolvedProperty.name).toList.map
        (.value · (Vendor.stripped entry.value))
    else []

namespace Session

/-- The lookups of a question. A blank name has none, and both questions
together ask for the value only if the name is not supported. -/
def Question.lookups (resolver : Resolver) : Question → List Lookup
  | name key =>
    match PropertyName.ofText? key with
    | none => []
    | some key => [.name key]
  | value key v =>
    match PropertyName.ofText? key with
    | none => []
    | some key => [.value key v]
  | resolve key v =>
    match PropertyName.ofText? key with
    | none => []
    | some key =>
      if (resolver.name key).value.isSupported then [.name key]
      else [.name key, .value key v]

/-- The lookups of a step: those of a question to the cache, and those of the
entries of a report. An audit that fails has none, and neither has a step
that goes past the cache. -/
def Step.lookups (resolver : Resolver) : Step → List Lookup
  | cached question => question.lookups resolver
  | uncached _ => []
  | recognizes _ => []
  | audit css =>
    match (audit css).direct resolver with
    | .report report => report.entries.flatMap AuditEntry.lookups
    | _ => []

/-- The step goes through the cache. -/
def Step.isCached : Step → Bool
  | cached _ => true
  | audit _ => true
  | _ => false

end Session

/-! ## Entries -/

namespace Audit

variable {resolver : Resolver}

theorem lookups_entryOf? (selector : String) (declaration : Css.Declaration) :
    (entryOf? selector declaration).lookups resolver =
      ((entryOf? selector declaration).answer resolver).value.toList.flatMap
        AuditEntry.lookups := by
  cases hkey :
      PropertyName.ofText? (Vendor.stripped declaration.property) with
  | none =>
    rw [entryOf?_of_nameless hkey]
    rfl
  | some key =>
    have hlookups : (entryOf? selector declaration).lookups resolver =
        .name key :: (valueUnder? (resolver.name key).value
          (Vendor.stripped declaration.value)).lookups resolver := by
      simp only [entryOf?, hkey, Query.lookups_bind, Query.lookups_pure,
        List.append_nil]
      rfl
    rw [hlookups, value_answer_entryOf? hkey]
    cases hsupported : (resolver.name key).value.isSupported with
    | true =>
      obtain ⟨name, hname, -⟩ := Resolver.ofText?_resolved hsupported
      rw [valueUnder?_of_supported _ hsupported hname, Query.lookups_bind]
      simp [Query.askValue, Query.lookups, AuditEntry.lookups, hkey, hname,
        hsupported]
    | false =>
      rw [valueUnder?_of_unsupported _ hsupported]
      simp [AuditEntry.lookups, hkey, hsupported]

theorem lookups_entries (declared : List (String × Css.Declaration)) :
    (entries declared).lookups resolver =
      ((entries declared).answer resolver).value.flatMap AuditEntry.lookups := by
  induction declared with
  | nil => rfl
  | cons first rest ih =>
    obtain ⟨selector, declaration⟩ := first
    rw [entries]
    simp only [Query.lookups_bind, Query.lookups_pure, List.append_nil,
      Query.value_answer_bind, Query.value_answer_pure, List.flatMap_append,
      lookups_entryOf?, ih]

theorem lookups_ofRules (rules : List Css.Rule) :
    (ofRules rules).lookups resolver =
      ((ofRules rules).answer resolver).value.entries.flatMap
        AuditEntry.lookups := by
  rw [entries_ofRules, ← lookups_entries, ofRules, Query.lookups_bind]
  exact List.append_nil _

end Audit

/-! ## Steps -/

namespace Session

variable {resolver : Resolver} {cache : Cache} {past : List Lookup}

theorem lookups_query (question : Question) :
    question.query.lookups resolver = question.lookups resolver := by
  cases question with
  | name key =>
    simp only [Question.query, Question.lookups]
    cases PropertyName.ofText? key <;> rfl
  | value key v =>
    simp only [Question.query, Question.lookups]
    cases PropertyName.ofText? key <;> rfl
  | resolve key v =>
    simp only [Question.query, Question.lookups]
    cases PropertyName.ofText? key with
    | none => rfl
    | some name =>
      rw [Query.lookups_bind]
      simp only [Query.resolve, Query.lookups]
      cases (resolver.name name).value <;> rfl

theorem lookups_auditQuery (css : String) :
    (auditQuery css).lookups resolver =
      (Step.audit css).lookups resolver := by
  simp only [auditQuery, Step.lookups, Step.direct]
  cases htokens : Css.tokenize css with
  | error e =>
    rw [Audit.ofStylesheet_of_error htokens]
    rfl
  | ok tokens =>
    rw [Audit.ofStylesheet_of_ok htokens]
    dsimp only
    rw [((Cache.sound_empty resolver).answer _).1, ← Audit.lookups_ofRules,
      Query.lookups_bind]
    exact List.append_nil _

/-- **A step adds its lookups to the past**, and if it goes through the cache
makes the calls of those that are new. -/
theorem recalls_step (taken : Step) (hsound : cache.Sound resolver)
    (h : cache.Recalls past) :
    (step resolver cache taken).value.2.Recalls
        (past ++ taken.lookups resolver) ∧
      (taken.isCached = true →
        (step resolver cache taken).calls =
          Lookup.traffic resolver past (taken.lookups resolver)) := by
  cases taken with
  | cached question =>
    rw [Step.lookups, ← lookups_query]
    obtain ⟨hrecalls, hcalls⟩ := h.answer question.query hsound
    exact ⟨hrecalls, fun _ => hcalls⟩
  | uncached question =>
    rw [Step.lookups, List.append_nil]
    exact ⟨h, fun hcached => by cases hcached⟩
  | recognizes key =>
    rw [Step.lookups, List.append_nil]
    exact ⟨h, fun hcached => by cases hcached⟩
  | audit css =>
    rw [← lookups_auditQuery]
    obtain ⟨hrecalls, hcalls⟩ := h.answer (auditQuery css) hsound
    exact ⟨hrecalls, fun _ => hcalls⟩

/-- A session adds the lookups of its steps to the past. -/
theorem recalls_after (steps : List Step) (hsound : cache.Sound resolver)
    (h : cache.Recalls past) :
    (after resolver cache steps).Recalls
      (past ++ steps.flatMap (Step.lookups resolver)) := by
  induction steps generalizing cache past with
  | nil =>
    rw [List.flatMap_nil, List.append_nil]
    exact h
  | cons first rest ih =>
    obtain ⟨hrecalls, -⟩ := recalls_step first hsound h
    have hrest := ih (step_answer first hsound).2 hrecalls
    rw [List.append_assoc, ← List.flatMap_cons] at hrest
    exact hrest

end Session

end StyleProbe
