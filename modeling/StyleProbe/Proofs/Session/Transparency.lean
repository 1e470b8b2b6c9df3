import StyleProbe.Proofs.Cache.Sound
import StyleProbe.Session

/-!
# Sessions and their memory

A session answers as if it remembered nothing. What each step should come
to is written down without a cache: `Question.direct` asks the resolver,
and an audit is taken on a cache of its own. The steps may come in any
order, and questions past the cache may stand between them.

The invariant is `Cache.Sound`: `step_answer` is the step, and
`answers_run` the run.
-/

namespace StyleProbe

/-- The combined question put to a resolver: the name if there is one, and
the value otherwise. -/
def Resolver.resolve (resolver : Resolver) (key : PropertyName)
    (value : String) : Resolution :=
  match (resolver.name key).value with
  | .unsupported => .ofValue (resolver.value key value).value
  | resolution => .property resolution

namespace Session

variable {resolver : Resolver} {cache : Cache}

/-- The resolver's own answer to a question. -/
def Question.direct (resolver : Resolver) : Question → Answer
  | name key =>
    match PropertyName.ofText? key with
    | none => .noName
    | some key => .name (resolver.name key).value
  | value key v =>
    match PropertyName.ofText? key with
    | none => .noName
    | some key => .value (resolver.value key v).value
  | resolve key v =>
    match PropertyName.ofText? key with
    | none => .noName
    | some key => .resolution (resolver.resolve key v)

/-- What a step comes to if nothing was asked before it: the resolver's own
answer, or the audit of the style sheet with a fresh cache. -/
def Step.direct (resolver : Resolver) : Step → Answer
  | cached question => question.direct resolver
  | uncached question => question.direct resolver
  | recognizes key => .recognized (resolver.surface.recognizes key)
  | audit css =>
    match Audit.ofStylesheet css with
    | .error e => .cssError e
    | .ok query => .report (Cache.empty.answer resolver query).value.1

/-! ## One step -/

theorem value_answer_resolve (resolver : Resolver) (key : PropertyName)
    (v : String) :
    ((Query.resolve key v).answer resolver).value = resolver.resolve key v := by
  simp only [Query.resolve, Query.answer, Traced.value_bind, Resolver.resolve]
  cases (resolver.name key).value <;> rfl

theorem value_answer_query (resolver : Resolver) (question : Question) :
    (question.query.answer resolver).value = question.direct resolver := by
  cases question with
  | name key =>
    simp only [Question.query, Question.direct]
    cases PropertyName.ofText? key <;> rfl
  | value key v =>
    simp only [Question.query, Question.direct]
    cases PropertyName.ofText? key <;> rfl
  | resolve key v =>
    simp only [Question.query, Question.direct]
    cases PropertyName.ofText? key with
    | none => rfl
    | some name =>
      simp only [Query.value_answer_bind, Query.value_answer_pure,
        value_answer_resolve]

theorem value_answer_auditQuery (resolver : Resolver) (css : String) :
    ((auditQuery css).answer resolver).value =
      (Step.audit css).direct resolver := by
  simp only [auditQuery, Step.direct]
  cases Audit.ofStylesheet css with
  | error e => rfl
  | ok query =>
    simp only [Query.value_answer_bind, Query.value_answer_pure,
      ((Cache.sound_empty resolver).answer query).1]

/-- A step on a sound cache gives its direct answer and leaves the cache
sound. -/
theorem step_answer (taken : Step) (h : cache.Sound resolver) :
    (step resolver cache taken).value.1 = taken.direct resolver ∧
      (step resolver cache taken).value.2.Sound resolver := by
  cases taken with
  | cached question =>
    obtain ⟨hanswer, hsound⟩ := h.answer question.query
    exact ⟨hanswer.trans (value_answer_query resolver question), hsound⟩
  | uncached question => exact ⟨value_answer_query resolver question, h⟩
  | recognizes key => exact ⟨rfl, h⟩
  | audit css =>
    obtain ⟨hanswer, hsound⟩ := h.answer (auditQuery css)
    exact ⟨hanswer.trans (value_answer_auditQuery resolver css), hsound⟩

/-! ## Whole sessions -/

/-- From a sound cache on, every step gives its direct answer. -/
theorem answers_run_of_sound (steps : List Step) (h : cache.Sound resolver) :
    (run resolver cache steps).map (·.answer) =
      steps.map (Step.direct resolver) := by
  induction steps generalizing cache with
  | nil => rfl
  | cons first rest ih =>
    obtain ⟨hanswer, hsound⟩ := step_answer first h
    rw [run, List.map_cons, List.map_cons, ih hsound, hanswer]

/-- **A session is transparent**: from the empty cache on, each step of any
sequence gives the answer it would give alone. No answer depends on the
steps before it. -/
theorem answers_run (resolver : Resolver) (steps : List Step) :
    (run resolver Cache.empty steps).map (·.answer) =
      steps.map (Step.direct resolver) :=
  answers_run_of_sound steps (Cache.sound_empty resolver)

end Session

end StyleProbe
