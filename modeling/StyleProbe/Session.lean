import StyleProbe.Audit
import StyleProbe.Cache

/-!
# Sessions

A sequence of questions to one resolver with one cache. Each step gives an
answer, and shows the cache after it and the calls that it made on the
surface. A step that fails leaves the session as it was.
-/

namespace StyleProbe.Session

/-- A question about a property, by the name that a user typed. -/
inductive Question where
  | name (key : String)
  | value (key value : String)
  | resolve (key value : String)

/-- One step of a session. A question is put to the cache or past it. -/
inductive Step where
  | cached (question : Question)
  | uncached (question : Question)
  | recognizes (key : String)
  | audit (css : String)

/-- What a step came to. -/
inductive Answer where
  | name (resolution : PropertyResolution)
  | value (resolution : ValueResolution)
  | resolution (resolution : Resolution)
  | recognized (answer : Bool)
  | report (report : AuditReport)
  | noName
  | cssError (error : Css.Error)

/-- What a step shows: its answer, the cache after it, and its calls. -/
structure Outcome where
  answer : Answer
  cache : Cache
  calls : List Call

/-- The query that a question makes; a blank name makes none. -/
def Question.query : Question → Query Answer
  | name key =>
    match PropertyName.ofText? key with
    | none => pure .noName
    | some key => return .name (← Query.askName key)
  | value key v =>
    match PropertyName.ofText? key with
    | none => pure .noName
    | some key => return .value (← Query.askValue key v)
  | resolve key v =>
    match PropertyName.ofText? key with
    | none => pure .noName
    | some key => return .resolution (← Query.resolve key v)

/-- The audit of a style sheet as an answer. -/
def auditQuery (css : String) : Query Answer :=
  match Audit.ofStylesheet css with
  | .error e => pure (.cssError e)
  | .ok query => return .report (← query)

/-- Takes one step. -/
def step (resolver : Resolver) (cache : Cache) :
    Step → Traced (Answer × Cache)
  | .cached question => cache.answer resolver question.query
  | .uncached question => do
    let answer ← question.query.answer resolver
    return (answer, cache)
  | .recognizes key => do
    let answer ← resolver.surface.ask key
    return (.recognized answer, cache)
  | .audit css => cache.answer resolver (auditQuery css)

/-- Takes the steps in order and shows each. -/
def run (resolver : Resolver) : Cache → List Step → List Outcome
  | _, [] => []
  | cache, first :: rest =>
    let taken := step resolver cache first
    ⟨taken.value.1, taken.value.2, taken.calls⟩ ::
      run resolver taken.value.2 rest

end StyleProbe.Session
