import StyleProbe.Resolver

/-!
# Queries

A computation that asks for names and values, whoever answers. The combined
question and the audit of a style sheet are queries; a resolver answers them
directly and a cache answers them from memory where it can, so both follow
the same body.

Main statements: the equations of `Query.answer`.
-/

namespace StyleProbe

/-- A computation that may ask which name a property has, or which form of a
value is kept, before it is done. -/
inductive Query (α : Type) where
  | done (result : α)
  | name (key : PropertyName) (next : PropertyResolution → Query α)
  | value (key : PropertyName) (value : String)
      (next : ValueResolution → Query α)

namespace Query

variable {α β : Type}

/-- Goes on with the result of a query. -/
def andThen : Query α → (α → Query β) → Query β
  | done result, f => f result
  | name key next, f => name key fun resolution => (next resolution).andThen f
  | value key v next, f =>
    value key v fun resolution => (next resolution).andThen f

instance : Monad Query where
  pure := done
  bind := andThen

/-- Asks for the name of a property. -/
def askName (key : PropertyName) : Query PropertyResolution :=
  name key done

/-- Asks for the form of a value. -/
def askValue (key : PropertyName) (v : String) : Query ValueResolution :=
  value key v done

/-- Asks for the name and, where there is none, for the value. -/
def resolve (key : PropertyName) (v : String) : Query Resolution :=
  name key fun
    | .unsupported => value key v fun found => done (.ofValue found)
    | resolution => done (.property resolution)

/-- The answer that a resolver gives without remembering anything. -/
def answer (resolver : Resolver) : Query α → Traced α
  | done result => pure result
  | name key next => do
    let resolution ← resolver.name key
    (next resolution).answer resolver
  | value key v next => do
    let resolution ← resolver.value key v
    (next resolution).answer resolver

/-! ## Laws -/

theorem value_answer_andThen (resolver : Resolver) (q : Query α)
    (f : α → Query β) :
    ((q.andThen f).answer resolver).value =
      ((f (q.answer resolver).value).answer resolver).value := by
  induction q with
  | done result => rfl
  | name key next ih => exact ih _
  | value key v next ih => exact ih _

@[simp] theorem value_answer_pure (resolver : Resolver) (result : α) :
    ((pure result : Query α).answer resolver).value = result := rfl

@[simp] theorem value_answer_bind (resolver : Resolver) (q : Query α)
    (f : α → Query β) :
    ((q >>= f).answer resolver).value =
      ((f (q.answer resolver).value).answer resolver).value :=
  value_answer_andThen resolver q f

end Query

end StyleProbe
