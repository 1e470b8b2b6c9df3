import StyleProbe.Query

/-!
# Cached answers

Remembers every answer a resolver has given, by property name and by pair of
property name and value, and counts how often it was asked for one again.
What an environment can do does not change, so no answer is ever forgotten.

Main statements: `Cache.lookupName` and `Cache.lookupValue` on a hit and on a
miss.
-/

namespace StyleProbe

/-- The answers given so far, latest first, and the number of times one was
asked for again. -/
structure Cache where
  names : List (PropertyName × PropertyResolution)
  values : List ((PropertyName × String) × ValueResolution)
  hits : Nat

namespace Cache

/-- Nothing asked yet. -/
def empty : Cache := ⟨[], [], 0⟩

/-- The number of remembered answers. -/
def size (cache : Cache) : Nat :=
  cache.names.length + cache.values.length

def isEmpty (cache : Cache) : Bool := cache.size == 0

/-- One more answer from memory. -/
def hit (cache : Cache) : Cache := { cache with hits := cache.hits + 1 }

/-- The name of a property, from memory or from the resolver. -/
def lookupName (resolver : Resolver) (key : PropertyName) (cache : Cache) :
    Traced (PropertyResolution × Cache) :=
  match cache.names.lookup key with
  | some resolution => pure (resolution, cache.hit)
  | none => do
    let resolution ← resolver.name key
    return (resolution,
      { cache with names := (key, resolution) :: cache.names })

/-- The form of a value, from memory or from the resolver. -/
def lookupValue (resolver : Resolver) (key : PropertyName) (value : String)
    (cache : Cache) : Traced (ValueResolution × Cache) :=
  match cache.values.lookup (key, value) with
  | some resolution => pure (resolution, cache.hit)
  | none => do
    let resolution ← resolver.value key value
    return (resolution,
      { cache with values := ((key, value), resolution) :: cache.values })

/-- The answer to a query, each of its questions put to the cache. -/
def answer (resolver : Resolver) {α : Type} :
    Query α → Cache → Traced (α × Cache)
  | .done result, cache => pure (result, cache)
  | .name key next, cache => do
    let (resolution, cache) ← cache.lookupName resolver key
    answer resolver (next resolution) cache
  | .value key v next, cache => do
    let (resolution, cache) ← cache.lookupValue resolver key v
    answer resolver (next resolution) cache

/-! ## Laws -/

/-- A remembered name is given again, and no call is made for it. -/
theorem lookupName_hit (resolver : Resolver) {key : PropertyName}
    {resolution : PropertyResolution} {cache : Cache}
    (h : cache.names.lookup key = some resolution) :
    cache.lookupName resolver key = ⟨(resolution, cache.hit), []⟩ := by
  rw [lookupName, h]
  rfl

/-- A name that is not remembered is the resolver's answer. -/
theorem lookupName_miss (resolver : Resolver) {key : PropertyName}
    {cache : Cache} (h : cache.names.lookup key = none) :
    (cache.lookupName resolver key).value =
        ((resolver.name key).value,
          { cache with
            names := (key, (resolver.name key).value) :: cache.names }) ∧
      (cache.lookupName resolver key).calls = (resolver.name key).calls := by
  rw [lookupName, h]
  simp

theorem lookupValue_hit (resolver : Resolver) {key : PropertyName}
    {value : String} {resolution : ValueResolution} {cache : Cache}
    (h : cache.values.lookup (key, value) = some resolution) :
    cache.lookupValue resolver key value =
      ⟨(resolution, cache.hit), []⟩ := by
  rw [lookupValue, h]
  rfl

theorem lookupValue_miss (resolver : Resolver) {key : PropertyName}
    {value : String} {cache : Cache}
    (h : cache.values.lookup (key, value) = none) :
    (cache.lookupValue resolver key value).value =
        ((resolver.value key value).value,
          { cache with
            values := ((key, value), (resolver.value key value).value) ::
              cache.values }) ∧
      (cache.lookupValue resolver key value).calls =
        (resolver.value key value).calls := by
  rw [lookupValue, h]
  simp

/-- A query is answered step by step: what follows it goes on from the cache
that it leaves. -/
theorem value_answer_bind (resolver : Resolver) {α β : Type} (q : Query α)
    (f : α → Query β) (cache : Cache) :
    (cache.answer resolver (q >>= f)).value =
      ((cache.answer resolver q).value.2.answer resolver
        (f (cache.answer resolver q).value.1)).value := by
  induction q generalizing cache with
  | done result => rfl
  | name key next ih => exact ih _ _
  | value key v next ih => exact ih _ _

end Cache

end StyleProbe
