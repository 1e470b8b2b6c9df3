import StyleProbe.Assoc
import StyleProbe.Cache

/-!
# Sound caches

A cache is sound for a resolver when everything it remembers is what the
resolver would answer itself. The empty cache is sound, a lookup keeps a
sound cache sound whether it hits or misses, and so does a whole query,
however its later questions depend on the earlier answers.

Main statement: `Sound.answer` (a query answered from a sound cache has the
answer that it has without a cache, and leaves the cache sound).
-/

namespace StyleProbe.Cache

variable {resolver : Resolver} {cache : Cache}

/-- Every remembered answer is the resolver's own. -/
structure Sound (resolver : Resolver) (cache : Cache) : Prop where
  names : ∀ {key resolution}, (key, resolution) ∈ cache.names →
    resolution = (resolver.name key).value
  values : ∀ {key value resolution},
    ((key, value), resolution) ∈ cache.values →
    resolution = (resolver.value key value).value

theorem sound_empty (resolver : Resolver) : Sound resolver empty where
  names h := by cases h
  values h := by cases h

theorem Sound.hit (h : Sound resolver cache) : Sound resolver cache.hit :=
  ⟨h.names, h.values⟩

/-- Looking up a name gives the resolver's answer and keeps the cache
sound: a hit is an old answer, and a miss remembers the resolver's. -/
theorem Sound.lookupName (h : Sound resolver cache) (key : PropertyName) :
    (cache.lookupName resolver key).value.1 = (resolver.name key).value ∧
      Sound resolver (cache.lookupName resolver key).value.2 := by
  cases hfound : cache.names.lookup key with
  | some resolution =>
    rw [lookupName_hit resolver hfound]
    exact ⟨h.names (mem_of_lookup_eq_some hfound), h.hit⟩
  | none =>
    rw [(lookupName_miss resolver hfound).1]
    refine ⟨rfl, ?_, h.values⟩
    intro other resolution hmem
    rcases List.mem_cons.mp hmem with heq | hold
    · cases heq
      rfl
    · exact h.names hold

theorem Sound.lookupValue (h : Sound resolver cache) (key : PropertyName)
    (value : String) :
    (cache.lookupValue resolver key value).value.1 =
        (resolver.value key value).value ∧
      Sound resolver (cache.lookupValue resolver key value).value.2 := by
  cases hfound : cache.values.lookup (key, value) with
  | some resolution =>
    rw [lookupValue_hit resolver hfound]
    exact ⟨h.values (mem_of_lookup_eq_some hfound), h.hit⟩
  | none =>
    rw [(lookupValue_miss resolver hfound).1]
    refine ⟨rfl, h.names, ?_⟩
    intro other otherValue resolution hmem
    rcases List.mem_cons.mp hmem with heq | hold
    · cases heq
      rfl
    · exact h.values hold

/-- A query answered from a sound cache has the answer that the resolver
gives without one, and leaves the cache sound. -/
theorem Sound.answer {α : Type} (query : Query α) (h : Sound resolver cache) :
    (cache.answer resolver query).value.1 = (query.answer resolver).value ∧
      Sound resolver (cache.answer resolver query).value.2 := by
  -- The cache varies: the rest of the query goes on from the one that the
  -- first lookup leaves.
  induction query generalizing cache with
  | done result => exact ⟨rfl, h⟩
  | name key next ih =>
    obtain ⟨hanswer, hsound⟩ := h.lookupName key
    have hrest := ih (cache.lookupName resolver key).value.1 hsound
    simp only [Cache.answer, Query.answer, Traced.value_bind]
    rw [← hanswer]
    exact hrest
  | value key v next ih =>
    obtain ⟨hanswer, hsound⟩ := h.lookupValue key v
    have hrest := ih (cache.lookupValue resolver key v).value.1 hsound
    simp only [Cache.answer, Query.answer, Traced.value_bind]
    rw [← hanswer]
    exact hrest

end StyleProbe.Cache
