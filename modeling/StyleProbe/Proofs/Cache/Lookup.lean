import StyleProbe.Proofs.Cache.Sound

/-!
# Lookups

A query comes to a list of lookups, each for the name of a property or for
the form of one of its values. Which lookups they are is settled by the
answers, and so does not depend on what a cache remembers.

A cache keeps an account of its past. It remembers every name and every pair
of name and value that was looked up, each once, and all other lookups were
hits. The first lookup of a kind makes the calls that are written down in
`Lookup.calls`, and a later one makes none.

Main statements: `Recalls.lookupName` and `Recalls.lookupValue` are the
step, and `Recalls.answer` is a whole query.
-/

namespace StyleProbe

/-- One question to a cache. -/
inductive Lookup where
  | name (key : PropertyName)
  | value (key : PropertyName) (value : String)
deriving DecidableEq

/-- The items up to the first one that passes the test, with that one. -/
def upTo {α : Type} (test : α → Bool) : List α → List α
  | [] => []
  | item :: items => if test item then [item] else item :: upTo test items

/-- Whether a fresh probe holds something once the value is written to it. -/
def Surface.keeps (surface : Surface) (property value : String) : Bool :=
  surface.read (surface.assign surface.fresh property value) property != ""

namespace Lookup

/-- The name that is looked up. -/
def name? : Lookup → Option PropertyName
  | name key => some key
  | value _ _ => none

/-- The name and value that are looked up together. -/
def pair? : Lookup → Option (PropertyName × String)
  | name _ => none
  | value key v => some (key, v)

theorem name?_eq_some_iff {lookup : Lookup} {key : PropertyName} :
    lookup.name? = some key ↔ lookup = name key := by
  cases lookup <;> simp [name?]

theorem pair?_eq_some_iff {lookup : Lookup} {key : PropertyName} {v : String} :
    lookup.pair? = some (key, v) ↔ lookup = value key v := by
  cases lookup <;> simp [pair?]

theorem mem_filterMap_name? {lookups : List Lookup} {key : PropertyName} :
    key ∈ lookups.filterMap name? ↔ name key ∈ lookups := by
  simp only [List.mem_filterMap, name?_eq_some_iff, exists_eq_right]

theorem mem_filterMap_pair? {lookups : List Lookup} {key : PropertyName}
    {v : String} :
    (key, v) ∈ lookups.filterMap pair? ↔ value key v ∈ lookups := by
  simp only [List.mem_filterMap, pair?_eq_some_iff, exists_eq_right]

/-- The calls of a lookup that was not made before. A name is asked for under
its own key and then under each vendor's, up to the first key that is
recognized. A value is written to one probe in all its forms, whatever is
kept, and read once; or each form to a probe of its own, up to the first that
reads back as something. -/
def calls (resolver : Resolver) : Lookup → List Call
  | name key =>
    (upTo resolver.surface.recognizes
      [key.camelKey, key.vendorKey .webkit, key.vendorKey .moz,
        key.vendorKey .ms, key.vendorKey .o]).map .recognizes
  | value key v =>
    match resolver.strategy with
    | .lastWriteWins =>
      [.probe,
        .assign key.text ("-o-" ++ v), .assign key.text ("-ms-" ++ v),
        .assign key.text ("-moz-" ++ v), .assign key.text ("-webkit-" ++ v),
        .assign key.text v,
        .read key.text]
    | .isolated =>
      (upTo (resolver.surface.keeps key.text)
        [v, "-webkit-" ++ v, "-moz-" ++ v, "-ms-" ++ v, "-o-" ++ v]).flatMap
        fun form => [.probe, .assign key.text form, .read key.text]

/-- The calls of some lookups after those of the past: nothing for a lookup
that was made before. -/
def traffic (resolver : Resolver) : List Lookup → List Lookup → List Call
  | _, [] => []
  | past, lookup :: rest =>
    (if lookup ∈ past then [] else lookup.calls resolver) ++
      traffic resolver (past ++ [lookup]) rest

/-- The calls go on with the past that the first lookups add to. -/
theorem traffic_append (resolver : Resolver) (past first second : List Lookup) :
    traffic resolver past (first ++ second) =
      traffic resolver past first ++
        traffic resolver (past ++ first) second := by
  induction first generalizing past with
  | nil => rw [List.nil_append, List.append_nil, traffic, List.nil_append]
  | cons lookup rest ih =>
    rw [List.cons_append, traffic, traffic, ih, List.append_assoc,
      List.append_assoc, List.singleton_append]

theorem traffic_eq_nil (resolver : Resolver) {past lookups : List Lookup}
    (h : ∀ lookup ∈ lookups, lookup ∈ past) :
    traffic resolver past lookups = [] := by
  induction lookups generalizing past with
  | nil => rfl
  | cons lookup rest ih =>
    rw [traffic, if_pos (h lookup List.mem_cons_self), List.nil_append]
    refine ih fun other hother => ?_
    exact List.mem_append_left _ (h other (List.mem_cons_of_mem lookup hother))

end Lookup

/-! ## The calls of a resolver -/

namespace Resolver

/-- The search for a name asks for keys up to the first that is
recognized. -/
theorem calls_firstRecognized (surface : Surface)
    (candidates : List (String × PropertyResolution)) :
    (firstRecognized surface candidates).calls =
      (upTo surface.recognizes (candidates.map (·.1))).map .recognizes := by
  induction candidates with
  | nil => rfl
  | cons candidate candidates ih =>
    obtain ⟨key, resolution⟩ := candidate
    cases hkey : surface.recognizes key with
    | true => simp [firstRecognized, Surface.ask, upTo, hkey]
    | false => simp [firstRecognized, Surface.ask, upTo, hkey, ih]

theorem calls_name (resolver : Resolver) (key : PropertyName) :
    (resolver.name key).calls = (Lookup.name key).calls resolver := by
  rw [name, calls_firstRecognized]
  rfl

/-- Probes of their own are taken up to the first that keeps its value. -/
theorem calls_firstKept (surface : Surface) (property : String)
    (candidates : List String) :
    (firstKept surface property candidates).calls =
      (upTo (surface.keeps property) candidates).flatMap
        fun form => [.probe, .assign property form, .read property] := by
  induction candidates with
  | nil => rfl
  | cons candidate candidates ih =>
    by_cases hkept :
        surface.read (surface.assign surface.fresh property candidate)
          property = ""
    · simp [firstKept, Surface.newProbe, Surface.write, Surface.readBack,
        upTo, Surface.keeps, hkept, ih]
    · simp [firstKept, Surface.newProbe, Surface.write, Surface.readBack,
        upTo, Surface.keeps, hkept]

theorem calls_value (resolver : Resolver) (key : PropertyName)
    (v : String) :
    (resolver.value key v).calls = (Lookup.value key v).calls resolver := by
  obtain ⟨surface, strategy⟩ := resolver
  cases strategy with
  | lastWriteWins => rfl
  | isolated =>
    have hforms : (valueCandidates v).reverse =
        [v, "-webkit-" ++ v, "-moz-" ++ v, "-ms-" ++ v, "-o-" ++ v] := by
      simp [valueCandidates, Vendor.valueLeads]
    rw [value, Lookup.calls, Traced.calls_bind, hforms, calls_firstKept,
      Traced.calls_pure, List.append_nil]

end Resolver

/-! ## The lookups of a query -/

/-- The lookups of a query, in order, where the resolver answers. -/
def Query.lookups {α : Type} (resolver : Resolver) : Query α → List Lookup
  | .done _ => []
  | .name key next =>
    .name key :: (next (resolver.name key).value).lookups resolver
  | .value key v next =>
    .value key v :: (next (resolver.value key v).value).lookups resolver

@[simp] theorem Query.lookups_pure {α : Type} (resolver : Resolver)
    (result : α) : (pure result : Query α).lookups resolver = [] := rfl

/-- A query makes its lookups step by step. -/
theorem Query.lookups_bind {α β : Type} (resolver : Resolver) (q : Query α)
    (f : α → Query β) :
    (q >>= f).lookups resolver =
      q.lookups resolver ++
        (f (q.answer resolver).value).lookups resolver := by
  induction q with
  | done result => rfl
  | name key next ih => exact congrArg (Lookup.name key :: ·) (ih _)
  | value key v next ih => exact congrArg (Lookup.value key v :: ·) (ih _)

/-! ## The past of a cache -/

theorem eraseDups_concat {α : Type} [BEq α] [LawfulBEq α] (items : List α)
    (item : α) :
    (items ++ [item]).eraseDups =
      if item ∈ items then items.eraseDups else items.eraseDups ++ [item] := by
  rw [List.eraseDups_append]
  by_cases h : item ∈ items
  · simp [h, List.removeAll]
  · simp [h, List.removeAll, List.eraseDups_cons]

namespace Cache

variable {resolver : Resolver} {cache : Cache} {past : List Lookup}

/-- The cache is what the lookups of the past leave: it remembers the distinct
names and the distinct pairs among them, latest first, and the others were
hits. -/
structure Recalls (cache : Cache) (past : List Lookup) : Prop where
  names : cache.names.map (·.1) =
    (past.filterMap Lookup.name?).eraseDups.reverse
  values : cache.values.map (·.1) =
    (past.filterMap Lookup.pair?).eraseDups.reverse
  hits : cache.hits + cache.size = past.length

theorem recalls_empty : empty.Recalls [] := ⟨rfl, rfl, rfl⟩

/-- The cache has one answer for each distinct name and one for each distinct
pair. -/
theorem Recalls.size_eq (h : cache.Recalls past) :
    cache.size =
      (past.filterMap Lookup.name?).eraseDups.length +
        (past.filterMap Lookup.pair?).eraseDups.length := by
  have hnames := congrArg List.length h.names
  have hvalues := congrArg List.length h.values
  rw [List.length_map, List.length_reverse] at hnames hvalues
  rw [size, hnames, hvalues]

/-- Lookups that were made before add nothing that is distinct. -/
theorem eraseDups_filterMap_append {α : Type} [BEq α] [LawfulBEq α]
    (part? : Lookup → Option α) {lookups : List Lookup}
    (h : ∀ lookup ∈ lookups, lookup ∈ past) :
    ((past ++ lookups).filterMap part?).eraseDups =
      (past.filterMap part?).eraseDups := by
  have hold : ∀ item ∈ lookups.filterMap part?,
      item ∈ past.filterMap part? := by
    intro item hitem
    obtain ⟨lookup, hlookup, hpart⟩ := List.mem_filterMap.mp hitem
    exact List.mem_filterMap.mpr ⟨lookup, h lookup hlookup, hpart⟩
  have hnone :
      (lookups.filterMap part?).removeAll (past.filterMap part?) = [] := by
    apply List.filter_eq_nil_iff.mpr
    intro item hitem
    simpa using hold item hitem
  rw [List.filterMap_append, List.eraseDups_append, hnone, List.eraseDups_nil,
    List.append_nil]

theorem Recalls.hit (h : cache.Recalls past) {lookup : Lookup}
    (hmem : lookup ∈ past) : cache.hit.Recalls (past ++ [lookup]) where
  names := by
    rw [eraseDups_filterMap_append Lookup.name? (by simpa using hmem)]
    exact h.names
  values := by
    rw [eraseDups_filterMap_append Lookup.pair? (by simpa using hmem)]
    exact h.values
  hits := by
    have hhits := h.hits
    simp only [Cache.hit, size, List.length_append, List.length_singleton]
      at hhits ⊢
    omega

theorem Recalls.lookup_names_eq_none_iff (h : cache.Recalls past)
    {key : PropertyName} :
    cache.names.lookup key = none ↔ .name key ∉ past := by
  rw [lookup_eq_none_iff_not_mem, h.names, List.mem_reverse,
    List.mem_eraseDups, Lookup.mem_filterMap_name?]

theorem Recalls.lookup_values_eq_none_iff (h : cache.Recalls past)
    {key : PropertyName} {v : String} :
    cache.values.lookup (key, v) = none ↔ .value key v ∉ past := by
  rw [lookup_eq_none_iff_not_mem, h.values, List.mem_reverse,
    List.mem_eraseDups, Lookup.mem_filterMap_pair?]

theorem Recalls.remember_name (h : cache.Recalls past) {key : PropertyName}
    (hnew : .name key ∉ past) (resolution : PropertyResolution) :
    Recalls { cache with names := (key, resolution) :: cache.names }
      (past ++ [.name key]) where
  names := by
    have hkey := mt Lookup.mem_filterMap_name?.mp hnew
    simp [Lookup.name?, eraseDups_concat, hkey, h.names]
  values := by
    have hnone : [Lookup.name key].filterMap Lookup.pair? = [] := rfl
    rw [List.filterMap_append, hnone, List.append_nil]
    exact h.values
  hits := by
    have hhits := h.hits
    simp only [size, List.length_cons, List.length_append, List.length_nil]
      at hhits ⊢
    omega

theorem Recalls.remember_value (h : cache.Recalls past) {key : PropertyName}
    {v : String} (hnew : .value key v ∉ past) (resolution : ValueResolution) :
    Recalls { cache with values := ((key, v), resolution) :: cache.values }
      (past ++ [.value key v]) where
  names := by
    have hnone : [Lookup.value key v].filterMap Lookup.name? = [] := rfl
    rw [List.filterMap_append, hnone, List.append_nil]
    exact h.names
  values := by
    have hpair := mt Lookup.mem_filterMap_pair?.mp hnew
    simp [Lookup.pair?, eraseDups_concat, hpair, h.values]
  hits := by
    have hhits := h.hits
    simp only [size, List.length_cons, List.length_append, List.length_nil]
      at hhits ⊢
    omega

/-- A name that is looked up is remembered from then on, and calls are made
for it only the first time. -/
theorem Recalls.lookupName (h : cache.Recalls past) (resolver : Resolver)
    (key : PropertyName) :
    (cache.lookupName resolver key).value.2.Recalls (past ++ [.name key]) ∧
      (cache.lookupName resolver key).calls =
        if .name key ∈ past then [] else (Lookup.name key).calls resolver := by
  by_cases hmem : .name key ∈ past
  · obtain ⟨resolution, hfound⟩ := Option.ne_none_iff_exists'.mp
      fun hnone => h.lookup_names_eq_none_iff.mp hnone hmem
    rw [lookupName_hit resolver hfound, if_pos hmem]
    exact ⟨h.hit hmem, rfl⟩
  · have hfound := h.lookup_names_eq_none_iff.mpr hmem
    obtain ⟨hvalue, hcalls⟩ := lookupName_miss resolver hfound
    rw [hvalue, hcalls, if_neg hmem, Resolver.calls_name]
    exact ⟨h.remember_name hmem _, rfl⟩

/-- A pair that is looked up is remembered from then on, and calls are made
for it only the first time. -/
theorem Recalls.lookupValue (h : cache.Recalls past) (resolver : Resolver)
    (key : PropertyName) (v : String) :
    (cache.lookupValue resolver key v).value.2.Recalls
        (past ++ [.value key v]) ∧
      (cache.lookupValue resolver key v).calls =
        if .value key v ∈ past then []
        else (Lookup.value key v).calls resolver := by
  by_cases hmem : .value key v ∈ past
  · obtain ⟨resolution, hfound⟩ := Option.ne_none_iff_exists'.mp
      fun hnone => h.lookup_values_eq_none_iff.mp hnone hmem
    rw [lookupValue_hit resolver hfound, if_pos hmem]
    exact ⟨h.hit hmem, rfl⟩
  · have hfound := h.lookup_values_eq_none_iff.mpr hmem
    obtain ⟨hvalue, hcalls⟩ := lookupValue_miss resolver hfound
    rw [hvalue, hcalls, if_neg hmem, Resolver.calls_value]
    exact ⟨h.remember_value hmem _, rfl⟩

/-- **A cache answers a query with the lookups of the query**, and makes the
calls of those that are new to it. -/
theorem Recalls.answer {α : Type} (query : Query α)
    (hsound : cache.Sound resolver) (h : cache.Recalls past) :
    (cache.answer resolver query).value.2.Recalls
        (past ++ query.lookups resolver) ∧
      (cache.answer resolver query).calls =
        Lookup.traffic resolver past (query.lookups resolver) := by
  -- The cache and its past vary: the rest of the query goes on from the ones
  -- that the first lookup leaves.
  induction query generalizing cache past with
  | done result =>
    rw [Query.lookups, List.append_nil]
    exact ⟨h, rfl⟩
  | name key next ih =>
    obtain ⟨hanswer, hafter⟩ := hsound.lookupName key
    obtain ⟨hrecalls, hcalls⟩ := h.lookupName resolver key
    obtain ⟨hrest, htraffic⟩ :=
      ih (cache.lookupName resolver key).value.1 hafter hrecalls
    simp only [Cache.answer, Traced.value_bind, Traced.calls_bind]
    rw [htraffic, hcalls, Query.lookups, ← hanswer, Lookup.traffic,
      ← List.singleton_append, ← List.append_assoc]
    exact ⟨hrest, rfl⟩
  | value key v next ih =>
    obtain ⟨hanswer, hafter⟩ := hsound.lookupValue key v
    obtain ⟨hrecalls, hcalls⟩ := h.lookupValue resolver key v
    obtain ⟨hrest, htraffic⟩ :=
      ih (cache.lookupValue resolver key v).value.1 hafter hrecalls
    simp only [Cache.answer, Traced.value_bind, Traced.calls_bind]
    rw [htraffic, hcalls, Query.lookups, ← hanswer, Lookup.traffic,
      ← List.singleton_append, ← List.append_assoc]
    exact ⟨hrest, rfl⟩

end Cache

end StyleProbe
