import StyleProbe.Proofs.Session.Lookups

/-!
# The account of a session

What a session does to its surface and to its cache is a matter of the
lookups of its steps. The calls are those of the lookups that were not made
before, in order. The cache has an answer for every name and every pair that
was looked up, and all other lookups were hits.

Main statements: `calls_run` and `accounts_run`.
-/

namespace StyleProbe

/-! ## Counting the lookups of a report -/

namespace AuditEntry

variable {resolver : Resolver}

/-- An entry has a lookup for its name and, if that is supported, one for its
value. -/
theorem Accounts.length_lookups {declared : String × Css.Declaration}
    {entry : AuditEntry} (h : entry.Accounts resolver declared) :
    entry.lookups.length =
      if entry.resolvedProperty.isSupported then 2 else 1 := by
  obtain ⟨key, hkey, -⟩ := h.resolvedProperty
  rw [← h.property] at hkey
  by_cases hsupported : entry.resolvedProperty.isSupported = true
  · obtain ⟨name, hname, -⟩ := h.resolvedValue hsupported
    simp [lookups, hkey, hname, hsupported]
  · simp [lookups, hkey, hsupported]

/-- Entries have one lookup each, and the supported ones have one more. -/
theorem length_flatMap_lookups {declared : List (String × Css.Declaration)}
    {entries : List AuditEntry}
    (h : List.Forall₂ (Accounts resolver) declared entries) :
    (entries.flatMap lookups).length =
      entries.length +
        (entries.filter (·.resolvedProperty.isSupported)).length := by
  induction h with
  | nil => rfl
  | @cons first entry rest entries hfirst _ ih =>
    rw [List.flatMap_cons, List.length_append, ih, hfirst.length_lookups,
      List.length_cons]
    cases hsupported : entry.resolvedProperty.isSupported with
    | true =>
      simp only [List.filter_cons, hsupported, if_true, List.length_cons]
      omega
    | false =>
      simp only [List.filter_cons, hsupported, Bool.false_eq_true, if_false]
      omega

end AuditEntry

namespace Session

variable {resolver : Resolver} {cache : Cache} {past : List Lookup}

theorem length_lookups_audit {css : String} {report : AuditReport}
    (h : (Step.audit css).direct resolver = .report report) :
    ((Step.audit css).lookups resolver).length =
      report.entries.length +
        (report.entries.filter (·.resolvedProperty.isSupported)).length := by
  have hsound := Cache.sound_empty resolver
  simp only [Step.lookups, h]
  cases htokens : Css.tokenize css with
  | error e =>
    rw [Step.direct, Audit.ofStylesheet_of_error htokens] at h
    cases h
  | ok tokens =>
    obtain ⟨report', hreport, haccounts⟩ := exists_report resolver [] htokens
    have hsame : Answer.report report = .report report' := by
      rw [← h, ← hreport]
      exact (step_answer (.audit css) hsound).1.symm
    cases hsame
    exact AuditEntry.length_flatMap_lookups haccounts

/-! ## Calls -/

/-- From a cache with a past on, the calls are those of the lookups that are
new. -/
theorem calls_run_of_recalls (steps : List Step)
    (hcached : ∀ taken ∈ steps, taken.isCached = true)
    (hsound : cache.Sound resolver) (h : cache.Recalls past) :
    (run resolver cache steps).flatMap (·.calls) =
      Lookup.traffic resolver past
        (steps.flatMap (Step.lookups resolver)) := by
  induction steps generalizing cache past with
  | nil => rfl
  | cons first rest ih =>
    obtain ⟨hrecalls, hcalls⟩ := recalls_step first hsound h
    have hrest := ih (fun taken htaken =>
      hcached taken (List.mem_cons_of_mem first htaken))
      (step_answer first hsound).2 hrecalls
    rw [run, List.flatMap_cons, List.flatMap_cons, Lookup.traffic_append,
      hrest, hcalls (hcached first List.mem_cons_self)]

/-- **The calls of a session** are the calls of its lookups, one after the
other, where a lookup that was made before makes none. -/
theorem calls_run (resolver : Resolver) (steps : List Step)
    (hcached : ∀ taken ∈ steps, taken.isCached = true) :
    (run resolver .empty steps).flatMap (·.calls) =
      Lookup.traffic resolver [] (steps.flatMap (Step.lookups resolver)) :=
  calls_run_of_recalls steps hcached (Cache.sound_empty resolver)
    Cache.recalls_empty

/-- A sticky surface that knows one property under a vendor's name, and a
value of another. -/
def flexResolver : Resolver :=
  ⟨Script.surface ⟨["MozFlex"],
    [("display", ["-webkit-box", "box"]), ("-moz-flex", ["1"])], true⟩,
    .isolated⟩

/-- A session in which most of what an audit asks for was asked before. -/
def flexSession : List Step :=
  [.cached (.name "flex"), .cached (.resolve " display" "box"),
    .audit "a{flex:1;display:box}", .cached (.value "display" "box")]

/-- The audit makes calls for one of its three lookups, and the last step for
none. -/
theorem calls_run_flexSession :
    (∀ taken ∈ flexSession, taken.isCached = true) ∧
      (run flexResolver .empty flexSession).flatMap (·.calls) =
        [.recognizes "flex", .recognizes "WebkitFlex", .recognizes "MozFlex",
          .recognizes "display", .recognizes "WebkitDisplay",
          .recognizes "MozDisplay", .recognizes "msDisplay",
          .recognizes "ODisplay",
          .probe, .assign "display" "box", .read "display",
          .probe, .assign "-moz-flex" "1", .read "-moz-flex"] := by
  have hcached : ∀ taken ∈ flexSession, taken.isCached = true := by
    simp [flexSession, Step.isCached]
  refine ⟨hcached, ?_⟩
  rw [calls_run flexResolver flexSession hcached]
  decide +kernel

/-! ## Counts -/

theorem cache_of_getElem?_run {steps : List Step} {i : Nat}
    {outcome : Outcome} (h : (run resolver cache steps)[i]? = some outcome) :
    outcome.cache = after resolver cache (steps.take (i + 1)) := by
  induction steps generalizing cache i with
  | nil => cases h
  | cons first rest ih =>
    cases i with
    | zero =>
      cases h
      rfl
    | succ i => exact ih h

/-- **The counts of a session**, after each of its steps: there is an answer
for each distinct name and each distinct pair that was looked up, and answers
and hits are as many as the lookups. An audit has a lookup for each entry and
one more for each entry with a supported name. An audit that is taken again
adds no answer and makes no call. -/
theorem accounts_run (resolver : Resolver) (steps : List Step) :
    (∀ i outcome, (run resolver .empty steps)[i]? = some outcome →
      let past := (steps.take (i + 1)).flatMap (Step.lookups resolver)
      outcome.cache.size =
          (past.filterMap Lookup.name?).eraseDups.length +
            (past.filterMap Lookup.pair?).eraseDups.length ∧
        outcome.cache.hits + outcome.cache.size = past.length) ∧
      (∀ css report, (Step.audit css).direct resolver = .report report →
        ((Step.audit css).lookups resolver).length =
          report.entries.length +
            (report.entries.filter
              (·.resolvedProperty.isSupported)).length) ∧
      ∀ css, .audit css ∈ steps →
        let before := after resolver .empty steps
        let again := step resolver before (.audit css)
        again.calls = [] ∧ again.value.2.size = before.size := by
  have hpast : ∀ steps : List Step,
      (after resolver .empty steps).Recalls
        (steps.flatMap (Step.lookups resolver)) := fun steps =>
    recalls_after steps (Cache.sound_empty resolver) Cache.recalls_empty
  refine ⟨?_, fun css report => length_lookups_audit, ?_⟩
  · intro i outcome houtcome past
    have hrecalls : outcome.cache.Recalls past := by
      rw [cache_of_getElem?_run houtcome]
      exact hpast _
    exact ⟨hrecalls.size_eq, hrecalls.hits⟩
  · intro css hcss before again
    have hmade : ∀ lookup ∈ (Step.audit css).lookups resolver,
        lookup ∈ steps.flatMap (Step.lookups resolver) := fun lookup hlookup =>
      List.mem_flatMap.mpr ⟨.audit css, hcss, hlookup⟩
    obtain ⟨hrecalls, hcalls⟩ := recalls_step (.audit css)
      (sound_after (Cache.sound_empty resolver) steps) (hpast steps)
    refine ⟨?_, ?_⟩
    · rw [hcalls rfl, Lookup.traffic_eq_nil resolver hmade]
    · rw [hrecalls.size_eq, (hpast steps).size_eq,
        Cache.eraseDups_filterMap_append Lookup.name? hmade,
        Cache.eraseDups_filterMap_append Lookup.pair? hmade]

/-- Seven lookups of two names and two pairs. -/
theorem accounts_run_flexSession :
    ∃ outcome, (run flexResolver .empty flexSession)[3]? = some outcome ∧
      outcome.cache.size = 2 + 2 ∧ outcome.cache.hits = 3 ∧
      (step flexResolver (after flexResolver .empty flexSession)
        (.audit "a{flex:1;display:box}")).calls = [] := by
  obtain ⟨hcounts, -, hagain⟩ := accounts_run flexResolver flexSession
  obtain ⟨outcome, houtcome⟩ :
      ∃ outcome, (run flexResolver .empty flexSession)[3]? = some outcome :=
    ⟨_, rfl⟩
  obtain ⟨hsize, hlookups⟩ := hcounts 3 outcome houtcome
  have hfour : outcome.cache.size = 2 + 2 := hsize.trans (by decide +kernel)
  have hseven : outcome.cache.hits + outcome.cache.size = 7 :=
    hlookups.trans (by decide +kernel)
  have haudit : .audit "a{flex:1;display:box}" ∈ flexSession := by
    simp [flexSession]
  exact ⟨outcome, houtcome, hfour, by omega, (hagain _ haudit).1⟩

end Session

end StyleProbe
