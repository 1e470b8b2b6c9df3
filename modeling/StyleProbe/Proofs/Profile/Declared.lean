import StyleProbe.Profile

/-!
# What a source declares

Every property of a source is filed under its normal name with the grammar of
its own lists, and nothing else is. A name is declared once, so the grammar
that is found is the one that was written.

Main statement: `Profile.grammar?_eq_some_iff_of_source`.
-/

namespace StyleProbe

/-- In increasing order a name has only one entry, and it is found. -/
theorem PropertyTable.grammar?_eq_some_iff (table : PropertyTable)
    {name : String} {grammar : Grammar} :
    table.grammar? name = some grammar ↔ (name, grammar) ∈ table.entries := by
  constructor
  · exact mem_of_lookup_eq_some
  · intro hmem
    obtain ⟨before, after, hentries⟩ := List.append_of_mem hmem
    refine List.lookup_eq_some_iff.mpr ⟨before, after, hentries, ?_⟩
    intro entry hentry
    have hsorted := table.sorted
    rw [hentries, List.pairwise_append] at hsorted
    have hlt := hsorted.2.2 entry hentry _ List.mem_cons_self
    simpa using (String.ne_of_lt hlt).symm

theorem PropertyTable.grammar?_of_insert? {table table' : PropertyTable}
    {written : String} {added : Grammar}
    (h : table.insert? written added = .ok table') {name : String}
    {grammar : Grammar} :
    table'.grammar? name = some grammar ↔
      normalName written = name ∧ added = grammar ∨
        table.grammar? name = some grammar := by
  unfold insert? at h
  split at h
  · cases h
  split at h
  · cases h
  split at h
  · cases h
  · cases h
    rw [grammar?_eq_some_iff, grammar?_eq_some_iff, mem_insertEntry,
      Prod.mk.injEq, eq_comm (a := name), eq_comm (a := grammar)]

namespace PropertyEntry

/-- The grammar of the lists of the entry. -/
def grammar (entry : PropertyEntry) : Grammar :=
  .ofLists entry.keywords entry.functions entry.types

end PropertyEntry

namespace Profile

theorem grammar?_of_addEntries {title : String} {entries : List PropertyEntry}
    {table table' : PropertyTable}
    (h : addEntries title table entries = .ok table') {name : String}
    {grammar : Grammar} :
    table'.grammar? name = some grammar ↔
      (∃ entry ∈ entries, normalName entry.name = name ∧
        entry.grammar = grammar) ∨
      table.grammar? name = some grammar := by
  induction entries generalizing table with
  | nil =>
    cases h
    simp
  | cons entry entries ih =>
    unfold addEntries addEntry at h
    cases hinsert : table.insert? entry.name entry.grammar with
    | error cause =>
      rw [PropertyEntry.grammar] at hinsert
      simp [hinsert, bind, Except.bind] at h
    | ok next =>
      have hrest : addEntries title next entries = .ok table' := by
        rw [PropertyEntry.grammar] at hinsert
        simpa [hinsert, bind, Except.bind] using h
      rw [ih hrest, PropertyTable.grammar?_of_insert? hinsert]
      simp only [List.mem_cons, exists_eq_or_imp, or_assoc]
      exact or_left_comm

/-- **A profile has the grammars that its source declares**, under the normal
names of the properties. -/
theorem grammar?_eq_some_iff_of_source {source : ProfileSource}
    {profile : Profile} (h : ofSource source = .ok profile) {name : String}
    {grammar : Grammar} :
    profile.table.grammar? name = some grammar ↔
      ∃ entry ∈ source.properties, normalName entry.name = name ∧
        entry.grammar = grammar := by
  unfold ofSource at h
  dsimp only at h
  split at h
  · cases h
  · cases hentries : addEntries (Text.trim source.name) .empty
        source.properties with
    | error cause => simp [hentries, bind, Except.bind] at h
    | ok table =>
      have hnone : PropertyTable.empty.grammar? name = none := rfl
      simp only [hentries, bind, Except.bind, pure, Except.pure,
        Except.ok.injEq] at h
      rw [← h, table_ofTable, grammar?_of_addEntries hentries, hnone]
      simp

end Profile

end StyleProbe
