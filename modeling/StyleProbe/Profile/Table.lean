import StyleProbe.Assoc
import StyleProbe.Profile.Grammar
import StyleProbe.Text.Blank

/-!
# Property tables

The properties of an environment with the grammar of each. Names are kept
trimmed and in small letters, each once, in increasing order, and a grammar
is never empty. `insert?` is the only way to add to a table, so every table
is like that.

Main statements: `normalName_normalName`, `mem_insertEntry` and
`pairwise_insertEntry`.
-/

namespace StyleProbe

/-- A property name as a table keeps it. -/
def normalName (name : String) : String :=
  Text.lowerAscii (Text.trim name)

theorem normalName_normalName (name : String) :
    normalName (normalName name) = normalName name := by
  rw [normalName, normalName, Text.trim_lowerAscii, Text.trim_trim,
    Text.lowerAscii_lowerAscii]

/-! ## Sorted insertion -/

/-- Puts an entry before the first one with a greater name. -/
def insertEntry (name : String) (grammar : Grammar) :
    List (String × Grammar) → List (String × Grammar)
  | [] => [(name, grammar)]
  | entry :: rest =>
    if name < entry.1 then (name, grammar) :: entry :: rest
    else entry :: insertEntry name grammar rest

/-- Insertion adds the entry and nothing else. -/
theorem mem_insertEntry {name : String} {grammar : Grammar}
    {entries : List (String × Grammar)} {entry : String × Grammar} :
    entry ∈ insertEntry name grammar entries ↔
      entry = (name, grammar) ∨ entry ∈ entries := by
  induction entries with
  | nil => simp [insertEntry]
  | cons first rest ih =>
    rw [insertEntry]
    split
    · simp
    · simp only [List.mem_cons, ih]
      exact or_left_comm

/-- Insertion of a new name keeps the names in increasing order. -/
theorem pairwise_insertEntry {name : String} {grammar : Grammar}
    {entries : List (String × Grammar)}
    (hnew : ∀ entry ∈ entries, entry.1 ≠ name)
    (hsorted : entries.Pairwise (fun a b => a.1 < b.1)) :
    (insertEntry name grammar entries).Pairwise (fun a b => a.1 < b.1) := by
  induction entries with
  | nil => simp [insertEntry]
  | cons first rest ih =>
    rw [List.pairwise_cons] at hsorted
    rw [insertEntry]
    split
    · rename_i hlt
      refine List.pairwise_cons.mpr ⟨?_, List.pairwise_cons.mpr hsorted⟩
      intro entry hentry
      rcases List.mem_cons.mp hentry with rfl | hentry
      · exact hlt
      · exact String.lt_trans hlt (hsorted.1 entry hentry)
    · rename_i hge
      have hrest := ih (fun entry h => hnew entry (.tail _ h)) hsorted.2
      refine List.pairwise_cons.mpr ⟨?_, hrest⟩
      intro entry hentry
      rcases mem_insertEntry.mp hentry with rfl | hentry
      · have hne := hnew first (.head _)
        have hle := String.not_lt.mp hge
        by_cases hlt : first.1 < name
        · exact hlt
        · exact absurd (String.le_antisymm hle (String.not_lt.mp hlt)) hne
      · exact hsorted.1 entry hentry

/-! ## Tables -/

/-- The grammars of an environment's properties. -/
structure PropertyTable where
  entries : List (String × Grammar)
  sorted : entries.Pairwise (fun a b => a.1 < b.1)
  normal : ∀ entry ∈ entries, normalName entry.1 = entry.1
  named : ∀ entry ∈ entries, entry.1 ≠ ""
  inhabited : ∀ entry ∈ entries, entry.2.isEmpty = false

namespace PropertyTable

def empty : PropertyTable where
  entries := []
  sorted := .nil
  normal := by simp
  named := by simp
  inhabited := by simp

/-- The names, in increasing order. -/
def names (table : PropertyTable) : List String :=
  table.entries.map (·.1)

/-- The grammar of a property. -/
def grammar? (table : PropertyTable) (name : String) : Option Grammar :=
  table.entries.lookup name

theorem grammar?_eq_none_iff (table : PropertyTable) {name : String} :
    table.grammar? name = none ↔ name ∉ table.names :=
  lookup_eq_none_iff_not_mem

theorem ne_empty_of_grammar? (table : PropertyTable) {name : String}
    {grammar : Grammar} (h : table.grammar? name = some grammar) :
    name ≠ "" :=
  table.named _ (mem_of_lookup_eq_some h)

/-- Why an entry cannot be added to a table. -/
inductive Refusal where
  | unnamed
  | acceptsNothing
  | alreadyDeclared
deriving DecidableEq

/-- Adds a property under its normal name. A blank name is refused first,
then an empty grammar, then a name that the table has already. -/
def insert? (table : PropertyTable) (name : String) (grammar : Grammar) :
    Except Refusal PropertyTable :=
  if hname : normalName name = "" then .error .unnamed
  else if hgrammar : grammar.isEmpty = true then .error .acceptsNothing
  else if hnew : normalName name ∈ table.names then .error .alreadyDeclared
  else
    .ok {
      entries := insertEntry (normalName name) grammar table.entries
      sorted := pairwise_insertEntry
        (fun entry h heq => hnew (heq ▸ List.mem_map_of_mem h)) table.sorted
      normal := fun entry h => by
        rcases mem_insertEntry.mp h with rfl | h
        · exact normalName_normalName name
        · exact table.normal entry h
      named := fun entry h => by
        rcases mem_insertEntry.mp h with rfl | h
        · exact hname
        · exact table.named entry h
      inhabited := fun entry h => by
        rcases mem_insertEntry.mp h with rfl | h
        · simpa using hgrammar
        · exact table.inhabited entry h }

end PropertyTable

end StyleProbe
