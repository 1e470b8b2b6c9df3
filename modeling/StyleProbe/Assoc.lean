/-!
# Association lists

Finite maps as lists of pairs, each key at most once when built by `put`.
Reading is `List.lookup`.

Main statements: `lookup_put_self` and `lookup_put_of_ne`.
-/

namespace StyleProbe

variable {κ ν : Type _} [BEq κ]

/-- Gives `key` the value `value`, in place if it has one already and at the
end otherwise. -/
def put (key : κ) (value : ν) : List (κ × ν) → List (κ × ν)
  | [] => [(key, value)]
  | (k, v) :: rest =>
    if key == k then (k, value) :: rest else (k, v) :: put key value rest

theorem mem_of_lookup_eq_some [LawfulBEq κ] {entries : List (κ × ν)} {key : κ}
    {value : ν} (h : entries.lookup key = some value) :
    (key, value) ∈ entries := by
  obtain ⟨before, after, rfl, _⟩ := List.lookup_eq_some_iff.mp h
  simp

theorem lookup_eq_none_iff_not_mem [LawfulBEq κ] {entries : List (κ × ν)}
    {key : κ} : entries.lookup key = none ↔ key ∉ entries.map (·.1) := by
  rw [List.lookup_eq_none_iff, List.mem_map, not_exists]
  constructor
  · rintro h entry ⟨hentry, rfl⟩
    exact absurd (h entry hentry) (by simp)
  · intro h entry hentry
    have hne : entry.1 ≠ key := fun heq => h entry ⟨hentry, heq⟩
    simp [Ne.symm hne]

/-- What was put last is read back. -/
theorem lookup_put_self [LawfulBEq κ] (key : κ) (value : ν)
    (entries : List (κ × ν)) :
    (put key value entries).lookup key = some value := by
  induction entries with
  | nil => simp [put]
  | cons entry rest ih =>
    obtain ⟨k, v⟩ := entry
    by_cases h : key = k
    · simp [put, h]
    · have hbeq := beq_false_of_ne h
      simp [put, List.lookup_cons, hbeq, ih]

/-- The other keys keep what they have. -/
theorem lookup_put_of_ne [LawfulBEq κ] {key other : κ} (value : ν)
    (entries : List (κ × ν)) (h : other ≠ key) :
    (put key value entries).lookup other = entries.lookup other := by
  have hother := beq_false_of_ne h
  induction entries with
  | nil => simp [put, List.lookup_cons, hother]
  | cons entry rest ih =>
    obtain ⟨k, v⟩ := entry
    by_cases hk : key = k
    · subst hk
      simp [put, List.lookup_cons, hother]
    · have hbeq := beq_false_of_ne hk
      simp [put, hbeq, List.lookup_cons, ih]

end StyleProbe
