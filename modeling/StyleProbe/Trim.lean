/-!
# Trimming

Both ends of a list, less the elements that a test calls blank. Names,
selectors and component lists are all trimmed this way; only the test
differs.

Main statements: `trimBy_trimBy` (a second trimming changes nothing),
`trimBy_map` and `trimBy_eq_nil_iff` (only a list of blanks trims to
nothing).
-/

namespace StyleProbe

variable {α : Type _}

/-- Drops the longest blank run at either end of `l`. -/
def trimBy (blank : α → Bool) (l : List α) : List α :=
  ((l.dropWhile blank).reverse.dropWhile blank).reverse

@[simp] theorem trimBy_nil (blank : α → Bool) : trimBy blank [] = [] := rfl

theorem dropWhile_eq_self {blank : α → Bool} {l : List α}
    (h : ∀ a ∈ l.head?, blank a = false) : l.dropWhile blank = l := by
  cases l with
  | nil => rfl
  | cons a l => simp [h a (by simp)]

theorem head?_dropWhile_eq_false (blank : α → Bool) (l : List α) :
    ∀ a ∈ (l.dropWhile blank).head?, blank a = false := by
  intro a ha
  have := List.head?_dropWhile_not blank l
  rw [Option.mem_def] at ha
  simpa [ha] using this

/-- A list with no blank at either end is trimmed already. -/
theorem trimBy_eq_self {blank : α → Bool} {l : List α}
    (hfront : ∀ a ∈ l.head?, blank a = false)
    (hback : ∀ a ∈ l.getLast?, blank a = false) : trimBy blank l = l := by
  rw [trimBy, dropWhile_eq_self hfront,
    dropWhile_eq_self (by simpa using hback), List.reverse_reverse]

/-- A first element that is not blank stays the first, and only blanks at the
end are taken off. -/
theorem exists_trimBy_cons {blank : α → Bool} {a : α} (h : blank a = false)
    (l : List α) : ∃ rest after, trimBy blank (a :: l) = a :: rest ∧
      l = rest ++ after ∧ ∀ b ∈ after, blank b = true := by
  have hsplit := congrArg List.reverse
    (List.takeWhile_append_dropWhile (p := blank) (l := l.reverse))
  rw [List.reverse_append, List.reverse_reverse] at hsplit
  refine ⟨(l.reverse.dropWhile blank).reverse,
    (l.reverse.takeWhile blank).reverse, ?_, hsplit.symm, ?_⟩
  · rw [trimBy, List.dropWhile_cons_of_neg (by simp [h]), List.reverse_cons,
      List.dropWhile_append]
    split
    · rename_i hblank
      simp [h, List.isEmpty_iff.mp hblank]
    · simp
  · intro b hb
    exact List.all_eq_true.mp List.all_takeWhile b (List.mem_reverse.mp hb)

theorem getLast?_trimBy (blank : α → Bool) (l : List α) :
    ∀ a ∈ (trimBy blank l).getLast?, blank a = false := by
  intro a ha
  rw [trimBy, List.getLast?_reverse] at ha
  exact head?_dropWhile_eq_false blank _ a ha

theorem head?_trimBy (blank : α → Bool) (l : List α) :
    ∀ a ∈ (trimBy blank l).head?, blank a = false := by
  intro a ha
  have hsuffix : (l.dropWhile blank).reverse.dropWhile blank <:+
      (l.dropWhile blank).reverse := List.dropWhile_suffix blank
  have hprefix : trimBy blank l <+: l.dropWhile blank := by
    have := List.reverse_prefix.mpr hsuffix
    simpa [trimBy] using this
  refine head?_dropWhile_eq_false blank l a ?_
  obtain ⟨rest, hrest⟩ := hprefix
  rw [Option.mem_def] at ha ⊢
  rw [← hrest, List.head?_append, ha]
  rfl

theorem mem_of_mem_trimBy {blank : α → Bool} {l : List α} {a : α}
    (h : a ∈ trimBy blank l) : a ∈ l := by
  have hback := List.mem_reverse.mp h
  have hfront := List.mem_reverse.mp ((List.dropWhile_sublist _).subset hback)
  exact (List.dropWhile_sublist _).subset hfront

theorem mem_dropWhile {blank : α → Bool} {l : List α} {a : α} (h : a ∈ l)
    (ha : blank a = false) : a ∈ l.dropWhile blank := by
  rw [← List.takeWhile_append_dropWhile (p := blank) (l := l)] at h
  rcases List.mem_append.mp h with hdropped | hkept
  · have hblank := List.all_eq_true.mp List.all_takeWhile a hdropped
    rw [ha] at hblank
    cases hblank
  · exact hkept

theorem mem_trimBy {blank : α → Bool} {l : List α} {a : α} (h : a ∈ l)
    (ha : blank a = false) : a ∈ trimBy blank l :=
  List.mem_reverse.mpr
    (mem_dropWhile (List.mem_reverse.mpr (mem_dropWhile h ha)) ha)

/-- A second trimming changes nothing. -/
theorem trimBy_trimBy (blank : α → Bool) (l : List α) :
    trimBy blank (trimBy blank l) = trimBy blank l :=
  trimBy_eq_self (head?_trimBy blank l) (getLast?_trimBy blank l)

theorem dropWhile_map {β : Type _} (blank : β → Bool) (f : α → β)
    (l : List α) :
    (l.map f).dropWhile blank = (l.dropWhile (blank ∘ f)).map f := by
  induction l with
  | nil => rfl
  | cons a l ih =>
    simp only [List.map_cons, List.dropWhile_cons, Function.comp]
    split
    · exact ih
    · rfl

/-- Trimming images takes off what maps to blanks. -/
theorem trimBy_map_comp {β : Type _} (blank : β → Bool) (f : α → β)
    (l : List α) :
    trimBy blank (l.map f) = (trimBy (blank ∘ f) l).map f := by
  simp only [trimBy, dropWhile_map, ← List.map_reverse]

theorem trimBy_map {blank : α → Bool} {f : α → α}
    (h : ∀ a, blank (f a) = blank a) (l : List α) :
    trimBy blank (l.map f) = (trimBy blank l).map f := by
  have hcomp : blank ∘ f = blank := funext h
  rw [trimBy_map_comp, hcomp]

theorem dropWhile_eq_nil {blank : α → Bool} {l : List α} :
    l.dropWhile blank = [] ↔ ∀ a ∈ l, blank a = true := by
  induction l with
  | nil => simp
  | cons a l ih =>
    rw [List.dropWhile_cons]
    split
    · simp_all
    · simp_all

/-- Only a list of blanks trims to nothing. -/
theorem trimBy_eq_nil_iff {blank : α → Bool} {l : List α} :
    trimBy blank l = [] ↔ ∀ a ∈ l, blank a = true := by
  rw [← dropWhile_eq_nil, trimBy, List.reverse_eq_nil_iff, dropWhile_eq_nil]
  constructor
  · intro h
    cases hl : l.dropWhile blank with
    | nil => rfl
    | cons a rest =>
      have hfront := head?_dropWhile_eq_false blank l a (by simp [hl])
      have hblank := h a (by simp [hl])
      simp [hfront] at hblank
  · intro h
    simp [h]

/-- Trimming takes a run of blanks off either end. -/
theorem exists_eq_append_trimBy (blank : α → Bool) (l : List α) :
    ∃ before after, l = before ++ (trimBy blank l ++ after) ∧
      (∀ a ∈ before, blank a = true) ∧ ∀ a ∈ after, blank a = true := by
  have hfront := List.takeWhile_append_dropWhile (p := blank) (l := l)
  have hback := List.takeWhile_append_dropWhile (p := blank)
    (l := (l.dropWhile blank).reverse)
  refine ⟨l.takeWhile blank,
    ((l.dropWhile blank).reverse.takeWhile blank).reverse, ?_, ?_, ?_⟩
  · rw [trimBy, ← List.reverse_append, hback, List.reverse_reverse, hfront]
  · exact List.all_eq_true.mp List.all_takeWhile
  · intro a ha
    exact List.all_eq_true.mp List.all_takeWhile a (List.mem_reverse.mp ha)

theorem trimBy_append {blank : α → Bool} {before after : List α}
    (hbefore : ∀ a ∈ before, blank a = true)
    (hafter : ∀ a ∈ after, blank a = true) (l : List α) :
    trimBy blank (before ++ (l ++ after)) = trimBy blank l := by
  rw [trimBy, List.dropWhile_append_of_pos hbefore, List.dropWhile_append]
  split
  · rename_i hblank
    have hl : l.dropWhile blank = [] := List.isEmpty_iff.mp hblank
    rw [dropWhile_eq_nil.mpr hafter, trimBy, hl]
  · rw [List.reverse_append, List.dropWhile_append_of_pos, trimBy]
    intro a ha
    exact hafter a (List.mem_reverse.mp ha)

theorem trimBy_append_right {blank : α → Bool} {after : List α}
    (hafter : ∀ a ∈ after, blank a = true) (l : List α) :
    trimBy blank (l ++ after) = trimBy blank l := by
  have hnone : ∀ a ∈ ([] : List α), blank a = true := by simp
  exact trimBy_append hnone hafter l

/-- What is joined to a list is trimmed with it: a part with no blank at its
ends stays whole. -/
theorem exists_trimBy_append {blank : α → Bool} {before part after : List α}
    (hbefore : ∀ a ∈ before, blank a = true)
    (hafter : ∀ a ∈ after, blank a = true) (hne : part ≠ [])
    (hfront : ∀ a ∈ part.head?, blank a = false)
    (hback : ∀ a ∈ part.getLast?, blank a = false) (l : List α) :
    ∃ gap, (∀ a ∈ gap, blank a = true) ∧
      trimBy blank (l ++ (before ++ (part ++ after))) =
        trimBy blank l ++ (gap ++ part) := by
  obtain ⟨lead, gap, heq, hlead, hgap⟩ := exists_eq_append_trimBy blank l
  cases hl : trimBy blank l with
  | nil =>
    -- the gap in front of the part is taken off with the list
    have hblank : ∀ a ∈ l ++ before, blank a = true :=
      List.forall_mem_append.mpr ⟨trimBy_eq_nil_iff.mp hl, hbefore⟩
    refine ⟨[], by simp, ?_⟩
    rw [← List.append_assoc, trimBy_append hblank hafter,
      trimBy_eq_self hfront hback]
    rfl
  | cons a rest =>
    rw [hl] at heq
    have hfirst := head?_trimBy blank l a (by simp [hl])
    have hlast : (a :: rest ++ (gap ++ before ++ part)).getLast? =
        part.getLast? := by
      rw [← List.append_assoc, List.getLast?_append,
        List.getLast?_eq_some_getLast hne]
      rfl
    refine ⟨gap ++ before, List.forall_mem_append.mpr ⟨hgap, hbefore⟩, ?_⟩
    have hsplit : l ++ (before ++ (part ++ after)) =
        lead ++ (a :: rest ++ (gap ++ before ++ part) ++ after) := by
      simp [heq]
    rw [hsplit, trimBy_append hlead hafter, trimBy_eq_self]
    · simpa using hfirst
    · rw [hlast]
      exact hback

/-- Trimming does not matter where blanks are left out anyway. -/
theorem filter_trimBy {blank keep : α → Bool}
    (h : ∀ a, blank a = true → keep a = false) (l : List α) :
    (trimBy blank l).filter keep = l.filter keep := by
  obtain ⟨before, after, heq, hbefore, hafter⟩ :=
    exists_eq_append_trimBy blank l
  have hnone : ∀ gap : List α, (∀ a ∈ gap, blank a = true) →
      gap.filter keep = [] := by
    intro gap hgap
    rw [List.filter_eq_nil_iff]
    intro a ha
    simp [h a (hgap a ha)]
  calc (trimBy blank l).filter keep
      = before.filter keep ++
          ((trimBy blank l).filter keep ++ after.filter keep) := by
        rw [hnone before hbefore, hnone after hafter, List.nil_append,
          List.append_nil]
    _ = l.filter keep := by
        rw [← List.filter_append, ← List.filter_append, ← heq]

end StyleProbe
