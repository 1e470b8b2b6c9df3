import StyleProbe.Profile.Grammar
import StyleProbe.Proofs.Css.Component.Descent
import StyleProbe.Proofs.Css.Token.Named

/-!
# What grammars keep

A grammar never keeps the empty text. This is what lets a probe stand for
the answer: reading nothing back means that nothing was accepted. Every way
of accepting a value has to be looked at. Keywords are names that were read
from a text, so they are not empty; functions, blocks and units bring
characters of their own; numbers and colours are always written as
something; and a list of several values has one that is not a gap.

Main statements: `Grammar.accept?_ne_empty` and `Grammar.accept?_of_map` (what
is kept of changed component values).
-/

namespace StyleProbe

namespace Css.Component

/-! ## Where component values come from -/

theorem mem_flattenAll_of_token_mem {t : Token} {values : List Component}
    (h : .token t ∈ values) : t ∈ flattenAll values :=
  mem_flattenAll.mpr ⟨.token t, h, by simp [flatten]⟩

theorem named_of_mem_parseValue {text : String} {values : List Component}
    (h : parseValue text = .ok values) :
    ∀ t, .token t ∈ values → t.Named := by
  obtain ⟨ts, htokens, hmem⟩ := exists_tokenize_of_parseValue h
  exact fun t ht => named_of_mem_tokenize htokens t
    (hmem t (mem_flattenAll_of_token_mem ht))

/-! ## Texts -/

/-- A component value is written as something, unless it is a token without
a name. -/
theorem text_ne_empty {value : Component}
    (h : ∀ t, value = .token t → t.Named) : value.text ≠ "" := by
  cases value with
  | token t => exact (h t rfl).text_ne_empty
  | function name body => simp [text]
  | block bracket body =>
    cases bracket <;> simp [text, Bracket.openingText]

/-- Pieces that are written as something leave something when joined, unless
all of them are gaps. -/
theorem joinPieces_ne_empty {pieces : List (Option String)}
    (htexts : ∀ s, some s ∈ pieces → s ≠ "")
    (hsome : ∃ s, some s ∈ pieces) : joinPieces pieces ≠ "" := by
  obtain ⟨s, hs⟩ := hsome
  have hne : trimBy Option.isNone pieces ≠ [] := by
    intro hnil
    have := trimBy_eq_nil_iff.mp hnil _ hs
    cases this
  rw [joinPieces]
  cases htrimmed : trimBy Option.isNone pieces with
  | nil => exact absurd htrimmed hne
  | cons piece rest =>
    -- The first piece after trimming is no gap.
    have hpiece := head?_trimBy Option.isNone pieces piece (by simp [htrimmed])
    cases piece with
    | none => cases hpiece
    | some first =>
      have hmem : some first ∈ trimBy Option.isNone pieces := by
        simp [htrimmed]
      have hfirst := htexts first (mem_of_mem_trimBy hmem)
      simp [hfirst]

theorem mem_pieces {piece : Option String} {values : List Component} :
    piece ∈ pieces values ↔ ∃ value ∈ values,
      piece = if value.isWhitespace then none else some value.text := by
  induction values with
  | nil => simp [pieces]
  | cons value values ih => simp [pieces, ih]

theorem serialize_ne_empty {values : List Component}
    (hnamed : ∀ t, .token t ∈ values → t.Named)
    (hsome : ∃ value ∈ values, value.isWhitespace = false) :
    serialize values ≠ "" := by
  have htext : ∀ value ∈ values, value.text ≠ "" := by
    intro value hvalue
    refine text_ne_empty fun t ht => hnamed t ?_
    rwa [← ht]
  refine joinPieces_ne_empty ?_ ?_
  · intro s hs
    obtain ⟨value, hvalue, heq⟩ := mem_pieces.mp hs
    split at heq
    · cases heq
    · cases heq
      exact htext value hvalue
  · obtain ⟨value, hvalue, hgap⟩ := hsome
    exact ⟨value.text, mem_pieces.mpr ⟨value, hvalue, by simp [hgap]⟩⟩

end Css.Component

open Css (Component Color)

/-! ## Accepting -/

/-- A search that only one element ends. -/
theorem findSome?_of_only {α β : Type} [DecidableEq α] {f : α → Option β}
    {x : α} {y : β} {l : List α}
    (h : ∀ a ∈ l, f a = if a = x then some y else none) :
    l.findSome? f = if x ∈ l then some y else none := by
  induction l with
  | nil => rfl
  | cons a rest ih =>
    rw [List.findSome?_cons, h a List.mem_cons_self,
      ih fun b hb => h b (List.mem_cons_of_mem a hb)]
    by_cases ha : a = x
    · simp [ha]
    · simp [ha, Ne.symm ha]

/-- A single component value is never kept as the empty text. -/
theorem ValueType.accept?_ne_empty {type : ValueType} {value : Component}
    {kept : String} (hvalue : value.text ≠ "")
    (h : type.accept? value = some kept) : kept ≠ "" := by
  unfold ValueType.accept? at h
  split at h
  · obtain ⟨color, -, rfl⟩ := Option.map_eq_some_iff.mp h
    exact color.text_ne_empty
  · rename_i n unit
    dsimp only at h
    split at h
    · cases h
      exact fun htext =>
        n.text_ne_empty (String.append_eq_empty_iff.mp htext).1
    · cases h
  · split at h
    · cases h
      simp
    · cases h
  · cases h
    simp
  · cases h
    exact Binary32.text_ne_empty _
  · cases h
    exact hvalue
  · cases h

namespace Grammar

variable {g : Grammar} {kept : String}

theorem keyword?_ne_empty {value : Component} (hvalue : value.text ≠ "")
    (h : g.keyword? value = some kept) : kept ≠ "" := by
  unfold keyword? at h
  split at h
  · rename_i name
    dsimp only at h
    split at h
    · cases h
      intro hlower
      have hchars := congrArg String.toList hlower
      rw [Text.toList_lowerAscii] at hchars
      have hname : name = "" := by simpa using hchars
      exact hvalue hname
    · cases h
  · cases h

theorem acceptOne?_ne_empty {value : Component} (hvalue : value.text ≠ "")
    (h : g.acceptOne? value = some kept) : kept ≠ "" := by
  unfold acceptOne? at h
  split at h
  · rename_i lower hkeyword
    cases h
    exact keyword?_ne_empty hvalue hkeyword
  · split at h
    · cases h
      exact hvalue
    · obtain ⟨before, type, after, -, htype, -⟩ :=
        List.findSome?_eq_some_iff.mp h
      exact ValueType.accept?_ne_empty hvalue htype

/-- **A grammar never keeps the empty text.** -/
theorem accept?_ne_empty {value : String} (h : g.accept? value = some kept) :
    kept ≠ "" := by
  unfold accept? at h
  split at h
  · cases h
  rename_i values hvalues
  have hnamed := Component.named_of_mem_parseValue hvalues
  split at h
  · cases h
  · rename_i single hsingle
    have hmem : single ∈ values :=
      (List.mem_filter.mp (hsingle ▸ List.mem_singleton_self single)).1
    refine acceptOne?_ne_empty (Component.text_ne_empty fun t ht => ?_) h
    exact hnamed t (ht ▸ hmem)
  · rename_i hnotEmpty hnotSingle
    split at h
    · cases h
      refine Component.serialize_ne_empty hnamed ?_
      cases hkept : values.filter (fun v => !v.isWhitespace) with
      | nil => exact absurd hkept hnotEmpty
      | cons value rest =>
        have hmem := List.mem_filter.mp (hkept ▸ List.mem_cons_self)
        exact ⟨value, hmem.1, by simpa using hmem.2⟩
    · cases h

/-- **A grammar accepts changed component values like the others**, if it
accepts each of them alone so, and keeps their text changed in the same
way. -/
theorem accept?_of_map {f : Component → Component} {change : String → String}
    {text text' : String} {values : List Component}
    (h : Component.parseValue text = .ok values)
    (h' : Component.parseValue text' = .ok (values.map f))
    (hblank : ∀ v, (f v).isWhitespace = v.isWhitespace)
    (hfunction : ∀ v, g.allowsFunction (f v) = g.allowsFunction v)
    (hone : ∀ v ∈ values, g.acceptOne? (f v) = (g.acceptOne? v).map change)
    (htext : Component.serialize (values.map f) =
      change (Component.serialize values)) :
    g.accept? text' = (g.accept? text).map change := by
  have hfilter : (values.map f).filter (fun v => !v.isWhitespace) =
      (values.filter fun v => !v.isWhitespace).map f := by
    rw [List.filter_map]
    simp [Function.comp_def, hblank]
  have hmem : ∀ v ∈ values.filter (fun v => !v.isWhitespace), v ∈ values :=
    fun v hv => (List.mem_filter.mp hv).1
  unfold accept?
  rw [h, h']
  dsimp only
  rw [hfilter, htext]
  generalize values.filter (fun v => !v.isWhitespace) = solid at hmem ⊢
  rcases solid with _ | ⟨first, _ | ⟨second, rest⟩⟩
  · rfl
  · exact hone first (hmem first List.mem_cons_self)
  · have hall : ((first :: second :: rest).map f).all g.allowsFunction =
        (first :: second :: rest).all g.allowsFunction := by
      rw [List.all_map]
      exact congrArg _ (funext hfunction)
    rw [List.map_cons, List.map_cons] at hall ⊢
    dsimp only
    rw [hall]
    split <;> rfl

end Grammar

end StyleProbe
