import StyleProbe.Css.Stylesheet
import StyleProbe.Proofs.Css.Component.Tidy

/-!
# Important declarations

The mark of an important declaration, a bang and the word `important` at the
end of the value, is not part of what is declared. It is dropped with the
whitespace around it, whatever the case of the word, but only where the word
is the next component value behind the bang: with whitespace between the two
the mark is kept as a part of the value.

Main statement: `ofComponents?_important_iff`.
-/

namespace StyleProbe.Css

open Component (trim serialize)

/-- The component values of a declaration: a name, a colon and the value. -/
def declared (name : String) (values : List Component) : List Component :=
  .token (.ident name) :: .token .colon :: values

/-- A bang and a word, with what stands between them. -/
def mark (between : List Component) (word : String) : List Component :=
  .token (.delim '!') :: (between ++ [.token (.ident word)])

/-- The last component values are a bang and the word `important`. -/
def EndsImportant (values : List Component) : Prop :=
  ∃ front word, trim values = front ++ mark [] word ∧
    Text.sameIgnoringCase word "important" = true

/-! ## Values -/

/-- The declaration of the name with the value, if there is anything in it. -/
def Declaration.named? (name : String) (values : List Component) :
    Option Declaration :=
  if values = [] then none
  else some ⟨Text.lowerAscii name, serialize values⟩

/-- What follows a token that is not whitespace is trimmed at its end only, so
the next trimming leaves what it would leave of the whole. -/
theorem exists_trim_token {t : Token} (ht : t ≠ .whitespace)
    (values : List Component) :
    ∃ rest, trim (.token t :: values) = .token t :: rest ∧
      trim rest = trim values := by
  have hblank : (Component.token t).isWhitespace = false := by
    cases t <;> first | rfl | exact absurd rfl ht
  obtain ⟨rest, after, htrim, rfl, hafter⟩ := exists_trimBy_cons hblank values
  exact ⟨rest, htrim, (trimBy_append_right hafter rest).symm⟩

theorem ofComponents?_declared (name : String) (values : List Component) :
    Declaration.ofComponents? (declared name values) =
      Declaration.named? name (dropImportant (trim values)) := by
  have hname : Token.ident name ≠ .whitespace := by simp
  have hcolon : Token.colon ≠ .whitespace := by simp
  obtain ⟨afterName, htrim, hafterName⟩ :=
    exists_trim_token hname (.token .colon :: values)
  obtain ⟨afterColon, htrim', hafterColon⟩ := exists_trim_token hcolon values
  unfold Declaration.ofComponents? declared
  simp only [htrim, hafterName, htrim', hafterColon]
  cases dropImportant (trim values) <;> rfl

theorem named?_append_ne {name : String} {values more : List Component}
    (hvalues : trim values = values)
    (hmore : trim (values ++ more) = values ++ more)
    (hbang : .token (.delim '!') ∈ more) :
    Declaration.named? name (values ++ more) ≠
      Declaration.named? name values := by
  have hne : values ++ more ≠ [] :=
    List.ne_nil_of_mem (List.mem_append_right values hbang)
  intro h
  rw [Declaration.named?, if_neg hne, Declaration.named?] at h
  split at h
  · cases h
  · have hvalue := (Declaration.mk.inj (Option.some.inj h)).2
    have htext := congrArg String.toList hvalue
    rw [serialize, Component.toList_joinPieces, hmore, serialize,
      Component.toList_joinPieces, hvalues, List.flatMap_append,
      List.append_right_eq_self, List.flatMap_eq_nil_iff] at htext
    cases htext _ hbang

/-! ## Marks -/

/-- The mark is all that trimming leaves of what stands behind the value, but
for a gap in front. -/
theorem exists_trim_mark {before between after : List Component}
    (hbefore : ∀ v ∈ before, v.isWhitespace = true)
    (hafter : ∀ v ∈ after, v.isWhitespace = true) (word : String)
    (values : List Component) :
    ∃ gap, (∀ v ∈ gap, v.isWhitespace = true) ∧
      trim (values ++ (before ++ (mark between word ++ after))) =
        trim values ++ (gap ++ mark between word) := by
  have hne : mark between word ≠ [] := List.cons_ne_nil _ _
  refine exists_trimBy_append hbefore hafter hne ?_ ?_ values
  · rintro value ⟨⟩
    rfl
  · rw [mark, ← List.cons_append, List.getLast?_concat]
    rintro value ⟨⟩
    rfl

theorem dropImportant_eq_self {values : List Component}
    (h : ¬ EndsImportant values) : dropImportant (trim values) = trim values := by
  unfold dropImportant
  split
  · rename_i word before hreverse
    refine if_neg fun hword => h ⟨before.reverse, word, ?_, hword⟩
    rw [← List.reverse_reverse (trim values), hreverse]
    simp [mark]
  · rfl

/-- A mark in one piece is dropped. -/
theorem dropImportant_mark {word : String}
    (hword : Text.sameIgnoringCase word "important" = true)
    (values : List Component) :
    dropImportant (values ++ mark [] word) = trim values := by
  simp [dropImportant, mark, hword]

/-- A mark in two pieces is kept. -/
theorem dropImportant_mark_of_ne_nil {between : List Component}
    (hbetween : ∀ v ∈ between, v.isWhitespace = true) (hne : between ≠ [])
    (values : List Component) (word : String) :
    dropImportant (values ++ mark between word) =
      values ++ mark between word := by
  obtain ⟨front, gap, rfl⟩ := (List.eq_nil_or_concat between).resolve_left hne
  have hgap := Component.eq_whitespace_of_isWhitespace (hbetween gap (by simp))
  simp [dropImportant, mark, hgap]

/-- **A mark changes nothing of what is declared** exactly when no whitespace
stands between its bang and its word. -/
theorem ofComponents?_important_iff
    {values before between after : List Component} {word : String}
    (name : String) (hvalues : ¬ EndsImportant values)
    (hbefore : ∀ v ∈ before, v.isWhitespace = true)
    (hbetween : ∀ v ∈ between, v.isWhitespace = true)
    (hafter : ∀ v ∈ after, v.isWhitespace = true)
    (hword : Text.sameIgnoringCase word "important" = true) :
    Declaration.ofComponents?
        (declared name (values ++ (before ++ (mark between word ++ after)))) =
      Declaration.ofComponents? (declared name values) ↔ between = [] := by
  obtain ⟨gap, hgap, htrim⟩ := exists_trim_mark hbefore hafter word values
  rw [ofComponents?_declared, ofComponents?_declared, htrim,
    dropImportant_eq_self hvalues]
  have htrimmed : trim (trim values) = trim values := trimBy_trimBy _ values
  constructor
  · intro h
    apply Classical.byContradiction
    intro hne
    rw [← List.append_assoc, dropImportant_mark_of_ne_nil hbetween hne,
      List.append_assoc] at h
    refine named?_append_ne htrimmed ?_ (by simp [mark]) h
    rw [← htrim]
    exact trimBy_trimBy _ _
  · rintro rfl
    rw [← List.append_assoc, dropImportant_mark hword, trim,
      trimBy_append_right hgap, ← trim, htrimmed]

/-- `color: red !IMPORTANT` declares what `color: red` does. -/
theorem ofComponents?_important_red :
    Declaration.ofComponents? (declared "color"
        ([.token .whitespace, .token (.ident "red")] ++
          ([.token .whitespace] ++
            (mark [] "IMPORTANT" ++ [.token .whitespace])))) =
      Declaration.ofComponents? (declared "color"
        [.token .whitespace, .token (.ident "red")]) := by
  have hgap : ∀ v ∈ [Component.token .whitespace], v.isWhitespace = true := by
    decide
  have hvalues :
      ¬ EndsImportant [.token .whitespace, .token (.ident "red")] := by
    rintro ⟨front, word, htrim, -⟩
    have hlength := congrArg List.length htrim
    have hred : trim [.token .whitespace, .token (.ident "red")] =
      [.token (.ident "red")] := rfl
    rw [hred, List.length_append] at hlength
    simp [mark] at hlength
  exact (ofComponents?_important_iff "color" hvalues hgap
    (List.forall_mem_nil _) hgap (by with_unfolding_all rfl)).mpr rfl

/-- `color: red ! important` keeps its mark. -/
theorem ofComponents?_important_apart :
    ∃ marked plain,
      Declaration.ofComponents? (declared "color"
          ([.token .whitespace, .token (.ident "red")] ++
            ([.token .whitespace] ++
              (mark [.token .whitespace] "important" ++ [])))) =
        some marked ∧
      Declaration.ofComponents? (declared "color"
          [.token .whitespace, .token (.ident "red")]) = some plain ∧
      marked = ⟨"color", "red ! important"⟩ ∧ plain = ⟨"color", "red"⟩ ∧
      marked ≠ plain := by
  refine ⟨_, _, ?_, ?_, rfl, rfl, ?_⟩
  · with_unfolding_all rfl
  · with_unfolding_all rfl
  · decide

end StyleProbe.Css
