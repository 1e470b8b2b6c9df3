import StyleProbe.Proofs.Css.Component.Tidy
import StyleProbe.Proofs.Css.Token.Gaps

/-!
# Whitespace in written component values

Writing takes the whitespace at the ends away, at every level, but not the
runs inside: each whitespace token of a run is a space. The spaced form of
component values has every run as one token and none at the ends. A value is
written like its spaced form exactly when no two whitespace tokens are
neighbours in what is written, and so is every value with no comment behind
whitespace.

Main statements: `toList_serialize_spacedAll` (the spaced form is written with
each run as one space), `serialize_spacedAll_eq_iff` and `serialize_spaced`.
-/

namespace StyleProbe.Css

namespace Component

/-! ## The spaced form -/

/-- The component values with each run of whitespace as one token. -/
def singleGaps : List Component → List Component
  | [] => []
  | value :: values =>
    if value.isWhitespace && values.head?.any isWhitespace then
      singleGaps values
    else value :: singleGaps values

mutual

/-- The component value with each run of whitespace inside of its brackets as
one token, and none at the ends. -/
def spaced : Component → Component
  | token t => token t
  | function name body => function name (singleGaps (trim (spacedEach body)))
  | block bracket body => block bracket (singleGaps (trim (spacedEach body)))

/-- Each of the component values in its spaced form. -/
def spacedEach : List Component → List Component
  | [] => []
  | value :: values => spaced value :: spacedEach values

end

/-- The component values with each run of whitespace as one token and none at
the ends, at every level. -/
def spacedAll (values : List Component) : List Component :=
  singleGaps (trim (spacedEach values))

theorem spacedEach_eq_map (values : List Component) :
    spacedEach values = values.map spaced := by
  induction values with
  | nil => rfl
  | cons value values ih => rw [spacedEach, ih, List.map_cons]

theorem isWhitespace_spaced (value : Component) :
    value.spaced.isWhitespace = value.isWhitespace := by
  cases value <;> rfl

theorem trim_spacedEach (values : List Component) :
    trim (spacedEach values) = spacedEach (trim values) := by
  rw [spacedEach_eq_map, trim, trimBy_map isWhitespace_spaced,
    spacedEach_eq_map, trim]

theorem mem_of_mem_singleGaps {value : Component} {values : List Component}
    (h : value ∈ singleGaps values) : value ∈ values := by
  fun_induction singleGaps values with
  | case1 => exact h
  | case2 first values _ ih => exact List.mem_cons_of_mem first (ih h)
  | case3 first values _ ih =>
    exact (List.mem_cons.mp h).elim (fun h => h ▸ List.mem_cons_self)
      fun h => List.mem_cons_of_mem first (ih h)

/-! ## Nothing is left to take away -/

theorem head?_singleGaps (values : List Component) :
    (singleGaps values).head? = values.head? := by
  fun_induction singleGaps values with
  | case1 => rfl
  | case2 value values hgap ih =>
    simp only [Bool.and_eq_true, Option.any_eq_true] at hgap
    obtain ⟨hvalue, next, hnext, hspace⟩ := hgap
    rw [ih, hnext, eq_whitespace_of_isWhitespace hvalue,
      eq_whitespace_of_isWhitespace hspace]
    rfl
  | case3 value values _ ih => rfl

theorem getLast?_singleGaps (values : List Component) :
    (singleGaps values).getLast? = values.getLast? := by
  fun_induction singleGaps values with
  | case1 => rfl
  | case2 value values hgap ih =>
    cases values with
    | nil => simp at hgap
    | cons next values => rw [ih, List.getLast?_cons_cons]
  | case3 value values _ ih =>
    rw [List.getLast?_cons, List.getLast?_cons, ih]

theorem trim_spacedAll (values : List Component) :
    trim (spacedAll values) = spacedAll values := by
  refine trimBy_eq_self (fun value h => ?_) fun value h => ?_
  · rw [spacedAll, head?_singleGaps] at h
    exact head?_trimBy isWhitespace _ value h
  · rw [spacedAll, getLast?_singleGaps] at h
    exact getLast?_trimBy isWhitespace _ value h

/-- Component values that are tidy each stay as they are in the spaced
form. -/
theorem tidyAll_spacedAll_of_forall {values : List Component}
    (h : ∀ value ∈ values, value.spaced.tidy = value.spaced) :
    tidyAll (spacedAll values) = spacedAll values := by
  have hmember : ∀ value ∈ spacedAll values, value.tidy = id value := by
    intro value hvalue
    have hvalue := mem_of_mem_trimBy (mem_of_mem_singleGaps hvalue)
    rw [spacedEach_eq_map] at hvalue
    obtain ⟨value, hmem, rfl⟩ := List.mem_map.mp hvalue
    exact h value hmem
  rw [tidyAll_eq_map, List.map_congr_left hmember, List.map_id]

mutual

theorem tidy_spaced (value : Component) :
    value.spaced.tidy = value.spaced := by
  match value with
  | .token t => rfl
  | .function name body =>
    have hbody := tidyAll_spacedAll_of_forall (forall_tidy_spaced body)
    change function name (trim (tidyAll (spacedAll body))) =
      function name (spacedAll body)
    rw [hbody, trim_spacedAll]
  | .block bracket body =>
    have hbody := tidyAll_spacedAll_of_forall (forall_tidy_spaced body)
    change block bracket (trim (tidyAll (spacedAll body))) =
      block bracket (spacedAll body)
    rw [hbody, trim_spacedAll]

theorem forall_tidy_spaced (values : List Component) :
    ∀ value ∈ values, value.spaced.tidy = value.spaced := by
  match values with
  | [] => simp
  | value :: values =>
    exact List.forall_mem_cons.mpr
      ⟨tidy_spaced value, forall_tidy_spaced values⟩

end

theorem tidyAll_spacedAll (values : List Component) :
    tidyAll (spacedAll values) = spacedAll values :=
  tidyAll_spacedAll_of_forall (forall_tidy_spaced values)

/-! ## Flattening -/

theorem isWhitespace_of_getLast?_flatten {value : Component}
    (h : (flatten value).getLast? = some .whitespace) :
    value.isWhitespace = true := by
  cases value with
  | token t =>
    obtain rfl := Option.some.inj h
    rfl
  | function name body => simp [flatten, List.getLast?_cons] at h
  | block bracket body => simp [flatten, List.getLast?_cons] at h

theorem isWhitespace_of_head?_flattenAll {values : List Component}
    (h : (flattenAll values).head? = some .whitespace) :
    values.head?.any isWhitespace = true := by
  cases values with
  | nil => cases h
  | cons value values =>
    cases value with
    | token t =>
      obtain rfl := Option.some.inj h
      rfl
    | function name body => cases h
    | block bracket body => cases h

theorem head?_flattenAll_eq_whitespace {values : List Component}
    (h : values.head?.any isWhitespace = true) :
    (flattenAll values).head? = some .whitespace := by
  cases values with
  | nil => cases h
  | cons value values =>
    obtain rfl := eq_whitespace_of_isWhitespace h
    rfl

theorem head?_any_isWhitespace_spacedEach (values : List Component) :
    (spacedEach values).head?.any isWhitespace =
      values.head?.any isWhitespace := by
  cases values with
  | nil => rfl
  | cons value values => exact isWhitespace_spaced value

theorem head?_any_isWhitespace_tidyAll (values : List Component) :
    (tidyAll values).head?.any isWhitespace =
      values.head?.any isWhitespace := by
  cases values with
  | nil => rfl
  | cons value values => exact isWhitespace_tidy value

theorem flattenAll_singleGaps {values : List Component}
    (h : ∀ value ∈ values,
      flatten value.spaced = collapse (flatten value.tidy)) :
    flattenAll (singleGaps (spacedEach values)) =
      collapse (flattenAll (tidyAll values)) := by
  induction values with
  | nil => rfl
  | cons value values ih =>
    have hvalue := h value List.mem_cons_self
    have hvalues := ih fun v hv => h v (List.mem_cons_of_mem value hv)
    rw [spacedEach, singleGaps, isWhitespace_spaced,
      head?_any_isWhitespace_spacedEach, tidyAll, flattenAll]
    split
    · rename_i hgap
      obtain ⟨hfirst, hnext⟩ := Bool.and_eq_true_iff.mp hgap
      obtain rfl := eq_whitespace_of_isWhitespace hfirst
      cases values with
      | nil => cases hnext
      | cons next values =>
        obtain rfl := eq_whitespace_of_isWhitespace hnext
        rw [hvalues]
        exact (if_pos ⟨rfl, rfl⟩).symm
    · rename_i hgap
      rw [flattenAll, hvalue, hvalues, collapse_append]
      intro hlast hfirst
      apply hgap
      rw [← isWhitespace_tidy, isWhitespace_of_getLast?_flatten hlast,
        ← head?_any_isWhitespace_tidyAll,
        isWhitespace_of_head?_flattenAll hfirst]
      rfl

theorem flattenAll_spacedAll_of_forall {values : List Component}
    (h : ∀ value ∈ values,
      flatten value.spaced = collapse (flatten value.tidy)) :
    flattenAll (spacedAll values) =
      collapse (flattenAll (trim (tidyAll values))) := by
  rw [spacedAll, trim_spacedEach, trim_tidyAll]
  exact flattenAll_singleGaps fun value hvalue =>
    h value (mem_of_mem_trimBy hvalue)

theorem collapse_bracketed {first last : Token} (hfirst : first ≠ .whitespace)
    (hlast : last ≠ .whitespace) (ts : List Token) :
    collapse (first :: (ts ++ [last])) = first :: (collapse ts ++ [last]) := by
  have hlone : collapse [last] = [last] := by simp [collapse]
  rw [collapse, if_neg (by simp [hfirst]), collapse_append (by simp [hlast]),
    hlone]

mutual

theorem flatten_spaced (value : Component) :
    flatten value.spaced = collapse (flatten value.tidy) := by
  match value with
  | .token t => simp [spaced, tidy, flatten, collapse]
  | .function name body =>
    have hbody := flattenAll_spacedAll_of_forall (forall_flatten_spaced body)
    simp only [spaced, tidy, flatten]
    rw [collapse_bracketed (by simp) (by simp), ← hbody, spacedAll]
  | .block bracket body =>
    have hbody := flattenAll_spacedAll_of_forall (forall_flatten_spaced body)
    simp only [spaced, tidy, flatten]
    rw [collapse_bracketed (by simp) (by simp), ← hbody, spacedAll]

theorem forall_flatten_spaced (values : List Component) :
    ∀ value ∈ values, flatten value.spaced = collapse (flatten value.tidy) := by
  match values with
  | [] => simp
  | value :: values =>
    exact List.forall_mem_cons.mpr
      ⟨flatten_spaced value, forall_flatten_spaced values⟩

end

/-! ## Writing -/

/-- **The spaced form is written like the tidied component values**, with each
run of whitespace as one space. -/
theorem toList_serialize_spacedAll (values : List Component) :
    (serialize (spacedAll values)).toList =
      texts (collapse (flattenAll (trim (tidyAll values)))) := by
  rw [toList_serialize, tidyAll_spacedAll, trim_spacedAll,
    flattenAll_spacedAll_of_forall (forall_flatten_spaced values)]

/-- The tokens between the ends of the component values and of their brackets:
those that are written. -/
def writtenTokens (values : List Component) : List Token :=
  flattenAll (trim (tidyAll values))

theorem serialize_spacedAll_eq_iff (values : List Component) :
    serialize (spacedAll values) = serialize values ↔
      ¬ HasDoubleGap (writtenTokens values) := by
  rw [← String.toList_inj, toList_serialize_spacedAll, toList_serialize,
    texts_collapse_eq_iff, writtenTokens]

/-! ## What a text has between its whitespace -/

theorem hasDoubleGap_bracketed {first last : Token}
    (hfirst : first ≠ .whitespace) (hlast : last ≠ .whitespace)
    {ts : List Token} :
    HasDoubleGap (first :: (ts ++ [last])) ↔ HasDoubleGap ts := by
  rw [← not_iff_not, ← collapse_eq_self_iff, ← collapse_eq_self_iff,
    collapse_bracketed hfirst hlast, List.cons.injEq, and_iff_right rfl,
    List.append_left_inj]

theorem hasDoubleGap_of_trim {values : List Component}
    (h : HasDoubleGap (flattenAll (trim values))) :
    HasDoubleGap (flattenAll values) := by
  obtain ⟨before, after, heq, -, -⟩ :=
    exists_eq_append_trimBy isWhitespace values
  rw [heq, flattenAll_append, flattenAll_append]
  exact hasDoubleGap_append.mpr
    (.inr (.inl (hasDoubleGap_append.mpr (.inl h))))

mutual

theorem hasDoubleGap_of_tidy {value : Component}
    (h : HasDoubleGap (flatten value.tidy)) : HasDoubleGap (flatten value) := by
  match value with
  | .token t => exact h
  | .function name body =>
    rw [tidy, flatten, hasDoubleGap_bracketed (by simp) (by simp)] at h
    rw [flatten, hasDoubleGap_bracketed (by simp) (by simp)]
    exact hasDoubleGap_of_tidyAll (hasDoubleGap_of_trim h)
  | .block bracket body =>
    rw [tidy, flatten, hasDoubleGap_bracketed (by simp) (by simp)] at h
    rw [flatten, hasDoubleGap_bracketed (by simp) (by simp)]
    exact hasDoubleGap_of_tidyAll (hasDoubleGap_of_trim h)

theorem hasDoubleGap_of_tidyAll {values : List Component}
    (h : HasDoubleGap (flattenAll (tidyAll values))) :
    HasDoubleGap (flattenAll values) := by
  match values with
  | [] => exact h
  | value :: values =>
    rw [tidyAll, flattenAll, hasDoubleGap_append] at h
    rw [flattenAll, hasDoubleGap_append]
    refine h.imp hasDoubleGap_of_tidy (.imp hasDoubleGap_of_tidyAll ?_)
    rintro ⟨hlast, hfirst⟩
    have hvalue := isWhitespace_of_getLast?_flatten hlast
    have hnext := isWhitespace_of_head?_flattenAll hfirst
    rw [isWhitespace_tidy] at hvalue
    rw [head?_any_isWhitespace_tidyAll] at hnext
    obtain rfl := eq_whitespace_of_isWhitespace hvalue
    exact ⟨rfl, head?_flattenAll_eq_whitespace hnext⟩

end

/-- In a value with no comment behind whitespace, nothing that is written is a
run of whitespace. -/
theorem no_double_gap_of_parseValue {text : String} {values : List Component}
    (h : parseValue text = .ok values)
    (hcomment : ¬ HasGapBeforeComment text.toList) :
    ¬ HasDoubleGap (writtenTokens values) := by
  obtain ⟨contents, -, htokens, rfl⟩ := parseValue_eq_ok_iff.mp h
  have hcontents := no_double_gap_of_tokenizeChars htokens hcomment
  intro hwritten
  have htrimmed := hasDoubleGap_of_tidyAll (hasDoubleGap_of_trim hwritten)
  exact hcontents (hasDoubleGap_of_trim htrimmed)

/-- **A value is written like its spaced form**, with every run of whitespace
as one space, exactly when no two whitespace tokens are neighbours in what is
written. Whitespace in front of a comment is the only way to such
neighbours. -/
theorem serialize_spaced {text : String} {values : List Component}
    (h : parseValue text = .ok values) :
    (serialize (spacedAll values) = serialize values ↔
      ¬ HasDoubleGap (writtenTokens values)) ∧
    (¬ HasGapBeforeComment text.toList →
      serialize (spacedAll values) = serialize values) := by
  have hiff := serialize_spacedAll_eq_iff values
  exact ⟨hiff, fun hcomment => hiff.mpr (no_double_gap_of_parseValue h hcomment)⟩

/-- A comment in front of whitespace leaves one run. -/
theorem serialize_spaced_runs :
    ∃ values, parseValue "a/* */  b( c\n d )" = .ok values ∧
      ¬ HasDoubleGap (writtenTokens values) ∧
      serialize (spacedAll values) = serialize values ∧
      serialize values = "a b(c d)" := by
  have h : parseValue "a/* */  b( c\n d )" = .ok
      [.token (.ident "a"), .token .whitespace,
        .function "b" [.token .whitespace, .token (.ident "c"),
          .token .whitespace, .token (.ident "d"), .token .whitespace]] := by
    with_unfolding_all rfl
  have hgap : ¬ HasDoubleGap (writtenTokens
      [.token (.ident "a"), .token .whitespace,
        .function "b" [.token .whitespace, .token (.ident "c"),
          .token .whitespace, .token (.ident "d"), .token .whitespace]]) := by
    decide
  exact ⟨_, h, hgap, (serialize_spaced h).1.mpr hgap, by with_unfolding_all rfl⟩

/-- A comment between two runs of whitespace leaves both of them. -/
theorem serialize_comment_between :
    ∃ values, parseValue "a /**/ b" = .ok values ∧
      serialize values = "a  b" ∧ serialize (spacedAll values) = "a b" ∧
      serialize values ≠ serialize (spacedAll values) := by
  refine ⟨[.token (.ident "a"), .token .whitespace, .token .whitespace,
    .token (.ident "b")], ?_, ?_, ?_, ?_⟩
  · with_unfolding_all rfl
  · with_unfolding_all rfl
  · with_unfolding_all rfl
  · decide

end Component

end StyleProbe.Css
