import StyleProbe.Css.Color
import StyleProbe.Proofs.Css.Component.Descent
import StyleProbe.Proofs.Css.Token.Legible

/-!
# Tidy component values

Component values are written without the whitespace at the ends of their
functions and blocks. Tidying takes that whitespace away, so the text of
component values is the text of the tokens of the tidied ones, and where those
are legible, reading the text gives the tidied component values. Nobody tells
them from the others: they are written alike, and they are the same colours.

Main statements: `toList_serialize`, `parseValue_serialize` and
`Color.parse_tidy`.
-/

namespace StyleProbe.Css

namespace Component

mutual

/-- The component value without the whitespace at the ends of its
brackets. -/
def tidy : Component → Component
  | token t => token t
  | function name body => function name (trim (tidyAll body))
  | block bracket body => block bracket (trim (tidyAll body))

/-- The component values without the whitespace at the ends of their
brackets. -/
def tidyAll : List Component → List Component
  | [] => []
  | value :: values => tidy value :: tidyAll values

end

theorem tidyAll_eq_map (values : List Component) :
    tidyAll values = values.map tidy := by
  induction values with
  | nil => rfl
  | cons value values ih => rw [tidyAll, ih, List.map_cons]

theorem isWhitespace_tidy (value : Component) :
    value.tidy.isWhitespace = value.isWhitespace := by
  cases value <;> rfl

theorem trim_tidyAll (values : List Component) :
    trim (tidyAll values) = tidyAll (trim values) := by
  rw [tidyAll_eq_map, trim, trimBy_map isWhitespace_tidy, tidyAll_eq_map, trim]

theorem tidy_close (opener : Opener) (body : List Component) :
    (opener.close body).tidy = opener.close (trim (tidyAll body)) := by
  cases opener <;> rfl

/-! ## Writing -/

theorem pieces_eq_map (values : List Component) :
    pieces values = values.map fun value =>
      if value.isWhitespace then none else some value.text := by
  induction values with
  | nil => rfl
  | cons value values ih => rw [pieces, ih, List.map_cons]

theorem trimBy_pieces (values : List Component) :
    trimBy Option.isNone (pieces values) = pieces (trim values) := by
  have hgap : Option.isNone ∘ (fun value : Component =>
      if value.isWhitespace then none else some value.text) =
        isWhitespace := by
    funext value
    simp only [Function.comp]
    split <;> simp_all
  rw [pieces_eq_map, trimBy_map_comp, hgap, pieces_eq_map, trim]

theorem eq_whitespace_of_isWhitespace {value : Component}
    (h : value.isWhitespace = true) : value = .token .whitespace := by
  cases value with
  | token t =>
    cases t with
    | whitespace => rfl
    | _ => cases h
  | _ => cases h

theorem toList_joinPieces (values : List Component) :
    (joinPieces (pieces values)).toList =
      (trim values).flatMap fun value => value.text.toList := by
  have hrow : ∀ vs : List Component,
      ((pieces vs).foldr (fun p s => p.getD " " ++ s) "").toList =
        vs.flatMap fun value => value.text.toList := by
    intro vs
    induction vs with
    | nil => rfl
    | cons value vs ih =>
      rw [pieces, List.foldr_cons, String.toList_append, ih, List.flatMap_cons]
      congr 1
      split
      · rename_i hgap
        rw [eq_whitespace_of_isWhitespace hgap]
        rfl
      · rfl
  rw [joinPieces, trimBy_pieces, hrow]

theorem texts_flattenAll (values : List Component) :
    texts (flattenAll values) =
      values.flatMap fun value => texts (flatten value) := by
  induction values with
  | nil => rfl
  | cons value values ih =>
    rw [flattenAll, texts_append, ih, List.flatMap_cons]

/-- The contents of brackets are written as their tokens when they are tidy,
if each of them is. -/
theorem toList_joinPieces_of_tidy {values : List Component}
    (h : ∀ value ∈ values, value.text.toList = texts (flatten value.tidy)) :
    (joinPieces (pieces values)).toList =
      texts (flattenAll (trim (tidyAll values))) := by
  rw [toList_joinPieces, trim_tidyAll, texts_flattenAll, tidyAll_eq_map,
    List.flatMap_map, List.flatMap_def, List.flatMap_def]
  exact congrArg List.flatten (List.map_congr_left fun value hvalue =>
    h value (mem_of_mem_trimBy hvalue))

mutual

/-- A component value is written as the tokens of the tidied one. -/
theorem toList_text (value : Component) :
    value.text.toList = texts (flatten value.tidy) := by
  match value with
  | .token t => simp [text, tidy, flatten, texts]
  | .function name body =>
    have hbody := toList_joinPieces_of_tidy (forall_toList_text body)
    simp [text, tidy, flatten, hbody, texts_cons, texts_append, Token.text,
      Bracket.closingText, texts_nil]
  | .block bracket body =>
    have hbody := toList_joinPieces_of_tidy (forall_toList_text body)
    simp [text, tidy, flatten, hbody, texts_cons, texts_append, Token.text,
      texts_nil]

theorem forall_toList_text (values : List Component) :
    ∀ value ∈ values, value.text.toList = texts (flatten value.tidy) := by
  match values with
  | [] => simp
  | value :: values =>
    have hfirst := toList_text value
    have hrest := forall_toList_text values
    intro v hv
    rcases List.mem_cons.mp hv with rfl | hv
    · exact hfirst
    · exact hrest v hv

end

/-- **Component values are written as the tokens of the tidied ones.** -/
theorem toList_serialize (values : List Component) :
    (serialize values).toList = texts (flattenAll (trim (tidyAll values))) :=
  toList_joinPieces_of_tidy (forall_toList_text values)

mutual

theorem tidy_tidy (value : Component) : value.tidy.tidy = value.tidy := by
  match value with
  | .token t => rfl
  | .function name body =>
    rw [tidy, tidy, ← trim_tidyAll, tidyAll_tidyAll, trim, trim,
      trimBy_trimBy]
  | .block bracket body =>
    rw [tidy, tidy, ← trim_tidyAll, tidyAll_tidyAll, trim, trim,
      trimBy_trimBy]

theorem tidyAll_tidyAll (values : List Component) :
    tidyAll (tidyAll values) = tidyAll values := by
  match values with
  | [] => rfl
  | value :: values =>
    rw [tidyAll, tidyAll, tidy_tidy value, tidyAll_tidyAll values]

end

theorem text_tidy (value : Component) : value.tidy.text = value.text := by
  apply String.toList_inj.mp
  rw [toList_text, toList_text, tidy_tidy]

theorem serialize_tidyAll (values : List Component) :
    serialize (tidyAll values) = serialize values := by
  apply String.toList_inj.mp
  rw [toList_serialize, toList_serialize, tidyAll_tidyAll]

/-! ## Reading the text -/

theorem WellFormedAll.trim {values : List Component}
    (h : WellFormedAll values) : WellFormedAll (trim values) :=
  wellFormedAll_iff.mpr fun value hvalue =>
    wellFormedAll_iff.mp h value (mem_of_mem_trimBy hvalue)

mutual

theorem wellFormed_tidy {value : Component} (h : value.WellFormed) :
    value.tidy.WellFormed := by
  match value with
  | .token t => exact h
  | .function name body => exact (wellFormedAll_tidyAll h).trim
  | .block bracket body => exact (wellFormedAll_tidyAll h).trim

theorem wellFormedAll_tidyAll {values : List Component}
    (h : WellFormedAll values) : WellFormedAll (tidyAll values) := by
  match values with
  | [] => trivial
  | value :: values =>
    exact ⟨wellFormed_tidy h.1, wellFormedAll_tidyAll h.2⟩

end

mutual

theorem mem_flatten_of_tidy {t : Token} {value : Component}
    (h : t ∈ flatten value.tidy) : t ∈ flatten value := by
  match value with
  | .token u => exact h
  | .function name body =>
    have hbody : t ∈ flattenAll (tidyAll body) → t ∈ flattenAll body :=
      mem_flattenAll_of_tidyAll
    simp only [tidy, flatten, List.mem_cons, List.mem_append] at h ⊢
    exact h.imp_right (.imp_left fun ht => hbody (mem_flattenAll_of_trim ht))
  | .block bracket body =>
    have hbody : t ∈ flattenAll (tidyAll body) → t ∈ flattenAll body :=
      mem_flattenAll_of_tidyAll
    simp only [tidy, flatten, List.mem_cons, List.mem_append] at h ⊢
    exact h.imp_right (.imp_left fun ht => hbody (mem_flattenAll_of_trim ht))

theorem mem_flattenAll_of_tidyAll {t : Token} {values : List Component}
    (h : t ∈ flattenAll (tidyAll values)) : t ∈ flattenAll values := by
  match values with
  | [] => exact h
  | value :: values =>
    rw [tidyAll, flattenAll] at h
    rw [flattenAll]
    rcases List.mem_append.mp h with h | h
    · exact List.mem_append_left _ (mem_flatten_of_tidy h)
    · exact List.mem_append_right _ (mem_flattenAll_of_tidyAll h)

end

/-- The component values are read back from their text: each token of the
tidied ones is legible, and there is whitespace once where there is any. -/
structure Legible (values : List Component) : Prop where
  tokens : legible (flattenAll (tidyAll values)) = true
  gaps : collapse (flattenAll (tidyAll values)) = flattenAll (tidyAll values)

instance (values : List Component) : Decidable (Legible values) :=
  decidable_of_iff
    (legible (flattenAll (tidyAll values)) = true ∧
      collapse (flattenAll (tidyAll values)) = flattenAll (tidyAll values))
    ⟨fun h => ⟨h.1, h.2⟩, fun h => ⟨h.tokens, h.gaps⟩⟩

/-- A declaration value has no whitespace at its ends, and none when it is
tidied. -/
theorem trim_tidyAll_of_parseValue {text : String} {values : List Component}
    (h : parseValue text = .ok values) :
    trim (tidyAll values) = tidyAll values := by
  obtain ⟨contents, -, -, rfl⟩ := parseValue_eq_ok_iff.mp h
  rw [trim_tidyAll, trim, trim, trimBy_trimBy]

theorem lexed_of_mem_tidyAll {text : String} {values : List Component}
    (h : parseValue text = .ok values) :
    ∀ t ∈ flattenAll (tidyAll values), t.Lexed :=
  fun t ht => lexed_of_mem_parseValue h t (mem_flattenAll_of_tidyAll ht)

/-- The text of a declaration value is read as its tidied tokens. -/
theorem tokenize_serialize {text : String} {values : List Component}
    (hvalues : parseValue text = .ok values) (h : Legible values) :
    tokenize (serialize values) = .ok (flattenAll (tidyAll values)) := by
  rw [tokenize, toList_serialize, trim_tidyAll_of_parseValue hvalues,
    tokenizeChars_texts (lexed_of_mem_tidyAll hvalues) h.tokens, h.gaps]

/-- **A declaration value that is legible is read back tidied** from its
text. -/
theorem parseValue_serialize {text : String} {values : List Component}
    (hvalues : parseValue text = .ok values) (h : Legible values) :
    parseValue (serialize values) = .ok (tidyAll values) := by
  have htokens := tokenize_serialize hvalues h
  have htrim := trim_tidyAll_of_parseValue hvalues
  obtain ⟨contents, hformed, -, rfl⟩ := parseValue_eq_ok_iff.mp hvalues
  exact parseValue_eq_ok_iff.mpr
    ⟨_, wellFormedAll_tidyAll hformed.trim, htokens, htrim⟩

end Component

/-! ## Colours -/

namespace Color

open Component (tidyAll)

theorem isSeparator_tidy (value : Component) :
    isSeparator value.tidy = isSeparator value := by
  cases value <;> rfl

theorem channel_tidy (argument : Component) :
    channel argument.tidy = channel argument := by
  cases argument with
  | token t => rfl
  | function name body =>
    exact congrArg (Except.error ∘ Error.invalidChannel)
      (Component.text_tidy (.function name body))
  | block bracket body =>
    exact congrArg (Except.error ∘ Error.invalidChannel)
      (Component.text_tidy (.block bracket body))

theorem alphaArgument_tidy (argument : Component) :
    alphaArgument argument.tidy = alphaArgument argument := by
  cases argument with
  | token t => rfl
  | function name body =>
    exact congrArg (Except.error ∘ Error.invalidAlpha)
      (Component.text_tidy (.function name body))
  | block bracket body =>
    exact congrArg (Except.error ∘ Error.invalidAlpha)
      (Component.text_tidy (.block bracket body))

theorem ofArguments_tidyAll (contents : List Component) :
    ofArguments (Component.trim (tidyAll contents)) =
      ofArguments contents := by
  have hblank : ∀ value : Component, value.isWhitespace = true →
      (!isSeparator value) = false := by
    intro value hvalue
    rw [Component.eq_whitespace_of_isWhitespace hvalue]
    rfl
  have hfilter : (Component.trim (tidyAll contents)).filter
      (fun value => !isSeparator value) =
        (contents.filter fun value => !isSeparator value).map
          Component.tidy := by
    rw [Component.trim, filter_trimBy hblank, Component.tidyAll_eq_map,
      List.filter_map]
    simp [Function.comp_def, isSeparator_tidy]
  unfold ofArguments
  rw [hfilter]
  rcases contents.filter fun value => !isSeparator value with
    _ | ⟨r, _ | ⟨g, _ | ⟨b, _ | ⟨a, _ | ⟨more, rest⟩⟩⟩⟩⟩ <;>
    simp only [List.map_cons, List.map_nil, channel_tidy,
      alphaArgument_tidy, List.length_cons, List.length_map]

/-- **Tidying changes no colour.** -/
theorem parse_tidy (value : Component) : parse value.tidy = parse value := by
  cases value with
  | token t => rfl
  | function name contents =>
    simp only [Component.tidy, parse, ofArguments_tidyAll]
  | block bracket contents =>
    exact congrArg (Except.error ∘ Error.invalidColor)
      (Component.text_tidy (.block bracket contents))

end Color

end StyleProbe.Css
