import StyleProbe.Css.Color
import StyleProbe.Css.Component.Reader

/-!
# The arguments of `rgb()`

`rgb()` takes three channels and at most one alpha, each a number or a
percentage: separated by whitespace, with a slash before the alpha, or
separated by commas. What is checked is less. Commas and slashes are skipped
like whitespace, so any three or four numbers and percentages make a colour,
wherever separators stand among them, and they make it as documented only if
the separators stand where they should.

Main statement: `parse_rgb_iff`.
-/

namespace StyleProbe.Css.Color

/-! ## What is documented -/

/-- The component value is a number or a percentage. -/
def isQuantity : Component → Bool
  | .token (.number _) => true
  | .token (.percentage _) => true
  | _ => false

/-- The component values that are not whitespace. -/
def solid (contents : List Component) : List Component :=
  contents.filter fun value => !value.isWhitespace

/-- The documented contents of `rgb()`, whitespace aside: the form with spaces
and the legacy form with commas, each with an alpha or without. -/
inductive Documented : List Component → Prop where
  | spaced {r g b : Component} :
    isQuantity r → isQuantity g → isQuantity b → Documented [r, g, b]
  | spacedAlpha {r g b a : Component} :
    isQuantity r → isQuantity g → isQuantity b → isQuantity a →
    Documented [r, g, b, .token (.delim '/'), a]
  | legacy {r g b : Component} :
    isQuantity r → isQuantity g → isQuantity b →
    Documented [r, .token .comma, g, .token .comma, b]
  | legacyAlpha {r g b a : Component} :
    isQuantity r → isQuantity g → isQuantity b → isQuantity a →
    Documented [r, .token .comma, g, .token .comma, b, .token .comma, a]

/-! ## What is checked -/

/-- The component values that do not only separate. -/
def arguments (contents : List Component) : List Component :=
  contents.filter fun value => !isSeparator value

/-- There are three or four arguments, all of them numbers or percentages. -/
def AreQuantities (contents : List Component) : Prop :=
  ((arguments contents).length = 3 ∨ (arguments contents).length = 4) ∧
    ∀ value ∈ arguments contents, isQuantity value = true

theorem exists_channel_iff {value : Component} :
    (∃ byte, channel value = .ok byte) ↔ isQuantity value = true := by
  cases value with
  | token t => cases t <;> simp [channel, isQuantity]
  | function name body => simp [channel, isQuantity]
  | block bracket body => simp [channel, isQuantity]

theorem exists_alphaArgument_iff {value : Component} :
    (∃ alpha, alphaArgument value = .ok alpha) ↔ isQuantity value = true := by
  cases value with
  | token t => cases t <;> simp [alphaArgument, isQuantity]
  | function name body => simp [alphaArgument, isQuantity]
  | block bracket body => simp [alphaArgument, isQuantity]

theorem exists_bind_eq_ok_iff {α β : Type} {x : Except Error α}
    {f : α → Except Error β} :
    (∃ b, (x >>= f) = .ok b) ↔ ∃ a, x = .ok a ∧ ∃ b, f a = .ok b := by
  cases x with
  | error e => simp [bind, Except.bind]
  | ok a => simp [bind, Except.bind]

theorem exists_map_eq_ok_iff {α β : Type} {x : Except Error α} {f : α → β} :
    (∃ b, f <$> x = .ok b) ↔ ∃ a, x = .ok a := by
  cases x with
  | error e => simp [Functor.map, Except.map]
  | ok a => simp [Functor.map, Except.map]

/-- **Any three or four numbers and percentages make a colour**, and nothing
else does. -/
theorem exists_ofArguments_iff {contents : List Component} :
    (∃ color, ofArguments contents = .ok color) ↔ AreQuantities contents := by
  have hthrow : ∀ count,
      ¬ ∃ color : Color, throw (.argumentCount count) =
        (.ok color : Except Error Color) := by
    rintro count ⟨color, ⟨⟩⟩
  rw [AreQuantities, ofArguments, ← arguments]
  rcases arguments contents with
    _ | ⟨r, _ | ⟨g, _ | ⟨b, _ | ⟨a, _ | ⟨more, rest⟩⟩⟩⟩⟩
  · exact iff_of_false (hthrow _) (by simp)
  · exact iff_of_false (hthrow _) (by simp)
  · exact iff_of_false (hthrow _) (by simp)
  · simp [exists_bind_eq_ok_iff, exists_map_eq_ok_iff, exists_channel_iff]
  · simp [exists_bind_eq_ok_iff, exists_map_eq_ok_iff, exists_channel_iff,
      exists_alphaArgument_iff]
  · exact iff_of_false (hthrow _) (by simp)

/-! ## Where separators stand -/

/-- The component value, if it only separates. -/
def separator? (value : Component) : Option Component :=
  if isSeparator value then some value else none

theorem separator?_eq_none_iff {value : Component} :
    separator? value = none ↔ isSeparator value = false := by
  simp [separator?]

theorem separator?_eq_some_iff {value separator : Component} :
    separator? value = some separator ↔
      value = separator ∧ isSeparator value = true := by
  simp [separator?, and_comm]

/-- Commas and slashes stand as documented: none at all, one slash before a
fourth argument, or one comma between any two. -/
def WellSeparated (values : List Component) : Prop :=
  let slash := Component.token (.delim '/')
  let comma := Component.token .comma
  values.map separator? = [none, none, none] ∨
  values.map separator? = [none, none, none, some slash, none] ∨
  values.map separator? = [none, some comma, none, some comma, none] ∨
  values.map separator? =
    [none, some comma, none, some comma, none, some comma, none]

theorem isSeparator_of_isQuantity {value : Component}
    (h : isQuantity value = true) : isSeparator value = false := by
  cases value with
  | token t => cases t <;> first | rfl | cases h
  | function name body => rfl
  | block bracket body => rfl

/-- **The documented contents are the accepted ones whose separators stand as
documented.** -/
theorem documented_iff {values : List Component} :
    Documented values ↔ AreQuantities values ∧ WellSeparated values := by
  constructor
  · intro h
    have hslash : isSeparator (.token (.delim '/')) = true := rfl
    have hcomma : isSeparator (.token .comma) = true := rfl
    cases h with
    | spaced hr hg hb =>
      simp [AreQuantities, arguments, WellSeparated, separator?, hr, hg, hb,
        isSeparator_of_isQuantity]
    | spacedAlpha hr hg hb ha =>
      simp [AreQuantities, arguments, WellSeparated, separator?, hr, hg, hb,
        ha, isSeparator_of_isQuantity, hslash]
    | legacy hr hg hb =>
      simp [AreQuantities, arguments, WellSeparated, separator?, hr, hg, hb,
        isSeparator_of_isQuantity, hcomma]
    | legacyAlpha hr hg hb ha =>
      simp [AreQuantities, arguments, WellSeparated, separator?, hr, hg, hb,
        ha, isSeparator_of_isQuantity, hcomma]
  · rintro ⟨⟨-, hquantities⟩, hseparated⟩
    have hquantity : ∀ v ∈ values, isSeparator v = false →
        isQuantity v = true := fun v hv hsolid =>
      hquantities v (List.mem_filter.mpr ⟨hv, by simp [hsolid]⟩)
    simp only [WellSeparated, List.map_eq_cons_iff, List.map_eq_nil_iff,
      separator?_eq_none_iff, separator?_eq_some_iff] at hseparated
    rcases hseparated with
      ⟨r, _, rfl, hr, g, _, rfl, hg, b, _, rfl, hb, rfl⟩ |
      ⟨r, _, rfl, hr, g, _, rfl, hg, b, _, rfl, hb, _, _, rfl, ⟨rfl, -⟩,
        a, _, rfl, ha, rfl⟩ |
      ⟨r, _, rfl, hr, _, _, rfl, ⟨rfl, -⟩, g, _, rfl, hg, _, _, rfl,
        ⟨rfl, -⟩, b, _, rfl, hb, rfl⟩ |
      ⟨r, _, rfl, hr, _, _, rfl, ⟨rfl, -⟩, g, _, rfl, hg, _, _, rfl,
        ⟨rfl, -⟩, b, _, rfl, hb, _, _, rfl, ⟨rfl, -⟩, a, _, rfl, ha, rfl⟩
    · exact .spaced (hquantity r (by simp) hr) (hquantity g (by simp) hg)
        (hquantity b (by simp) hb)
    · exact .spacedAlpha (hquantity r (by simp) hr) (hquantity g (by simp) hg)
        (hquantity b (by simp) hb) (hquantity a (by simp) ha)
    · exact .legacy (hquantity r (by simp) hr) (hquantity g (by simp) hg)
        (hquantity b (by simp) hb)
    · exact .legacyAlpha (hquantity r (by simp) hr) (hquantity g (by simp) hg)
        (hquantity b (by simp) hb) (hquantity a (by simp) ha)

theorem arguments_solid (contents : List Component) :
    arguments (solid contents) = arguments contents := by
  rw [arguments, solid, List.filter_filter, arguments]
  congr 1
  funext value
  cases value with
  | token t => cases t <;> simp [isSeparator, Component.isWhitespace]
  | function name body => simp [isSeparator, Component.isWhitespace]
  | block bracket body => simp [isSeparator, Component.isWhitespace]

/-! ## The function -/

/-- `rgb()` is known in any case, also as `rgba()`. -/
theorem parse_rgb {name : String}
    (h : Text.lowerAscii name = "rgb" ∨ Text.lowerAscii name = "rgba")
    (contents : List Component) :
    parse (.function name contents) = ofArguments contents := by
  simp [parse, h]

/-- **The contents of `rgb()` are accepted** exactly if they are three or four
numbers or percentages with any separators among them; so what is documented
is accepted, and what is accepted is documented where commas and slashes stand
as they should, whitespace aside. -/
theorem parse_rgb_iff {name : String}
    (h : Text.lowerAscii name = "rgb" ∨ Text.lowerAscii name = "rgba")
    (contents : List Component) :
    ((∃ color, parse (.function name contents) = .ok color) ↔
      AreQuantities contents) ∧
    (Documented (solid contents) ↔
      (∃ color, parse (.function name contents) = .ok color) ∧
        WellSeparated (solid contents)) := by
  have haccepted : (∃ color, parse (.function name contents) = .ok color) ↔
      AreQuantities contents := by
    rw [parse_rgb h, exists_ofArguments_iff]
  refine ⟨haccepted, ?_⟩
  rw [documented_iff, haccepted, AreQuantities, AreQuantities,
    arguments_solid]

/-- The form with spaces, with a percentage for its alpha. -/
theorem parse_rgb_iff_half :
    ∃ contents,
      Component.parseValue "RGB(1 2 3 / 50%)" =
        .ok [.function "RGB" contents] ∧
      Documented (solid contents) ∧
      ∃ color, parse (.function "RGB" contents) = .ok color := by
  let gap : Component := .token .whitespace
  let number (digits : String) : Component :=
    .token (.number (numberValue digits.toList))
  let half : Component := .token (.percentage (numberValue "50".toList))
  let contents : List Component :=
    [number "1", gap, number "2", gap, number "3", gap, .token (.delim '/'),
      gap, half]
  have hvalue : Component.parseValue "RGB(1 2 3 / 50%)" =
      .ok [.function "RGB" contents] := by
    with_unfolding_all rfl
  have hdocumented : Documented (solid contents) := .spacedAlpha rfl rfl rfl rfl
  have hname : Text.lowerAscii "RGB" = "rgb" ∨
      Text.lowerAscii "RGB" = "rgba" := by decide
  exact ⟨contents, hvalue, hdocumented,
    ((parse_rgb_iff hname contents).2.mp hdocumented).1⟩

/-- One comma too many is not documented, and is accepted. -/
theorem parse_rgb_doubleComma :
    ∃ contents,
      Component.parseValue "rgb(1,,2,3)" = .ok [.function "rgb" contents] ∧
      ¬ Documented (solid contents) ∧
      ∃ color, parse (.function "rgb" contents) = .ok color := by
  let comma : Component := .token .comma
  let number (digits : String) : Component :=
    .token (.number (numberValue digits.toList))
  let contents : List Component :=
    [number "1", comma, comma, number "2", comma, number "3"]
  have hvalue : Component.parseValue "rgb(1,,2,3)" =
      .ok [.function "rgb" contents] := by
    with_unfolding_all rfl
  have hundocumented : ¬ Documented (solid contents) := by
    -- No documented form has six component values.
    rintro ⟨⟩
  have hquantities : AreQuantities contents := ⟨.inl rfl, by decide⟩
  refine ⟨contents, hvalue, hundocumented, ?_⟩
  rw [parse_rgb (.inl (by decide)), exists_ofArguments_iff]
  exact hquantities

end StyleProbe.Css.Color
