import StyleProbe.Proofs.Css.Color.Arguments
import StyleProbe.Proofs.Css.Color.Case
import StyleProbe.Proofs.Css.Token.Gaps

/-!
# Colours that are read again

A colour is written as `rgb()` or `rgba()` with its channels and, if it is
translucent, its opacity, all of them numbers. These numbers are the tokens
that their texts are read as, a channel is a whole number from 0 to 255 and
is not rounded again, and neither is an opacity. An opacity that is no number
is written as a name, and a name is none.

Main statement: `parse_text`.
-/

namespace StyleProbe.Css

/-! ## The component value of a colour -/

namespace Rgba

/-- The token that the text of an opacity is read as. -/
def opacityToken : Binary32 → Token
  | .nan => .ident "NaN"
  | x => .number x

/-- The opacity is left out. -/
def isOpaque (c : Rgba) : Bool := (Binary32.ofNat 1).le c.alpha

/-- The name of the function that a colour is written as. -/
def functionName (c : Rgba) : String := if c.isOpaque then "rgb" else "rgba"

/-- The tokens of the opacity and the comma in front of it. -/
def opacityTokens (c : Rgba) : List Token :=
  if c.isOpaque then [] else [.comma, .whitespace, opacityToken c.alpha]

/-- The tokens of the arguments that a colour is written with. -/
def argumentTokens (c : Rgba) : List Token :=
  .number (.ofNat c.red.val) :: .comma :: .whitespace ::
    .number (.ofNat c.green.val) :: .comma :: .whitespace ::
      .number (.ofNat c.blue.val) :: c.opacityTokens

/-- The component value that the text of a colour is read as. -/
def component (c : Rgba) : Component :=
  .function c.functionName (c.argumentTokens.map Component.token)

theorem flatten_component (c : Rgba) :
    c.component.flatten =
      .function c.functionName :: (c.argumentTokens ++ [.closing .round]) := by
  rw [component, Component.flatten, Component.flattenAll_map_token]

theorem text_opacityToken (x : Binary32) : (opacityToken x).text = x.text := by
  cases x <;> rfl

theorem text_channel (byte : Fin 256) :
    (Binary32.ofNat byte.val).text = toString byte.val :=
  Binary32.text_ofNat (Nat.lt_trans byte.isLt (by decide))

/-- A colour is written as the tokens of its component value. -/
theorem texts_component (c : Rgba) :
    texts c.component.flatten = c.text.toList := by
  have hname : ∀ name, (Token.function name).text = name ++ "(" := fun _ => rfl
  have hnumber : ∀ x, (Token.number x).text = x.text := fun _ => rfl
  have hcomma : Token.comma.text = "," := rfl
  have hspace : Token.whitespace.text = " " := rfl
  have hend : (Token.closing .round).text = ")" := rfl
  rw [flatten_component, argumentTokens, functionName, opacityTokens, isOpaque,
    Rgba.text]
  split
  · simp [texts_cons, texts_nil, hname, hnumber, hcomma, hspace, hend,
      text_channel]
  · simp [texts_cons, texts_nil, hname, hnumber, hcomma, hspace, hend,
      text_channel, text_opacityToken]

/-! ## Reading its text -/

theorem isFinite_channel (byte : Fin 256) :
    (Binary32.ofNat byte.val).isFinite = true := by
  obtain ⟨k, hnumber, -⟩ := Binary32.exists_ofNat (Binary32.byte_le byte)
  rw [hnumber]
  rfl

theorem legible_number {x : Binary32} (hx : x.isFinite = true) {t : Token}
    (ht : t = .comma ∨ t = .closing .round) (ts : List Token) :
    (Token.number x).legible (texts (t :: ts)) = true := by
  rw [Token.legible_number_iff]
  rcases ht with rfl | rfl
  · exact ⟨hx, rfl, rfl, by simp [texts_cons, Token.text]⟩
  · exact ⟨hx, rfl, rfl, by
      simp [texts_cons, Token.text, Bracket.closingText]⟩

section Text

variable {c : Rgba} (h : ∀ negative, c.alpha ≠ .infinity negative)

include h

theorem legible_opacityToken :
    (opacityToken c.alpha).legible (texts [.closing .round]) = true := by
  cases halpha : c.alpha with
  | finite negative k => exact legible_number rfl (.inr rfl) []
  | infinity negative => exact absurd halpha (h negative)
  | nan => decide

theorem legible_component : legible c.component.flatten = true := by
  have hname : isName "rgb" = true ∧ isName "rgba" = true := by decide
  have hfunction : ∀ name after,
      (Token.function name).legible after = isName name := fun _ _ => rfl
  have hcomma : ∀ after, Token.comma.legible after = true := fun _ => rfl
  have hspace : ∀ after, Token.whitespace.legible after = true := fun _ => rfl
  have hend : ∀ after, (Token.closing .round).legible after = true :=
    fun _ => rfl
  have hbefore : ∀ byte : Fin 256, ∀ ts,
      (Token.number (.ofNat byte.val)).legible (texts (.comma :: ts)) = true :=
    fun byte => legible_number (isFinite_channel byte) (.inl rfl)
  have hlast : ∀ byte : Fin 256, ∀ ts,
      (Token.number (.ofNat byte.val)).legible
        (texts (.closing .round :: ts)) = true :=
    fun byte => legible_number (isFinite_channel byte) (.inr rfl)
  have halpha := legible_opacityToken h
  rw [flatten_component, argumentTokens, functionName, opacityTokens]
  split
  · simp [legible, hname, hfunction, hcomma, hspace, hend, hbefore, hlast]
  · simp [legible, hname, hfunction, hcomma, hspace, hend, hbefore, halpha]

omit h in
theorem lexed_component : ∀ t ∈ c.component.flatten, t.Lexed := by
  have hname : (Token.function "rgb").Lexed ∧ (Token.function "rgba").Lexed :=
    ⟨rfl, rfl⟩
  have hcomma : Token.comma.Lexed := trivial
  have hspace : Token.whitespace.Lexed := trivial
  have hend : (Token.closing .round).Lexed := trivial
  have hchannel : ∀ byte : Fin 256,
      (Token.number (.ofNat byte.val)).Lexed := fun byte =>
    Binary32.ofNat_ne_nan byte.val
  have halpha : (opacityToken c.alpha).Lexed := by
    cases c.alpha with
    | finite negative k => exact Binary32.noConfusion
    | infinity negative => exact Binary32.noConfusion
    | nan => rfl
  rw [flatten_component, argumentTokens, functionName, opacityTokens]
  split
  · simp [hname, hcomma, hspace, hend, hchannel]
  · simp [hname, hcomma, hspace, hend, hchannel, halpha]

omit h in
theorem collapse_component :
    collapse c.component.flatten = c.component.flatten := by
  have halpha : opacityToken c.alpha ≠ .whitespace := by
    cases c.alpha <;> simp [opacityToken]
  rw [flatten_component, argumentTokens, functionName, opacityTokens]
  split
  · simp [collapse]
  · simp [collapse, halpha]

omit h in
theorem wellFormed_component : c.component.WellFormed := by
  have hopacity : (opacityToken c.alpha).isPlain = true := by
    cases c.alpha <;> rfl
  have hnumber : ∀ x, (Token.number x).isPlain = true := fun _ => rfl
  have hcomma : Token.comma.isPlain = true := rfl
  have hspace : Token.whitespace.isPlain = true := rfl
  have hplain : ∀ t ∈ c.argumentTokens, t.isPlain = true := by
    rw [argumentTokens, opacityTokens]
    split
    · simp [hnumber, hcomma, hspace]
    · simp [hnumber, hcomma, hspace, hopacity]
  apply Component.wellFormedAll_iff.mpr
  intro value hvalue
  obtain ⟨t, ht, rfl⟩ := List.mem_map.mp hvalue
  exact hplain t ht

/-- **A colour is written as one component value**, which its text is read
as. -/
theorem parseValue_text : Component.parseValue c.text = .ok [c.component] := by
  have hone : Component.flattenAll [c.component] = c.component.flatten := by
    rw [Component.flattenAll, Component.flattenAll, List.append_nil]
  have htokens : tokenize c.text =
      .ok (Component.flattenAll [c.component]) := by
    rw [tokenize, ← texts_component,
      tokenizeChars_texts lexed_component (legible_component h),
      collapse_component, hone]
  exact Component.parseValue_eq_ok_iff.mpr
    ⟨[c.component], ⟨wellFormed_component, trivial⟩, htokens, rfl⟩

end Text

end Rgba

/-! ## Reading the colour -/

namespace Color

open Component (flatten)

theorem channel_ofNat (byte : Fin 256) :
    channel (.token (.number (.ofNat byte.val))) = .ok byte := by
  have hbyte := Binary32.byte_le byte
  have hlow : (Binary32.ofNat byte.val).lt .zero = false := by
    have hzero : Binary32.zero = .ofNat 0 := by decide
    rw [hzero, Bool.eq_false_iff, Ne,
      Binary32.lt_ofNat_iff hbyte (Nat.zero_le _)]
    exact Nat.not_lt_zero _
  have hhigh : (Binary32.ofNat 255).lt (.ofNat byte.val) = false := by
    rw [Bool.eq_false_iff, Ne, Binary32.lt_ofNat_iff (by decide) hbyte]
    omega
  rw [channel, Binary32.round_ofNat hbyte, Binary32.clamp_of_not_lt hlow hhigh,
    Binary32.toByte_ofNat]

theorem parse_component (c : Rgba) :
    parse c.component =
      ofArguments (c.argumentTokens.map Component.token) := by
  apply parse_rgb
  rw [Rgba.functionName]
  split
  · exact .inl (by decide)
  · exact .inr (by decide)

theorem parse_component_full {c : Rgba} (h : c.isOpaque = true) :
    parse c.component = .ok (rgba { c with alpha := .ofNat 1 }) := by
  have harguments : (c.argumentTokens.map Component.token).filter
      (fun value => !isSeparator value) =
        [.token (.number (.ofNat c.red.val)),
          .token (.number (.ofNat c.green.val)),
          .token (.number (.ofNat c.blue.val))] := by
    rw [Rgba.argumentTokens, Rgba.opacityTokens, h]
    rfl
  rw [parse_component, ofArguments, harguments]
  dsimp only
  rw [channel_ofNat, channel_ofNat, channel_ofNat]
  rfl

theorem parse_component_translucent {c : Rgba} (h : c.isOpaque = false) :
    parse c.component =
      (alphaArgument (.token (Rgba.opacityToken c.alpha))).map fun alpha =>
        rgba { c with alpha } := by
  have harguments : (c.argumentTokens.map Component.token).filter
      (fun value => !isSeparator value) =
        [.token (.number (.ofNat c.red.val)),
          .token (.number (.ofNat c.green.val)),
          .token (.number (.ofNat c.blue.val)),
          .token (Rgba.opacityToken c.alpha)] := by
    rw [Rgba.argumentTokens, Rgba.opacityTokens, h]
    cases c.alpha <;> rfl
  rw [parse_component, ofArguments, harguments]
  dsimp only
  rw [channel_ofNat, channel_ofNat, channel_ofNat]
  rfl

/-- The component value of a colour whose opacity stays is read as the
colour. -/
theorem parse_component_of_settled {c : Rgba} (h : Settled c.alpha) :
    parse c.component = .ok (rgba c) := by
  cases hfull : c.isOpaque with
  | true =>
    have hone : c.alpha = .ofNat 1 := h.inUnit.eq_one hfull
    rw [parse_component_full hfull, ← hone]
  | false =>
    have hnumber : Rgba.opacityToken c.alpha = .number c.alpha := by
      obtain ⟨negative, k, hfinite, -⟩ := h.inUnit.exists_finite
      rw [hfinite]
      rfl
    rw [parse_component_translucent hfull, hnumber, h.alphaArgument]
    rfl

/-- An opacity that is no number is written as a name, which is no
opacity. -/
theorem parse_component_of_nan {c : Rgba} (h : c.alpha = .nan) :
    parse c.component = .error (.invalidAlpha "NaN") := by
  have hfull : c.isOpaque = false := by
    rw [Rgba.isOpaque, h]
    simp [Binary32.le, Binary32.place?]
  rw [parse_component_translucent hfull, h]
  rfl

/-- The text of a colour is read as one component value, which is the
colour. -/
def ReadsBack (color : Color) : Prop :=
  ∃ again, Component.parseValue color.text = .ok [again] ∧
    parse again = .ok color

theorem readsBack_currentColor : ReadsBack currentColor := by
  refine ⟨.token (.ident "currentcolor"), ?_, rfl⟩
  with_unfolding_all rfl

/-- A colour reads back if its component value is read as the colour. -/
theorem readsBack_rgba_iff {c : Rgba}
    (h : ∀ negative, c.alpha ≠ .infinity negative) :
    ReadsBack (rgba c) ↔ parse c.component = .ok (rgba c) := by
  have hvalue : Component.parseValue (rgba c).text = .ok [c.component] :=
    Rgba.parseValue_text h
  constructor
  · rintro ⟨again, htext, hagain⟩
    rw [hvalue] at htext
    cases htext
    exact hagain
  · intro hparse
    exact ⟨_, hvalue, hparse⟩

/-- **Colours read back as themselves** exactly if their opacity is a number,
and it is one if the numbers are that the colour was read from. -/
theorem parse_text {value : Component} {color : Color}
    (h : parse value = .ok color) :
    (NumbersDefined value → ReadsBack color) ∧
      (ReadsBack color ↔ ∀ c, color = rgba c → c.alpha ≠ .nan) := by
  have hiff : ReadsBack color ↔ ∀ c, color = rgba c → c.alpha ≠ .nan := by
    cases color with
    | currentColor => exact iff_of_true readsBack_currentColor (by simp)
    | rgba c =>
      by_cases hnan : c.alpha = .nan
      · rw [readsBack_rgba_iff (by simp [hnan]), parse_component_of_nan hnan]
        simp [hnan]
      · have hsettled := settled_of_parse h hnan
        obtain ⟨negative, k, hfinite, -⟩ := hsettled.inUnit.exists_finite
        rw [readsBack_rgba_iff (by simp [hfinite]),
          parse_component_of_settled hsettled]
        simp [hnan]
  refine ⟨fun hdefined => hiff.mpr ?_, hiff⟩
  rintro c rfl
  exact alpha_ne_nan hdefined h

/-- Channels that are out of range and an opacity that has to be rounded. -/
theorem parse_text_clamped :
    ∃ value color,
      Component.parseValue "rgb(300 -5 50% / 33.33%)" = .ok [value] ∧
        parse value = .ok color ∧ color.text = "rgba(255, 0, 128, 0.333)" ∧
        ReadsBack color := by
  let gap : Component := .token .whitespace
  let number (digits : String) : Component :=
    .token (.number (numberValue digits.toList))
  let percentage (digits : String) : Component :=
    .token (.percentage (numberValue digits.toList))
  let value : Component := .function "rgb"
    [number "300", gap, number "-5", gap, percentage "50", gap,
      .token (.delim '/'), gap, percentage "33.33"]
  let color : Color := rgba ⟨255, 0, 128, .ofDecimal ⟨false, 333, -3⟩⟩
  have hvalue : Component.parseValue "rgb(300 -5 50% / 33.33%)" =
      .ok [value] := by
    with_unfolding_all rfl
  have hcolor : parse value = .ok color :=
    eq_ok_of_toOption (by decide +kernel)
  have hlexed : ∀ t ∈ flatten value, t.Lexed := fun t ht =>
    Component.lexed_of_mem_parseValue hvalue t
      (Component.mem_flattenAll.mpr ⟨value, List.mem_singleton_self value, ht⟩)
  exact ⟨value, color, hvalue, hcolor, by decide +kernel,
    (parse_text hcolor).1 (numbersDefined_of_lexed hlexed)⟩

/-- A component value that no text gives: its last number is none, which is
taken for an opacity, and the text of the colour is refused. -/
theorem parse_text_nan :
    parse (.function "rgb" [.token (.number (.ofNat 1)),
        .token (.number (.ofNat 2)), .token (.number (.ofNat 3)),
        .token (.number .nan)]) = .ok (rgba ⟨1, 2, 3, .nan⟩) ∧
      (rgba ⟨1, 2, 3, .nan⟩).text = "rgba(1, 2, 3, NaN)" ∧
      ¬ ReadsBack (rgba ⟨1, 2, 3, .nan⟩) := by
  refine ⟨eq_ok_of_toOption (by decide +kernel), by decide +kernel, ?_⟩
  rw [readsBack_rgba_iff (by simp), parse_component_of_nan rfl]
  simp

end Color

end StyleProbe.Css
