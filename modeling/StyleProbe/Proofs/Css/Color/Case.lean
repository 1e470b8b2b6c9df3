import StyleProbe.Proofs.Css.Color.Opacity
import StyleProbe.Proofs.Css.Component.Case

/-!
# Colours and letter case

A colour is recognized in any case: names, hexadecimal digits and the name of
`rgb()` are compared without regard to it, and numbers have none. A colour is
written without capitals, since its opacity is a number.

Main statements: `parse_lowered` and `lowerAscii_text`.
-/

namespace StyleProbe.Css.Color

open Component (loweredAll flatten flattenAll)

/-! ## Opacities -/

/-- The numbers and percentages of the component value are numbers. -/
def NumbersDefined (value : Component) : Prop :=
  ∀ x, .number x ∈ flatten value ∨ .percentage x ∈ flatten value → x ≠ .nan

theorem numbersDefined_of_lexed {value : Component}
    (h : ∀ t ∈ flatten value, t.Lexed) : NumbersDefined value := by
  rintro x (hx | hx)
  · exact h _ hx
  · exact h _ hx

theorem roundAlpha_ne_nan {alpha : Binary32} (h : alpha ≠ .nan) :
    roundAlpha alpha ≠ .nan := by
  obtain ⟨k, hthousand, -, hk⟩ :=
    Binary32.exists_ofNat_pos (n := 1000) (by decide) (by decide)
  rw [roundAlpha, hthousand]
  exact Binary32.div_ne_nan
    (Binary32.round_ne_nan (Binary32.mul_ne_nan h hk)) hk

theorem alphaArgument_ne_nan {argument : Component} {alpha : Binary32}
    (hdefined : NumbersDefined argument)
    (h : alphaArgument argument = .ok alpha) : alpha ≠ .nan := by
  obtain ⟨k, hhundred, -, hk⟩ :=
    Binary32.exists_ofNat_pos (n := 100) (by decide) (by decide)
  have hbounds : ∀ x : Binary32, x ≠ .nan →
      roundAlpha (x.clamp .zero (.ofNat 1)) ≠ .nan := fun x hx =>
    roundAlpha_ne_nan (Binary32.clamp_ne_nan hx (by decide)
      (Binary32.ofNat_ne_nan 1))
  unfold alphaArgument at h
  split at h
  · rename_i n
    have hn : n ≠ .nan := hdefined n (.inl (by simp [flatten]))
    cases h
    exact hbounds n hn
  · rename_i p
    have hp : p ≠ .nan := hdefined p (.inr (by simp [flatten]))
    cases h
    rw [hhundred]
    exact hbounds _ (Binary32.div_ne_nan hp hk)
  · cases h

/-! ## Reading -/

theorem toOption_bind {α β : Type} (x : Except Error α)
    (f : α → Except Error β) :
    (x >>= f).toOption = x.toOption.bind fun a => (f a).toOption := by
  cases x <;> rfl

theorem eq_ok_of_toOption {α : Type} {x : Except Error α} {a : α}
    (h : x.toOption = some a) : x = .ok a := by
  cases x with
  | error e => cases h
  | ok b =>
    cases h
    rfl

theorem isSeparator_lowered (value : Component) :
    isSeparator value.lowered = isSeparator value := by
  have hslash : ∀ c : Char, (c.toLower == '/') = (c == '/') := fun c => by
    simp [Bool.beq_eq_decide_eq,
      Text.toLower_eq_iff (show '/'.isAlpha = false from rfl)]
  cases value with
  | token t =>
    cases t with
    | delim char => exact hslash char
    | _ => rfl
  | _ => rfl

theorem channel_lowered (argument : Component) :
    (channel argument.lowered).toOption = (channel argument).toOption := by
  cases argument with
  | token t => cases t <;> rfl
  | _ => rfl

theorem alphaArgument_lowered (argument : Component) :
    (alphaArgument argument.lowered).toOption =
      (alphaArgument argument).toOption := by
  cases argument with
  | token t => cases t <;> rfl
  | _ => rfl

theorem ofArguments_loweredAll (contents : List Component) :
    (ofArguments (loweredAll contents)).toOption =
      (ofArguments contents).toOption := by
  have hfilter :
      (loweredAll contents).filter (fun value => !isSeparator value) =
        (contents.filter fun value => !isSeparator value).map
          Component.lowered := by
    rw [Component.loweredAll_eq_map, List.filter_map]
    simp [Function.comp_def, isSeparator_lowered]
  unfold ofArguments
  rw [hfilter]
  rcases contents.filter fun value => !isSeparator value with
    _ | ⟨r, _ | ⟨g, _ | ⟨b, _ | ⟨a, _ | ⟨more, rest⟩⟩⟩⟩⟩ <;>
    simp only [List.map_cons, List.map_nil, toOption_bind, channel_lowered,
      alphaArgument_lowered] <;> rfl

theorem isHexDigit_toLower (c : Char) :
    Text.isHexDigit c.toLower = Text.isHexDigit c :=
  Text.apply_toLower Text.isHexDigit (by decide) c

theorem hexValue_toLower (c : Char) :
    Text.hexValue c.toLower = Text.hexValue c :=
  Text.apply_toLower Text.hexValue (by decide) c

theorem hexByte_map_toLower (digits : List Char) :
    hexByte (digits.map Char.toLower) = hexByte digits := by
  simp [hexByte, Text.hexNumber, List.foldl_map, hexValue_toLower]

theorem ofHex_lowerAscii (digits : String) :
    (ofHex (Text.lowerAscii digits)).toOption = (ofHex digits).toOption := by
  have hall : (digits.toList.map Char.toLower).all Text.isHexDigit =
      digits.toList.all Text.isHexDigit := by
    rw [List.all_map]
    exact congrArg digits.toList.all (funext isHexDigit_toLower)
  have hpair : ∀ c d, hexByte [c.toLower, d.toLower] = hexByte [c, d] :=
    fun c d => hexByte_map_toLower [c, d]
  unfold ofHex
  rw [Text.toList_lowerAscii, hall]
  split
  · rcases digits.toList with _ | ⟨a, _ | ⟨b, _ | ⟨c, _ | ⟨d, _ | ⟨e, _ | ⟨f, _ |
      ⟨g, _ | ⟨h, _ | ⟨i, rest⟩⟩⟩⟩⟩⟩⟩⟩⟩ <;>
      simp only [List.map_cons, List.map_nil, hpair] <;> rfl
  · rfl

theorem ofName_lowerAscii (name : String) :
    (ofName (Text.lowerAscii name)).toOption = (ofName name).toOption := by
  unfold ofName
  dsimp only
  rw [Text.lowerAscii_lowerAscii]
  split
  · rfl
  split
  · rfl
  · split <;> rfl

/-- **A colour is recognized in any case.** -/
theorem parse_lowered (value : Component) :
    (parse value.lowered).toOption = (parse value).toOption := by
  cases value with
  | token t =>
    cases t with
    | ident name => exact ofName_lowerAscii name
    | hash digits => exact ofHex_lowerAscii digits
    | _ => rfl
  | function name contents =>
    simp only [Component.lowered, parse, Text.lowerAscii_lowerAscii]
    split
    · exact ofArguments_loweredAll contents
    · rfl
  | block bracket contents => rfl

/-! ## Writing -/

/-- The opacity of a colour is a number if those it is read from are. -/
theorem alpha_ne_nan {value : Component} {color : Rgba}
    (hdefined : NumbersDefined value)
    (h : parse value = .ok (rgba color)) : color.alpha ≠ .nan := by
  rcases alpha_of_parse h with
    (hzero | hone | ⟨byte, hbyte⟩) | ⟨argument, hmem, halpha⟩
  · rw [hzero]
    decide
  · rw [hone]
    exact Binary32.ofNat_ne_nan 1
  · rw [hbyte]
    exact (settled_byteAlpha byte).inUnit.ne_nan
  · refine alphaArgument_ne_nan (fun x hx => hdefined x ?_) halpha
    exact hx.imp (hmem _) (hmem _)

theorem lowerAscii_toString (n : Nat) :
    Text.lowerAscii (toString n) = toString n := by
  rw [Text.lowerAscii, Nat.toString_eq_ofList_toDigits, String.toList_ofList,
    Text.map_toLower_of_isDigit fun c hc =>
      Nat.isDigit_of_mem_toDigits (by decide) (by decide) hc]

theorem lowerAscii_rgba_text {color : Rgba} (h : color.alpha ≠ .nan) :
    Text.lowerAscii color.text = color.text := by
  have hcomma : Text.lowerAscii ", " = ", " := by decide
  have hend : Text.lowerAscii ")" = ")" := by decide
  have hrgb : Text.lowerAscii "rgb(" = "rgb(" := by decide
  have hrgba : Text.lowerAscii "rgba(" = "rgba(" := by decide
  unfold Rgba.text
  dsimp only
  split
  · simp only [Text.lowerAscii_append, lowerAscii_toString, hcomma, hend, hrgb]
  · simp only [Text.lowerAscii_append, lowerAscii_toString, hcomma, hend,
      hrgba, Binary32.lowerAscii_text h]

/-- **A colour that was read is written without capitals.** -/
theorem lowerAscii_text {value : Component} {color : Color}
    (hlexed : ∀ t ∈ flatten value, t.Lexed)
    (h : parse value = .ok color) :
    Text.lowerAscii color.text = color.text := by
  cases color with
  | currentColor => decide
  | rgba color =>
    exact lowerAscii_rgba_text (alpha_ne_nan (numbersDefined_of_lexed hlexed) h)

end StyleProbe.Css.Color
