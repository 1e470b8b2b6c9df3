import StyleProbe.Proofs.Css.Color.Case
import StyleProbe.Proofs.Profile.PrefixedForms

/-!
# Values and letter case

Asking for a value commutes with lowering: the answer to a value in small
letters is the answer to the value, in small letters. Keywords, units,
functions and colours are recognized in any case; what is kept of a value is
either in small letters already or the text of its component values, which is
lowered with them. The vendor prefixes that are put in front are in small
letters, and a property is looked up by its normal name, which is lowered.

Main statements: `Grammar.accept?_lowered` and `Profile.value_lowerAscii`.
-/

namespace StyleProbe

open Css (Component Color Token)
open Css.Component (flatten flattenAll loweredAll)

/-! ## Accepting -/

/-- A type accepts a component value in any case. -/
theorem ValueType.accept?_lowered (type : ValueType) {value : Component}
    (h : ∀ t ∈ flatten value, t.Lexed) :
    type.accept? value.lowered =
      (type.accept? value).map Text.lowerAscii := by
  have hpercent : Text.lowerAscii "%" = "%" := by decide
  cases type with
  | color =>
    simp only [accept?, Color.parse_lowered]
    cases hcolor : Color.parse value with
    | error e => rfl
    | ok color =>
      exact congrArg some (Color.lowerAscii_text h hcolor).symm
  | any => exact congrArg some (Component.text_lowered value h)
  | length =>
    cases value with
    | token t =>
      have hlexed : t.Lexed := h t (by simp [flatten])
      cases t with
      | dimension n unit =>
        simp only [Component.lowered, Token.lowered, accept?,
          Text.lowerAscii_lowerAscii]
        split
        · rw [Option.map_some, Text.lowerAscii_append,
            Binary32.lowerAscii_text hlexed.1, Text.lowerAscii_lowerAscii]
        · rfl
      | number n =>
        simp only [Component.lowered, Token.lowered, accept?]
        split
        · decide
        · rfl
      | _ => rfl
    | _ => rfl
  | percentage =>
    cases value with
    | token t =>
      have hlexed : t.Lexed := h t (by simp [flatten])
      cases t with
      | percentage n =>
        simp only [Component.lowered, Token.lowered, accept?, Option.map_some,
          Text.lowerAscii_append, Binary32.lowerAscii_text hlexed, hpercent]
      | _ => rfl
    | _ => rfl
  | number =>
    cases value with
    | token t =>
      have hlexed : t.Lexed := h t (by simp [flatten])
      cases t with
      | number n =>
        simp only [Component.lowered, Token.lowered, accept?, Option.map_some,
          Binary32.lowerAscii_text hlexed]
      | _ => rfl
    | _ => rfl

namespace Grammar

variable (g : Grammar)

theorem keyword?_lowered (value : Component) :
    g.keyword? value.lowered = (g.keyword? value).map Text.lowerAscii := by
  cases value with
  | token t =>
    cases t with
    | ident name =>
      simp only [Component.lowered, Token.lowered, keyword?,
        Text.lowerAscii_lowerAscii]
      split
      · rw [Option.map_some, Text.lowerAscii_lowerAscii]
      · rfl
    | _ => rfl
  | _ => rfl

theorem allowsFunction_lowered (value : Component) :
    g.allowsFunction value.lowered = g.allowsFunction value := by
  cases value with
  | function name body =>
    simp only [Component.lowered, allowsFunction, Text.lowerAscii_lowerAscii]
  | _ => rfl

theorem acceptOne?_lowered {value : Component}
    (h : ∀ t ∈ flatten value, t.Lexed) :
    g.acceptOne? value.lowered =
      (g.acceptOne? value).map Text.lowerAscii := by
  unfold acceptOne?
  rw [keyword?_lowered, allowsFunction_lowered]
  cases g.keyword? value with
  | some lower => rfl
  | none =>
    rw [Option.map_none]
    dsimp only
    split
    · rw [Component.text_lowered value h, Option.map_some]
    · rw [List.map_findSome?]
      congr 1
      funext type
      exact type.accept?_lowered h

/-- **A grammar accepts a value in any case**, and keeps of a value in small
letters what it keeps of the value, in small letters. -/
theorem accept?_lowered (value : String) :
    g.accept? (Text.lowerAscii value) =
      (g.accept? value).map Text.lowerAscii := by
  have hlower := Component.parseValue_lowerAscii value
  cases hvalues : Component.parseValue value with
  | error e =>
    rw [hvalues] at hlower
    simp only [accept?, hvalues, hlower]
    rfl
  | ok values =>
    have hlexed := Component.lexed_of_mem_parseValue hvalues
    have htext := Component.serialize_loweredAll hlexed
    rw [hvalues] at hlower
    rw [Component.loweredAll_eq_map] at htext
    refine accept?_of_map hvalues
      (hlower.trans (congrArg _ (Component.loweredAll_eq_map values)))
      Component.isWhitespace_lowered g.allowsFunction_lowered ?_ htext
    intro v hv
    exact g.acceptOne?_lowered fun t ht =>
      hlexed t (Component.mem_flattenAll.mpr ⟨v, hv, ht⟩)

end Grammar

/-! ## The answer on a profile -/

/-- The answer with its value written small. -/
def ValueResolution.lowered : ValueResolution → ValueResolution
  | supported value => supported (Text.lowerAscii value)
  | unsupported => unsupported

theorem ValueResolution.lowered_eq_supported_iff
    {resolution : ValueResolution} {kept : String} :
    resolution.lowered = supported kept ↔
      ∃ value, resolution = supported value ∧ Text.lowerAscii value = kept := by
  cases resolution <;> simp [lowered]

theorem preferredForms_lowerAscii (value : String) :
    preferredForms (Text.lowerAscii value) =
      (preferredForms value).map Text.lowerAscii := by
  have hlead : ∀ vendor : Vendor,
      vendor.hyphenLead ++ Text.lowerAscii value =
        Text.lowerAscii (vendor.hyphenLead ++ value) := by
    intro vendor
    rw [Text.lowerAscii_append, vendor.lowerAscii_hyphenLead]
  rw [preferredForms_eq, preferredForms_eq, List.map_cons, List.map_map]
  exact congrArg _ (List.map_congr_left fun vendor _ => hlead vendor)

theorem Profile.accept?_lowerAscii (profile : Profile)
    (property value : String) :
    profile.accept? property (Text.lowerAscii value) =
      (profile.accept? property value).map Text.lowerAscii := by
  unfold accept?
  cases profile.table.grammar? property with
  | none => rfl
  | some grammar => exact grammar.accept?_lowered value

theorem Profile.value_lowered (profile : Profile) (strategy : Strategy)
    {key key' : PropertyName}
    (hkey : Text.lowerAscii key.text = Text.lowerAscii key'.text)
    (value : String) :
    (Resolver.value ⟨profile.surface, strategy⟩ key
        (Text.lowerAscii value)).value =
      (Resolver.value ⟨profile.surface, strategy⟩ key' value).value.lowered := by
  have hname : normalName key.text = normalName key'.text := by
    rw [normalName, normalName, key.trimmed, key'.trimmed, hkey]
  apply ValueResolution.eq_of_supported_iff
  intro kept
  rw [Profile.value_eq_supported_iff,
    ValueResolution.lowered_eq_supported_iff, hname, preferredForms_lowerAscii,
    List.findSome?_map]
  simp only [Profile.value_eq_supported_iff]
  have hcommutes : profile.accept? (normalName key'.text) ∘ Text.lowerAscii =
      Option.map Text.lowerAscii ∘ profile.accept? (normalName key'.text) :=
    funext (profile.accept?_lowerAscii _)
  rw [hcommutes, ← List.map_findSome?, Option.map_eq_some_iff]

/-- **The case of letters does not matter to a value**: on every profile, the
answer to a value in small letters is the answer to the value in small
letters, whichever way the profile is probed and in whatever case the property
is written; and every grammar keeps of a value in small letters what it keeps
of the value, in small letters. -/
theorem Profile.value_lowerAscii (profile : Profile) (strategy : Strategy)
    {key key' : PropertyName}
    (hkey : Text.lowerAscii key.text = Text.lowerAscii key'.text)
    (value : String) :
    (Resolver.value ⟨profile.surface, strategy⟩ key
          (Text.lowerAscii value)).value =
        (Resolver.value ⟨profile.surface, strategy⟩ key' value).value.lowered ∧
      ∀ keywords functions types,
        (Grammar.ofLists keywords functions types).accept?
            (Text.lowerAscii value) =
          ((Grammar.ofLists keywords functions types).accept? value).map
            Text.lowerAscii :=
  ⟨profile.value_lowered strategy hkey value,
    fun _ _ _ => Grammar.accept?_lowered _ value⟩

/-- A function that is kept as it is written, asked for in capitals and in
small letters. -/
theorem Profile.value_lowerAscii_translate :
    ∃ (profile : Profile) (key key' : PropertyName),
      profile.table.grammar? "transform" =
        some (.ofLists [] ["translate"] []) ∧
      PropertyName.ofText? "transform" = some key ∧
      PropertyName.ofText? "TransForm" = some key' ∧
      Text.lowerAscii key.text = Text.lowerAscii key'.text ∧
      (Resolver.value ⟨profile.surface, .isolated⟩ key'
        "Translate(A)").value = .supported "Translate(A)" ∧
      (Resolver.value ⟨profile.surface, .isolated⟩ key
        (Text.lowerAscii "Translate(A)")).value =
          .supported "translate(a)" := by
  let key : PropertyName := ⟨"transform", by decide, by decide⟩
  let key' : PropertyName := ⟨"TransForm", by decide, by decide⟩
  let grammar : Grammar := .ofLists [] ["translate"] []
  have hvalues : Component.parseValue "Translate(A)" =
      .ok [.function "Translate" [.token (.ident "A")]] := by
    with_unfolding_all rfl
  have hkept : grammar.accept? "Translate(A)" = some "Translate(A)" := by
    have hlower : Text.lowerAscii "Translate" = "translate" := by decide
    have hlower' : Text.lowerAscii "translate" = "translate" := by decide
    simp [Grammar.accept?, hvalues, Component.isWhitespace,
      Grammar.acceptOne?, Grammar.keyword?, Grammar.allowsFunction, grammar,
      Grammar.ofLists, hlower, hlower']
    rfl
  have hkey : Text.lowerAscii key.text = Text.lowerAscii key'.text := by
    decide
  have hname : normalName key'.text = "transform" := by decide
  obtain ⟨profile, hgrammar⟩ :=
    exists_single "transform" grammar (by decide) (by decide) rfl
  have hanswer : (Resolver.value ⟨profile.surface, .isolated⟩ key'
      "Translate(A)").value = .supported "Translate(A)" := by
    rw [← hname] at hgrammar
    simp [value_eq_findSome? _ _ hgrammar, preferredForms, hkept]
  refine ⟨profile, key, key', hgrammar, key.ofText?_text, key'.ofText?_text,
    hkey, hanswer, ?_⟩
  rw [(value_lowerAscii profile .isolated hkey _).1, hanswer]
  decide

end StyleProbe
