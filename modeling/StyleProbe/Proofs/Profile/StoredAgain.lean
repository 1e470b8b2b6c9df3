import StyleProbe.Proofs.Css.Color.Reread
import StyleProbe.Proofs.Profile.Stored

/-!
# Stored values that are assigned again

What a grammar of colours, lengths, percentages and numbers keeps of a value
is a text of its own, and that text can be assigned again. It is read as one
component value: the same number or percentage, the length with its unit in
small letters, the colour, or the keyword. Whatever the order of the types,
they keep the same text of it.

There is one exception. A number that is past the largest finite one is
written as a name, `inf` or `-inf`, and a name is none of the types. So
what was kept of such a value is rejected.

Main statements: `Grammar.Typed.accept?_kept` (within range),
`Grammar.Typed.accept?_kept_of_overflows` (out of range) and
`Grammar.accept?_kept_iff`.
-/

namespace StyleProbe

theorem Binary32.exists_infinity {x : Binary32} (hnan : x ≠ .nan)
    (h : (!x.isFinite) = true) : ∃ negative, x = .infinity negative := by
  cases x with
  | finite negative k => cases h
  | infinity negative => exact ⟨negative, rfl⟩
  | nan => exact absurd rfl hnan

namespace Css

/-- The token has a number past the largest finite one. -/
def Token.overflows : Token → Bool
  | .number value => !value.isFinite
  | .percentage value => !value.isFinite
  | .dimension value _ => !value.isFinite
  | _ => false

namespace Component

theorem isWhitespace_token {t : Token} (h : t ≠ .whitespace) :
    (token t).isWhitespace = false := by
  cases t <;> first | rfl | exact absurd rfl h

/-- A token that is legible on its own is read back from its text. -/
theorem parseValue_text_token (t : Token) (hlexed : t.Lexed)
    (hplain : t.isPlain = true) (hspace : t ≠ .whitespace)
    (hlegible : t.legible [] = true) :
    parseValue t.text = .ok [.token t] := by
  have htexts : t.text.toList = texts [t] := by
    rw [texts_cons, texts_nil, List.append_nil]
  have hread : legible [t] = true := by
    rw [legible, texts_nil, hlegible]
    rfl
  have hone : collapse [t] = [t] := by
    rw [collapse, if_neg (by simp [hspace])]
    rfl
  refine parseValue_eq_ok_iff.mpr ⟨[.token t], ⟨hplain, trivial⟩, ?_, ?_⟩
  · rw [tokenize, htexts, tokenizeChars_texts (by simpa using hlexed) hread,
      hone]
    rfl
  · simp [trim, trimBy, isWhitespace_token hspace]

end Component

namespace Color

theorem readsBack_of_parse {value : Component} {color : Color}
    (hlexed : ∀ t ∈ value.flatten, t.Lexed) (h : parse value = .ok color) :
    ReadsBack color := by
  cases color with
  | currentColor => exact readsBack_currentColor
  | rgba c =>
    have hsettled := settled_of_parse h
      (alpha_ne_nan (numbersDefined_of_lexed hlexed) h)
    obtain ⟨negative, k, hfinite, -⟩ := hsettled.inUnit.exists_finite
    exact (readsBack_rgba_iff (by simp [hfinite])).mpr
      (parse_component_of_settled hsettled)

/-- A colour is no number, percentage, length or whitespace. -/
theorem accept?_of_parse {value : Component} {color : Color}
    (h : parse value = .ok color) :
    value.isWhitespace = false ∧ ∀ type : ValueType, type ≠ .any →
      type.accept? value = if type = .color then some color.text else none := by
  have hcolor : ValueType.accept? .color value = some color.text := by
    simp [ValueType.accept?, h, Except.toOption]
  have hother : value.isWhitespace = false ∧
      ValueType.accept? .length value = none ∧
      ValueType.accept? .percentage value = none ∧
      ValueType.accept? .number value = none := by
    cases value with
    | token t =>
      cases t with
      | ident name => exact ⟨rfl, rfl, rfl, rfl⟩
      | hash digits => exact ⟨rfl, rfl, rfl, rfl⟩
      | _ => cases h
    | function name body => exact ⟨rfl, rfl, rfl, rfl⟩
    | block bracket body => cases h
  obtain ⟨hsolid, hlength, hpercentage, hnumber⟩ := hother
  refine ⟨hsolid, fun type hany => ?_⟩
  cases type with
  | color => exact hcolor
  | length => exact hlength
  | percentage => exact hpercentage
  | number => exact hnumber
  | any => exact absurd rfl hany

end Color

end Css

open Css (Component Color Token)

namespace Grammar

/-- A text that is read as a single component value is accepted as that. -/
theorem accept?_of_single {g : Grammar} {value : String} {single : Component}
    (h : Component.parseValue value = .ok [single])
    (hsolid : single.isWhitespace = false) :
    g.accept? value = g.acceptOne? single := by
  simp [accept?, h, hsolid]

/-- So the text of a token that is legible on its own is accepted as the
token. -/
theorem accept?_text {g : Grammar} (t : Token) (hlexed : t.Lexed)
    (hplain : t.isPlain = true) (hspace : t ≠ .whitespace)
    (hlegible : t.legible [] = true) :
    g.accept? t.text = g.acceptOne? (.token t) :=
  accept?_of_single
    (Component.parseValue_text_token t hlexed hplain hspace hlegible)
    (Component.isWhitespace_token hspace)

/-- And a name in plain characters is accepted as the name. -/
theorem accept?_name {g : Grammar} {name : String}
    (hstart : Css.startsName name.toList = true)
    (hname : Css.isName name = true) :
    g.accept? name = g.acceptOne? (.token (.ident name)) := by
  have hlexed : (Token.ident name).Lexed := hstart
  have hlegible : (Token.ident name).legible [] = true :=
    Token.legible_ident_iff.mpr ⟨hname, rfl, by simp⟩
  exact accept?_text (.ident name) hlexed rfl (by simp) hlegible

/-- Whether a number in the value is past the largest finite one. -/
def Overflows (value : String) : Prop :=
  ∃ values, Component.parseValue value = .ok values ∧
    ∃ t, .token t ∈ values ∧ t.overflows = true

theorem overflows_iff {value : String} {values : List Component}
    {single : Component} (hvalues : Component.parseValue value = .ok values)
    (hsingle : values.filter (fun v => !v.isWhitespace) = [single]) :
    Overflows value ↔ ∃ t, single = .token t ∧ t.overflows = true := by
  have hmem : ∀ v, v = single ↔ v ∈ values ∧ v.isWhitespace = false := by
    intro v
    rw [← List.mem_singleton, ← hsingle, List.mem_filter,
      Bool.not_eq_true']
  constructor
  · rintro ⟨values', hvalues', t, ht, hover⟩
    rw [hvalues] at hvalues'
    cases hvalues'
    have hspace : t ≠ .whitespace := by
      rintro rfl
      cases hover
    have hsolid := Component.isWhitespace_token hspace
    exact ⟨t, ((hmem _).mpr ⟨ht, hsolid⟩).symm, hover⟩
  · rintro ⟨t, rfl, hover⟩
    exact ⟨values, hvalues, t, ((hmem _).mp rfl).1, hover⟩

/-- The grammar has types alone, and no free values. -/
structure Typed (g : Grammar) : Prop where
  keywords : g.keywords = []
  functions : g.functions = []
  bound : .any ∉ g.types

instance (g : Grammar) : Decidable g.Typed :=
  decidable_of_iff (g.keywords = [] ∧ g.functions = [] ∧ .any ∉ g.types)
    ⟨fun ⟨hk, hf, hb⟩ => ⟨hk, hf, hb⟩,
      fun h => ⟨h.keywords, h.functions, h.bound⟩⟩

section Typed

variable {g : Grammar} (hg : g.Typed)

include hg

theorem Typed.allowsFunction (value : Component) :
    g.allowsFunction value = false := by
  cases value <;> simp [Grammar.allowsFunction, hg.functions]

theorem Typed.keyword?_eq_some_iff {value : Component} {kept : String} :
    g.keyword? value = some kept ↔ ∃ name, value = .token (.ident name) ∧
      Text.lowerAscii name = kept ∧ kept ∈ wideKeywords := by
  unfold keyword?
  split
  · rename_i name
    simp only [hg.keywords, List.contains_nil, Bool.or_false,
      List.contains_iff_mem, Option.ite_none_right_eq_some, Option.some.injEq]
    constructor
    · rintro ⟨hwide, rfl⟩
      exact ⟨name, rfl, rfl, hwide⟩
    · rintro ⟨name', hname, rfl, hwide⟩
      cases hname
      exact ⟨hwide, rfl⟩
  · rename_i hident
    simp only [reduceCtorEq, false_iff]
    rintro ⟨name, rfl, -⟩
    exact hident name rfl

/-- A single component value is accepted as a keyword or by a type. -/
theorem Typed.acceptOne?_eq (value : Component) :
    g.acceptOne? value =
      (g.keyword? value).or (g.types.findSome? (·.accept? value)) := by
  rw [acceptOne?, hg.allowsFunction]
  cases g.keyword? value <;> rfl

theorem Typed.acceptOne?_of_only {type : ValueType} {value : Component}
    {kept : String} (htype : type ∈ g.types)
    (hkeyword : g.keyword? value = none)
    (honly : ∀ other : ValueType, other ≠ .any →
      other.accept? value = if other = type then some kept else none) :
    g.acceptOne? value = some kept := by
  have hsearch : g.types.findSome? (·.accept? value) =
      if type ∈ g.types then some kept else none := by
    refine findSome?_of_only fun other hother => honly other ?_
    rintro rfl
    exact hg.bound hother
  rw [hg.acceptOne?_eq, hkeyword, Option.none_or, hsearch, if_pos htype]

theorem Typed.accept?_eq_some_iff {value kept : String} :
    g.accept? value = some kept ↔
      ∃ values single, Component.parseValue value = .ok values ∧
        values.filter (fun v => !v.isWhitespace) = [single] ∧
        g.acceptOne? single = some kept := by
  unfold accept?
  cases Component.parseValue value with
  | error e => simp
  | ok values =>
    simp only [Except.ok.injEq, exists_and_left, exists_eq_left']
    generalize values.filter (fun v => !v.isWhitespace) = solid
    rcases solid with - | ⟨single, - | ⟨second, rest⟩⟩
    · simp
    · simp
    · simp [hg.bound, hg.allowsFunction]

/-! ### Within range -/

theorem Typed.accept?_wide {kept : String} (h : kept ∈ wideKeywords) :
    g.accept? kept = some kept := by
  have hwide : ∀ name ∈ wideKeywords, Css.startsName name.toList = true ∧
      Css.isName name = true ∧ Text.lowerAscii name = name := by
    decide
  obtain ⟨hstart, hname, hlower⟩ := hwide kept h
  have hkeyword : g.keyword? (.token (.ident kept)) = some kept :=
    hg.keyword?_eq_some_iff.mpr ⟨kept, rfl, hlower, h⟩
  rw [accept?_name hstart hname, hg.acceptOne?_eq, hkeyword, Option.some_or]

theorem Typed.keyword?_of_color {value : Component} {color : Color}
    (h : Color.parse value = .ok color) : g.keyword? value = none := by
  have hwide : ∀ name ∈ wideKeywords, name ≠ "currentcolor" ∧
      name ≠ "transparent" ∧ Color.named.lookup name = none := by
    decide
  cases hkeyword : g.keyword? value with
  | none => rfl
  | some kept =>
    obtain ⟨name, rfl, rfl, hmem⟩ := hg.keyword?_eq_some_iff.mp hkeyword
    obtain ⟨hcurrent, htransparent, hlookup⟩ := hwide _ hmem
    simp [Color.parse, Color.ofName, hcurrent, htransparent, hlookup] at h

theorem Typed.accept?_color {value : Component} {color : Color}
    (hlexed : ∀ t ∈ value.flatten, t.Lexed) (hcolor : .color ∈ g.types)
    (h : Color.parse value = .ok color) :
    g.accept? color.text = some color.text := by
  obtain ⟨again, htext, hagain⟩ := Color.readsBack_of_parse hlexed h
  obtain ⟨hsolid, honly⟩ := Color.accept?_of_parse hagain
  rw [accept?_of_single htext hsolid]
  exact hg.acceptOne?_of_only hcolor (hg.keyword?_of_color hagain) honly

theorem Typed.accept?_length {n : Binary32} {unit : String}
    (hfinite : n.isFinite = true) (hunit : unit ∈ lengthUnits)
    (hlength : .length ∈ g.types) :
    g.accept? (n.text ++ unit) = some (n.text ++ unit) := by
  have hunits : ∀ unit ∈ lengthUnits, Css.startsName unit.toList = true ∧
      Css.isName unit = true ∧
      (Css.takeExponent (unit.toList ++ [])).1 = [] ∧
      Text.lowerAscii unit = unit := by
    decide
  obtain ⟨hstart, hname, hexponent, hlower⟩ := hunits unit hunit
  have hlexed : (Token.dimension n unit).Lexed := by
    refine ⟨?_, hstart⟩
    rintro rfl
    cases hfinite
  have htext : g.accept? (n.text ++ unit) =
      g.acceptOne? (.token (.dimension n unit)) :=
    accept?_text (.dimension n unit) hlexed rfl (by simp)
      (Token.legible_dimension_iff.mpr ⟨hfinite, hname, rfl, hexponent⟩)
  rw [htext]
  refine hg.acceptOne?_of_only hlength rfl fun other hany => ?_
  cases other with
  | length => simp [ValueType.accept?, hlower, hunit]
  | any => exact absurd rfl hany
  | _ => rfl

/-- A value within range is accepted again, from the text that was kept. -/
theorem Typed.accept?_kept {single : Component} {kept : String}
    (hlexed : ∀ t ∈ single.flatten, t.Lexed)
    (hrange : ∀ t, single = .token t → t.overflows = false)
    (h : g.acceptOne? single = some kept) : g.accept? kept = some kept := by
  have hone := h
  rw [hg.acceptOne?_eq, Option.or_eq_some_iff] at h
  rcases h with hkeyword | ⟨-, htypes⟩
  · obtain ⟨-, -, -, hwide⟩ := hg.keyword?_eq_some_iff.mp hkeyword
    exact hg.accept?_wide hwide
  obtain ⟨before, type, after, hsplit, htype, -⟩ :=
    List.findSome?_eq_some_iff.mp htypes
  have hmem : type ∈ g.types := by simp [hsplit]
  unfold ValueType.accept? at htype
  split at htype
  · cases hparse : Color.parse single with
    | error e => simp [hparse, Except.toOption] at htype
    | ok color =>
      simp only [hparse, Except.toOption, Option.map_some, Option.some.injEq]
        at htype
      subst htype
      exact hg.accept?_color hlexed hmem hparse
  · rename_i n unit
    dsimp only at htype
    split at htype
    · rename_i hunit
      cases htype
      have hfinite := hrange _ rfl
      exact hg.accept?_length (by simpa [Token.overflows] using hfinite)
        (List.contains_iff_mem.mp hunit) hmem
    · cases htype
  · split at htype
    · cases htype
      have hzero : Binary32.zero.text ++ "px" = "0px" := by decide +kernel
      have hpixels : "px" ∈ lengthUnits := by decide
      rw [← hzero]
      exact hg.accept?_length rfl hpixels hmem
    · cases htype
  · -- Percentages and numbers are read as they were, and so accepted again.
    rename_i n
    cases htype
    have hfinite : n.isFinite = true := by
      simpa [Token.overflows] using hrange _ rfl
    have htext : g.accept? (n.text ++ "%") =
        g.acceptOne? (.token (.percentage n)) :=
      accept?_text (.percentage n) (hlexed _ List.mem_cons_self) rfl (by simp)
        hfinite
    rwa [htext]
  · rename_i n
    cases htype
    have hfinite : n.isFinite = true := by
      simpa [Token.overflows] using hrange _ rfl
    have htext : g.accept? n.text = g.acceptOne? (.token (.number n)) :=
      accept?_text (.number n) (hlexed _ List.mem_cons_self) rfl (by simp)
        (Token.legible_number_iff.mpr ⟨hfinite, rfl, rfl, by simp⟩)
    rwa [htext]
  · exact absurd hmem hg.bound
  · cases htype

/-! ### Out of range -/

/-- An infinite number with a unit or none is a name, which is no keyword and
no colour. -/
theorem Typed.accept?_infinite (negative : Bool) {unit : String}
    (hunit : unit ∈ "" :: lengthUnits) :
    g.accept? ((Binary32.infinity negative).text ++ unit) = none := by
  have hnames : ∀ negative, ∀ unit ∈ "" :: lengthUnits,
      let name := (Binary32.infinity negative).text ++ unit
      Css.startsName name.toList = true ∧ Css.isName name = true ∧
        Text.lowerAscii name ∉ wideKeywords ∧
        (Color.ofName name).toOption = none := by
    decide +kernel
  obtain ⟨hstart, hname, hwide, hcolor⟩ := hnames negative unit hunit
  have hkeyword : g.keyword? (.token (.ident
      ((Binary32.infinity negative).text ++ unit))) = none := by
    refine Option.eq_none_iff_forall_ne_some.mpr fun kept hkept => ?_
    obtain ⟨name, hsame, rfl, hmem⟩ := hg.keyword?_eq_some_iff.mp hkept
    cases hsame
    exact hwide hmem
  rw [accept?_name hstart hname, hg.acceptOne?_eq, hkeyword, Option.none_or,
    List.findSome?_eq_none_iff]
  intro type htype
  cases type with
  | color => simp [ValueType.accept?, Color.parse, hcolor]
  | any => exact absurd htype hg.bound
  | _ => rfl

/-- With a percent sign it is a name and a sign. -/
theorem Typed.accept?_infinite_percentage (negative : Bool) :
    g.accept? ((Binary32.infinity negative).text ++ "%") = none := by
  have hvalue : Component.parseValue
      ((Binary32.infinity negative).text ++ "%") =
        .ok [.token (.ident (Binary32.infinity negative).text),
          .token (.delim '%')] := by
    cases negative <;> with_unfolding_all rfl
  refine Option.eq_none_iff_forall_ne_some.mpr fun kept hkept => ?_
  obtain ⟨values, single, hvalues, hsingle, -⟩ :=
    hg.accept?_eq_some_iff.mp hkept
  rw [hvalue] at hvalues
  cases hvalues
  cases hsingle

/-- A value out of range is rejected, from the text that was kept. -/
theorem Typed.accept?_kept_of_overflows {t : Token} {kept : String}
    (hlexed : t.Lexed) (hover : t.overflows = true)
    (h : g.acceptOne? (.token t) = some kept) : g.accept? kept = none := by
  rw [hg.acceptOne?_eq, Option.or_eq_some_iff] at h
  rcases h with hkeyword | ⟨-, htypes⟩
  · obtain ⟨name, hname, -⟩ := hg.keyword?_eq_some_iff.mp hkeyword
    cases hname
    cases hover
  obtain ⟨before, type, after, hsplit, htype, -⟩ :=
    List.findSome?_eq_some_iff.mp htypes
  have hmem : type ∈ g.types := by simp [hsplit]
  cases t with
  | number n =>
    obtain ⟨negative, rfl⟩ := Binary32.exists_infinity hlexed hover
    cases type with
    | number =>
      cases htype
      simpa using hg.accept?_infinite negative List.mem_cons_self
    | any => exact absurd hmem hg.bound
    | length => cases negative <;> cases htype
    | _ => cases htype
  | percentage n =>
    obtain ⟨negative, rfl⟩ := Binary32.exists_infinity hlexed hover
    cases type with
    | percentage =>
      cases htype
      exact hg.accept?_infinite_percentage negative
    | any => exact absurd hmem hg.bound
    | _ => cases htype
  | dimension n unit =>
    obtain ⟨negative, rfl⟩ := Binary32.exists_infinity hlexed.1 hover
    cases type with
    | length =>
      simp only [ValueType.accept?, Option.ite_none_right_eq_some,
        List.contains_iff_mem, Option.some.injEq] at htype
      obtain ⟨hunit, rfl⟩ := htype
      exact hg.accept?_infinite negative (List.mem_cons_of_mem _ hunit)
    | any => exact absurd hmem hg.bound
    | _ => cases htype
  | _ => cases hover

/-- **What a grammar of types keeps is accepted again and kept as it is**,
unless the value was out of range; then it is rejected. -/
theorem accept?_kept_iff {value kept : String}
    (h : g.accept? value = some kept) :
    (g.accept? kept = some kept ↔ ¬ Overflows value) ∧
      (g.accept? kept = none ↔ Overflows value) := by
  obtain ⟨values, single, hvalues, hsingle, hone⟩ :=
    hg.accept?_eq_some_iff.mp h
  have hmem : single ∈ values :=
    (List.mem_filter.mp (hsingle ▸ List.mem_singleton_self single)).1
  have hlexed : ∀ t ∈ single.flatten, t.Lexed := fun t ht =>
    Component.lexed_of_mem_parseValue hvalues t
      (Component.mem_flattenAll.mpr ⟨single, hmem, ht⟩)
  have honly := overflows_iff hvalues hsingle
  by_cases hover : Overflows value
  · obtain ⟨t, rfl, ht⟩ := honly.mp hover
    have hrejected := hg.accept?_kept_of_overflows
      (hlexed t List.mem_cons_self) ht hone
    simp [hrejected, hover]
  · have hrange : ∀ t, single = .token t → t.overflows = false := by
      intro t ht
      exact Bool.eq_false_iff.mpr fun htrue => hover (honly.mpr ⟨t, ht, htrue⟩)
    simp [hg.accept?_kept hlexed hrange hone, hover]

end Typed

/-- A length that is written in another way than it was kept. -/
theorem accept?_kept_iff_length :
    ∃ g : Grammar, g.Typed ∧ g.types = [.color, .number, .length] ∧
      g.accept? " -0.50EM" = some "-0.5em" ∧ ¬ Overflows " -0.50EM" ∧
      g.accept? "-0.5em" = some "-0.5em" := by
  let g : Grammar := ⟨[], [], [.color, .number, .length]⟩
  have hg : g.Typed := by decide
  let half : Binary32 := Css.numberValue "-0.50".toList
  have hvalue : Component.parseValue " -0.50EM" =
      .ok [.token (.dimension half "EM")] := by
    with_unfolding_all rfl
  have hkept : g.accept? " -0.50EM" = some "-0.5em" := by
    rw [accept?_of_single hvalue rfl]
    decide +kernel
  have hrange : ¬ Overflows " -0.50EM" := by
    rintro ⟨values, hvalues, t, ht, hover⟩
    rw [hvalue] at hvalues
    cases hvalues
    cases List.mem_singleton.mp ht
    revert hover
    decide +kernel
  exact ⟨g, hg, rfl, hkept, hrange,
    (accept?_kept_iff hg hkept).1.mpr hrange⟩

/-- A number past the largest finite one is kept as a text that is
rejected. -/
theorem accept?_kept_infinite :
    ∃ g : Grammar, g.Typed ∧ g.types = [.number] ∧
      g.accept? "1e39" = some "inf" ∧ g.accept? "inf" = none := by
  let g : Grammar := ⟨[], [], [.number]⟩
  have hg : g.Typed := by decide
  have hvalue : Component.parseValue "1e39" =
      .ok [.token (.number (Css.numberValue "1e39".toList))] := by
    with_unfolding_all rfl
  have hkept : g.accept? "1e39" = some "inf" := by
    rw [accept?_of_single hvalue rfl]
    decide +kernel
  have hrejected : g.accept? ("inf" ++ "") = none :=
    hg.accept?_infinite false List.mem_cons_self
  exact ⟨g, hg, rfl, hkept, by simpa using hrejected⟩

end Grammar

end StyleProbe
