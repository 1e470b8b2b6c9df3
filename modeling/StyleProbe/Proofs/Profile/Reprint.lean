import StyleProbe.Proofs.Css.Component.Lead
import StyleProbe.Proofs.Profile.Agreement
import StyleProbe.Proofs.Profile.PrefixedForms

/-!
# Values that are written anew

An audit asks for the text of the component values of a declaration, not for
what the style sheet wrote. A grammar does not tell a value from its text if
the text is read back, since it does not tell component values from tidied
ones; and neither does a profile, which also tries the value with a vendor
prefix in front, if the two are alike there.

Main statements: `Grammar.accept?_serialize` and `Profile.value_serialize`.
-/

namespace StyleProbe

open Css (Component Color AlikeInFront loneName? takeName)
open Css.Component (parseValue serialize tidyAll)

/-! ## Tidied component values -/

theorem ValueType.accept?_tidy (type : ValueType) (value : Component) :
    type.accept? value.tidy = type.accept? value := by
  cases type with
  | color => simp only [accept?, Color.parse_tidy]
  | any => exact congrArg some (Component.text_tidy value)
  | _ => cases value <;> rfl

namespace Grammar

variable (g : Grammar)

theorem keyword?_tidy (value : Component) :
    g.keyword? value.tidy = g.keyword? value := by
  cases value <;> rfl

theorem allowsFunction_tidy (value : Component) :
    g.allowsFunction value.tidy = g.allowsFunction value := by
  cases value <;> rfl

theorem acceptOne?_tidy (value : Component) :
    g.acceptOne? value.tidy = g.acceptOne? value := by
  have htypes : (fun type : ValueType => type.accept? value.tidy) =
      fun type => type.accept? value :=
    funext fun type => type.accept?_tidy value
  simp only [acceptOne?, keyword?_tidy, allowsFunction_tidy,
    Component.text_tidy, htypes]

/-- **A grammar does not tell component values from tidied ones.** -/
theorem accept?_tidyAll {text text' : String} {values : List Component}
    (h : parseValue text = .ok values)
    (h' : parseValue text' = .ok (tidyAll values)) :
    g.accept? text' = g.accept? text := by
  have htext := Component.serialize_tidyAll values
  rw [Component.tidyAll_eq_map] at h' htext
  have hone : ∀ v ∈ values,
      g.acceptOne? v.tidy = (g.acceptOne? v).map id := by
    intro v _
    rw [acceptOne?_tidy, Option.map_id_fun, id]
  have hkept : g.accept? text' = (g.accept? text).map id :=
    accept?_of_map h h' Component.isWhitespace_tidy g.allowsFunction_tidy hone
      htext
  rwa [Option.map_id_fun, id] at hkept

/-- **A grammar does not tell a legible value from its text.** -/
theorem accept?_serialize {value : String} {values : List Component}
    (hvalues : parseValue value = .ok values)
    (hlegible : Component.Legible values) :
    g.accept? (serialize values) = g.accept? value :=
  g.accept?_tidyAll hvalues (Component.parseValue_serialize hvalues hlegible)

/-! ## Vendor prefixes -/

variable {g}

/-- A grammar that allows any value refuses nothing but an empty one. -/
theorem accept?_ne_none_of_any (hany : .any ∈ g.types) {value : String}
    {values : List Component} (hvalues : parseValue value = .ok values)
    (hne : values ≠ []) : g.accept? value ≠ none := by
  have hsolid : values.filter (fun v => !v.isWhitespace) ≠ [] := by
    intro hnil
    obtain ⟨contents, -, -, rfl⟩ :=
      Component.parseValue_eq_ok_iff.mp hvalues
    cases hfirst : Component.trim contents with
    | nil => exact hne hfirst
    | cons first rest =>
      have hblank := head?_trimBy Component.isWhitespace contents first
        (by rw [← Component.trim, hfirst]; rfl)
      have := List.filter_eq_nil_iff.mp hnil first (by simp [hfirst])
      simp [hblank] at this
  unfold accept?
  rw [hvalues]
  dsimp only
  generalize values.filter (fun v => !v.isWhitespace) = solid at hsolid ⊢
  rcases solid with _ | ⟨first, _ | ⟨second, rest⟩⟩
  · exact absurd rfl hsolid
  · unfold acceptOne?
    dsimp only
    split
    · simp
    split
    · simp
    · intro hnone
      have := List.findSome?_eq_none_iff.mp hnone .any hany
      cases this
  · dsimp only
    rw [if_pos (by simp [hany])]
    simp

/-- Several component values of which the first is a name are accepted only as
any values. -/
theorem accept?_eq_none_of_several (hany : .any ∉ g.types) {vendor : Vendor}
    {value : String} (hcall : (takeName value.toList).2.head? ≠ some '(')
    (hlone : loneName? value.toList = none) :
    g.accept? (vendor.hyphenLead ++ value) = none := by
  unfold accept?
  cases hvalues : parseValue (vendor.hyphenLead ++ value) with
  | error e => rfl
  | ok values =>
    obtain ⟨name, more, rfl, other, hother, hblank⟩ :=
      Component.exists_of_parseValue_hyphenLead hcall hlone hvalues
    have hmem : other ∈ more.filter (fun v => !v.isWhitespace) :=
      List.mem_filter.mpr ⟨hother, by simp [hblank]⟩
    have hfirst : (Component.token (.ident name) :: more).filter
        (fun v => !v.isWhitespace) =
          .token (.ident name) :: more.filter (fun v => !v.isWhitespace) := rfl
    dsimp only
    rw [hfirst]
    generalize more.filter (fun v => !v.isWhitespace) = solid at hmem ⊢
    cases solid with
    | nil => cases hmem
    | cons second rest =>
      dsimp only
      rw [if_neg (by simp [hany, allowsFunction])]

/-- A prefix makes the same of two texts that are the same lone name, and of
two texts of which none is. -/
theorem accept?_hyphenLead_of_lone {vendor : Vendor} {value value' : String}
    (hcall : (takeName value.toList).2.head? ≠ some '(')
    (hcall' : (takeName value'.toList).2.head? ≠ some '(')
    (hlone : loneName? value.toList = loneName? value'.toList)
    (hany : loneName? value.toList = none → .any ∉ g.types) :
    g.accept? (vendor.hyphenLead ++ value') =
      g.accept? (vendor.hyphenLead ++ value) := by
  cases h : loneName? value.toList with
  | none =>
    rw [accept?_eq_none_of_several (hany h) hcall h,
      accept?_eq_none_of_several (hany h) hcall' (hlone.symm.trans h)]
  | some name =>
    unfold accept?
    rw [Component.parseValue_hyphenLead_lone hcall h,
      Component.parseValue_hyphenLead_lone hcall' (hlone.symm.trans h)]

/-- **Where the bare value is refused, a grammar does not tell a legible value
with a prefix from its text with that prefix**, if the two are alike in
front. -/
theorem accept?_hyphenLead_serialize {value : String}
    {values : List Component} (hvalues : parseValue value = .ok values)
    (hlegible : Component.Legible values)
    (halike : AlikeInFront value.toList (serialize values).toList)
    (hbare : g.accept? value = none) (vendor : Vendor) :
    g.accept? (vendor.hyphenLead ++ serialize values) =
      g.accept? (vendor.hyphenLead ++ value) := by
  have hlone : ∀ (_ : (takeName value.toList).2.head? ≠ some '(')
      (_ : (takeName (serialize values).toList).2.head? ≠ some '(')
      (_ : loneName? value.toList = loneName? (serialize values).toList),
      g.accept? (vendor.hyphenLead ++ serialize values) =
        g.accept? (vendor.hyphenLead ++ value) := by
    intro hcall hcall' hsame
    refine accept?_hyphenLead_of_lone hcall hcall' hsame ?_
    intro hnone hany
    -- Only an empty value is refused then, and its text is a lone name.
    by_cases hempty : values = []
    · rw [hsame, hempty] at hnone
      exact absurd (Css.loneName?_nil.symm.trans hnone) (by simp)
    · exact accept?_ne_none_of_any hany hvalues hempty hbare
  cases halike with
  | same hsame => rw [String.toList_inj.mp hsame]
  | name hstart =>
    by_cases hcall : (takeName value.toList).2.head? = some '('
    · obtain ⟨rest, hrest⟩ := List.head?_eq_some_iff.mp hcall
      obtain ⟨led, hled, hled'⟩ :=
        Component.exists_parseValue_hyphenLead_of_function hvalues hlegible
          vendor hstart (Prod.ext rfl hrest)
      exact g.accept?_tidyAll hled hled'
    · obtain ⟨hcall', hsame⟩ :=
        Component.loneName?_serialize hvalues hlegible hstart hcall
      exact hlone hcall hcall' hsame
  | call hopening =>
    obtain ⟨led, hled, hled'⟩ :=
      Component.exists_parseValue_hyphenLead_of_call hvalues hlegible vendor
        hopening
    exact g.accept?_tidyAll hled hled'
  | lone hcall hcall' hsame => exact hlone hcall hcall' hsame

end Grammar

/-! ## The answer on a profile -/

namespace Profile

/-- **A value and its text have the same answer** on every profile, whichever
way it is probed, if the component values of the value are legible and the two
are alike in front, or no prefix is tried. Every grammar then keeps the same
of both. -/
theorem value_serialize (profile : Profile) (strategy : Strategy)
    (key : PropertyName) {value : String} {values : List Component}
    (hvalues : parseValue value = .ok values)
    (hlegible : Component.Legible values)
    (halike : AlikeInFront value.toList (serialize values).toList ∨
      (profile.accept? (normalName key.text) value).isSome = true) :
    (Resolver.value ⟨profile.surface, strategy⟩ key (serialize values)).value =
        (Resolver.value ⟨profile.surface, strategy⟩ key value).value ∧
      ∀ g : Grammar, g.accept? (serialize values) = g.accept? value := by
  have hgrammars : ∀ g : Grammar,
      g.accept? (serialize values) = g.accept? value :=
    fun g => g.accept?_serialize hvalues hlegible
  refine ⟨?_, hgrammars⟩
  apply ValueResolution.eq_of_supported_iff
  intro kept
  rw [value_eq_supported_iff, value_eq_supported_iff,
    findSome?_accept?_iff, findSome?_accept?_iff]
  refine exists_congr fun g => and_congr_right fun hg => ?_
  have hbare : profile.accept? (normalName key.text) value =
      g.accept? value := by
    simp [accept?, hg]
  rw [preferredForms_eq, preferredForms_eq, List.findSome?_cons,
    List.findSome?_cons, hgrammars g]
  cases hkept : g.accept? value with
  | some first => exact Iff.rfl
  | none =>
    rcases halike with halike | hsome
    · have hforms : g.accept? ∘ (fun vendor : Vendor =>
          vendor.hyphenLead ++ serialize values) =
            g.accept? ∘ fun vendor : Vendor => vendor.hyphenLead ++ value :=
        funext (Grammar.accept?_hyphenLead_serialize hvalues hlegible halike
          hkept)
      rw [List.findSome?_map, List.findSome?_map, hforms]
    · rw [hbare, hkept] at hsome
      cases hsome

/-- A function that needs a prefix, with whitespace at the ends of its
arguments that its text does not have. -/
theorem value_serialize_calc :
    ∃ (profile : Profile) (key : PropertyName) (values : List Component),
      profile.table.grammar? "width" = some (.ofLists [] ["-webkit-calc"] []) ∧
      PropertyName.ofText? "width" = some key ∧
      parseValue "calc( a )" = .ok values ∧ Component.Legible values ∧
      serialize values = "calc(a)" ∧
      (Resolver.value ⟨profile.surface, .isolated⟩ key "calc( a )").value =
        .supported "-webkit-calc(a)" ∧
      (Resolver.value ⟨profile.surface, .isolated⟩ key
        (serialize values)).value = .supported "-webkit-calc(a)" := by
  let key : PropertyName := ⟨"width", by decide, by decide⟩
  let grammar : Grammar := .ofLists [] ["-webkit-calc"] []
  let body : List Component :=
    [.token .whitespace, .token (.ident "a"), .token .whitespace]
  have hvalues : parseValue "calc( a )" = .ok [.function "calc" body] := by
    with_unfolding_all rfl
  have hprefixed : parseValue "-webkit-calc( a )" =
      .ok [.function "-webkit-calc" body] := by
    with_unfolding_all rfl
  have hlegible : Component.Legible [.function "calc" body] := by decide
  have hlower : Text.lowerAscii "calc" = "calc" := by decide
  have hlower' : Text.lowerAscii "-webkit-calc" = "-webkit-calc" := by decide
  have hrefused : grammar.accept? "calc( a )" = none := by
    simp [Grammar.accept?, hvalues, Component.isWhitespace,
      Grammar.acceptOne?, Grammar.keyword?, Grammar.allowsFunction, grammar,
      Grammar.ofLists, hlower, hlower']
  have hkept : grammar.accept? "-webkit-calc( a )" =
      some "-webkit-calc(a)" := by
    simp [Grammar.accept?, hprefixed, Component.isWhitespace,
      Grammar.acceptOne?, Grammar.keyword?, Grammar.allowsFunction, grammar,
      Grammar.ofLists, hlower']
    rfl
  have hname : normalName key.text = "width" := by decide
  obtain ⟨profile, hgrammar⟩ :=
    exists_single "width" grammar hname (by decide) rfl
  have hanswer : (Resolver.value ⟨profile.surface, .isolated⟩ key
      "calc( a )").value = .supported "-webkit-calc(a)" := by
    rw [← hname] at hgrammar
    simp [value_eq_findSome? _ _ hgrammar, preferredForms, hrefused, hkept]
  have hsame := value_serialize profile .isolated key hvalues hlegible
    (.inl (.name rfl))
  exact ⟨profile, key, _, hgrammar, key.ofText?_text, hvalues, hlegible, rfl,
    hanswer, hsame.1.trans hanswer⟩

/-- A comment keeps two names apart that are one name in the text. -/
theorem value_serialize_comment :
    ∃ (profile : Profile) (key : PropertyName) (values : List Component),
      profile.table.grammar? "display" = some (.ofLists ["flex"] [] []) ∧
      PropertyName.ofText? "display" = some key ∧
      parseValue "fl/**/ex" = .ok values ∧ serialize values = "flex" ∧
      (Resolver.value ⟨profile.surface, .default⟩ key "fl/**/ex").value =
        .unsupported ∧
      (Resolver.value ⟨profile.surface, .default⟩ key
        (serialize values)).value = .supported "flex" := by
  let key : PropertyName := ⟨"display", by decide, by decide⟩
  let grammar : Grammar := .ofLists ["flex"] [] []
  let values : List Component := [.token (.ident "fl"), .token (.ident "ex")]
  have hvalues : parseValue "fl/**/ex" = .ok values := by
    with_unfolding_all rfl
  have hflex : parseValue "flex" = .ok [.token (.ident "flex")] := by
    with_unfolding_all rfl
  have hrefused : ∀ form ∈ preferredForms "fl/**/ex",
      grammar.accept? form = none := by
    intro form hform
    rw [preferredForms_eq] at hform
    rcases List.mem_cons.mp hform with rfl | hform
    · simp [Grammar.accept?, hvalues, values, Component.isWhitespace,
        Grammar.allowsFunction, grammar, Grammar.ofLists]
    · obtain ⟨vendor, -, rfl⟩ := List.mem_map.mp hform
      exact Grammar.accept?_eq_none_of_several (by decide) (by decide)
        (by with_unfolding_all rfl)
  have hkept : grammar.accept? "flex" = some "flex" := by
    have hlower : Text.lowerAscii "flex" = "flex" := by decide
    simp [Grammar.accept?, hflex, Component.isWhitespace, Grammar.acceptOne?,
      Grammar.keyword?, grammar, Grammar.ofLists, hlower]
  have hname : normalName key.text = "display" := by decide
  have htext : serialize values = "flex" := rfl
  obtain ⟨profile, hgrammar⟩ :=
    exists_single "display" grammar hname (by decide) rfl
  refine ⟨profile, key, values, hgrammar, key.ofText?_text, hvalues, htext,
    ?_, ?_⟩
  · rw [← hname] at hgrammar
    rw [value_eq_findSome? _ _ hgrammar,
      List.findSome?_eq_none_iff.mpr hrefused]
    rfl
  · rw [← hname] at hgrammar
    rw [value_eq_findSome? _ _ hgrammar, htext, preferredForms_eq,
      List.findSome?_cons, hkept]
    rfl

end Profile

end StyleProbe
