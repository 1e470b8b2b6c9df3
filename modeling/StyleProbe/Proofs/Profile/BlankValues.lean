import StyleProbe.Proofs.Css.Component.Lead
import StyleProbe.Proofs.Css.Token.Comment
import StyleProbe.Proofs.Profile.PrefixedForms

/-!
# Blank values

A value of whitespace and comments alone has no component value, and no
grammar accepts it. But its forms are tried too, and a vendor prefix with
nothing behind it is a name: a property with free values keeps it, and so
does one that has the lone prefix as a keyword. Then the prefix is the answer
to the blank value.

Main statements: `Grammar.accept?_blank` (the value itself),
`Grammar.accept?_hyphenLead_blank` (its forms) and
`Profile.value_eq_lead_iff` (the answer).
-/

namespace StyleProbe

namespace Css

/-! ## Blank texts -/

/-- The characters are whitespace and comments with an end, and nothing
else. -/
inductive Blank : List Char → Prop
  | nil : Blank []
  | space {c : Char} {rest : List Char} (hspace : isSpace c = true)
      (hrest : Blank rest) : Blank (c :: rest)
  | comment {body rest : List Char} (hbody : ¬ ['*', '/'] <:+: body)
      (hrest : Blank rest) :
      Blank ('/' :: '*' :: (body ++ '*' :: '/' :: rest))

namespace Blank

variable {cs : List Char}

/-- Blank characters are read as whitespace, and so are they behind more
whitespace. -/
theorem tokenizeChars_and_behind (h : Blank cs) :
    (∃ ts, tokenizeChars cs = .ok ts ∧ ∀ t ∈ ts, t = .whitespace) ∧
      ∃ ts, tokenizeChars (cs.dropWhile isSpace) = .ok ts ∧
        ∀ t ∈ ts, t = .whitespace := by
  -- Both at once, since whitespace is scanned together with what follows.
  induction h with
  | nil =>
    have hempty : tokenizeChars [] = .ok [] := by rw [tokenizeChars]
    exact ⟨⟨[], hempty, by simp⟩, [], hempty, by simp⟩
  | @space c rest hspace _ ih =>
    obtain ⟨ts, hts, hblank⟩ := ih.2
    rw [List.dropWhile_cons_of_pos hspace]
    refine ⟨⟨.whitespace :: ts, ?_, ?_⟩, ts, hts, hblank⟩
    · have hcomment : ∀ after, c :: rest ≠ '/' :: '*' :: after := by
        rintro after heq
        obtain ⟨rfl, -⟩ := List.cons.inj heq
        cases hspace
      rw [tokenizeChars_cons hcomment, scan_isSpace hspace]
      dsimp only
      rw [hts]
      rfl
    · simpa using hblank
  | comment hbody _ ih =>
    rw [List.dropWhile_cons_of_neg (by decide),
      tokenizeChars_closedComment hbody]
    exact ⟨ih.1, ih.1⟩

theorem takeName (h : Blank cs) : takeName cs = ([], cs) := by
  apply takeName_of_endsName
  cases h with
  | nil => rfl
  | @space c rest hspace _ =>
    simp only [isSpace, Bool.or_eq_true, beq_iff_eq] at hspace
    refine endsName_cons ?_ ?_ rest <;>
      rcases hspace with (((rfl | rfl) | rfl) | rfl) | rfl <;> decide
  | comment _ _ => exact endsName_cons (by decide) (by decide) _

theorem head?_ne (h : Blank cs) : cs.head? ≠ some '(' := by
  cases h with
  | nil => simp
  | space hspace _ =>
    rintro heq
    cases Option.some.inj heq
    cases hspace
  | comment _ _ => simp

theorem loneName? (h : Blank cs) : loneName? cs = some [] := by
  obtain ⟨ts, hts, hblank⟩ := h.tokenizeChars_and_behind.1
  rw [loneName?_eq h.takeName hts,
    if_pos (List.all_eq_true.mpr fun t ht => beq_iff_eq.mpr (hblank t ht))]

end Blank

namespace Component

variable {value : String} (h : Blank value.toList)

include h

theorem parseValue_blank : parseValue value = .ok [] := by
  obtain ⟨ts, hts, hblank⟩ := h.tokenizeChars_and_behind.1
  have hgaps : ∀ gap ∈ ts.map Component.token, gap.isWhitespace = true := by
    intro gap hgap
    obtain ⟨t, ht, rfl⟩ := List.mem_map.mp hgap
    rw [hblank t ht]
    rfl
  refine parseValue_eq_ok_iff.mpr ⟨ts.map .token, ?_, ?_, ?_⟩
  · refine wellFormedAll_iff.mpr fun gap hgap => ?_
    rw [eq_whitespace_of_isWhitespace (hgaps gap hgap)]
    rfl
  · rw [tokenize, hts, flattenAll_map_token]
  · exact trimBy_eq_nil_iff.mpr hgaps

/-- A blank value with a vendor prefix is the prefix as a name. -/
theorem parseValue_hyphenLead_blank (vendor : Vendor) :
    parseValue (vendor.hyphenLead ++ value) =
      .ok [.token (.ident vendor.hyphenLead)] := by
  have hcall : (takeName value.toList).2.head? ≠ some '(' := by
    rw [h.takeName]
    exact h.head?_ne
  rw [parseValue_hyphenLead_lone hcall h.loneName?, String.ofList_nil,
    String.append_empty]

end Component

end Css

open Css (Component Color Blank)

/-! ## On a grammar -/

namespace Grammar

/-- Whether the grammar allows a vendor's prefix as a value: as a free value
or as a keyword. -/
def AllowsLead (g : Grammar) (vendor : Vendor) : Prop :=
  .any ∈ g.types ∨ vendor.hyphenLead ∈ g.keywords

instance (g : Grammar) (vendor : Vendor) : Decidable (g.AllowsLead vendor) :=
  inferInstanceAs (Decidable (_ ∨ _))

/-- The first vendor whose prefix the grammar allows as a value. -/
def firstLead? (g : Grammar) : Option Vendor :=
  Vendor.all.find? fun vendor => g.AllowsLead vendor

variable {g : Grammar} {vendor : Vendor}

theorem firstLead?_eq_none_iff :
    g.firstLead? = none ↔
      .any ∉ g.types ∧ ∀ vendor : Vendor, vendor.hyphenLead ∉ g.keywords := by
  simp only [firstLead?, List.find?_eq_none, Vendor.mem_all, forall_const,
    decide_eq_true_eq]
  constructor
  · intro h
    exact ⟨fun hany => h .webkit (.inl hany), fun vendor hmem =>
      h vendor (.inr hmem)⟩
  · rintro ⟨hany, hkeywords⟩ vendor (h | h)
    · exact hany h
    · exact hkeywords vendor h

theorem acceptOne?_lead :
    g.acceptOne? (.token (.ident vendor.hyphenLead)) =
      if g.AllowsLead vendor then some vendor.hyphenLead else none := by
  have hwide : vendor.hyphenLead ∉ wideKeywords := by
    cases vendor <;> decide
  have hkeyword : g.keyword? (.token (.ident vendor.hyphenLead)) =
      if vendor.hyphenLead ∈ g.keywords then some vendor.hyphenLead
      else none := by
    simp [keyword?, vendor.lowerAscii_hyphenLead, hwide]
  have hnamed : (Component.token (.ident vendor.hyphenLead)).NamedFrom
      vendor.hyphenLead := ⟨"", String.append_empty.symm⟩
  obtain ⟨e, hcolor⟩ := Color.parse_namedFrom hnamed
  -- Of the types only `any` has a name that is no colour.
  have htype : ∀ type : ValueType,
      type.accept? (.token (.ident vendor.hyphenLead)) =
        if type = .any then some vendor.hyphenLead else none := by
    intro type
    cases type with
    | color => simp [ValueType.accept?, hcolor, Except.toOption]
    | _ => rfl
  have htypes : (g.types.findSome? fun type =>
      type.accept? (.token (.ident vendor.hyphenLead))) =
        if .any ∈ g.types then some vendor.hyphenLead else none :=
    findSome?_of_only fun type _ => htype type
  rw [acceptOne?, hkeyword, htypes]
  by_cases hmem : vendor.hyphenLead ∈ g.keywords
  · simp [hmem, AllowsLead]
  · simp [hmem, AllowsLead, allowsFunction]

variable {value : String} (h : Blank value.toList)

include h

/-- **No grammar accepts a blank value.** -/
theorem accept?_blank (g : Grammar) : g.accept? value = none := by
  rw [accept?, Component.parseValue_blank h]
  rfl

/-- With a vendor prefix it is accepted where the prefix is, and kept as
that. -/
theorem accept?_hyphenLead_blank :
    g.accept? (vendor.hyphenLead ++ value) =
      if g.AllowsLead vendor then some vendor.hyphenLead else none := by
  rw [accept?, Component.parseValue_hyphenLead_blank h, ← acceptOne?_lead]
  rfl

theorem findSome?_preferredForms_blank :
    (preferredForms value).findSome? g.accept? =
      g.firstLead?.map Vendor.hyphenLead := by
  have hforms : ∀ vendors : List Vendor,
      (vendors.map fun vendor => vendor.hyphenLead ++ value).findSome?
          g.accept? =
        (vendors.find? fun vendor => g.AllowsLead vendor).map
          Vendor.hyphenLead := by
    intro vendors
    induction vendors with
    | nil => rfl
    | cons vendor vendors ih =>
      rw [List.map_cons, List.findSome?_cons, accept?_hyphenLead_blank h, ih]
      by_cases hallows : g.AllowsLead vendor
      · simp [hallows]
      · simp [hallows]
  rw [preferredForms_eq, List.findSome?_cons, accept?_blank h]
  exact hforms Vendor.all

end Grammar

/-! ## On a profile -/

theorem ValueResolution.eq_unsupported_iff {answer : ValueResolution} :
    answer = unsupported ↔ ∀ kept, answer ≠ supported kept := by
  cases answer <;> simp

namespace Profile

/-- **The answer to a blank value** is a lone vendor prefix: the first one
that the property's grammar allows as a value. So a blank value is
unsupported exactly where the property is not declared, or has no free values
and none of the prefixes as a keyword. -/
theorem value_eq_lead_iff (profile : Profile) (strategy : Strategy)
    (key : PropertyName) {value : String} (h : Blank value.toList) :
    (∀ kept,
      (Resolver.value ⟨profile.surface, strategy⟩ key value).value =
          .supported kept ↔
        ∃ grammar,
          profile.table.grammar? (normalName key.text) = some grammar ∧
          ∃ vendor, grammar.firstLead? = some vendor ∧
            kept = vendor.hyphenLead) ∧
      ((Resolver.value ⟨profile.surface, strategy⟩ key value).value =
          .unsupported ↔
        ∀ grammar,
          profile.table.grammar? (normalName key.text) = some grammar →
          .any ∉ grammar.types ∧
          ∀ vendor : Vendor, vendor.hyphenLead ∉ grammar.keywords) := by
  have hsupported : ∀ kept,
      (Resolver.value ⟨profile.surface, strategy⟩ key value).value =
          .supported kept ↔
        ∃ grammar,
          profile.table.grammar? (normalName key.text) = some grammar ∧
          ∃ vendor, grammar.firstLead? = some vendor ∧
            kept = vendor.hyphenLead := by
    intro kept
    rw [value_eq_supported_iff, findSome?_accept?_iff]
    refine exists_congr fun grammar => and_congr_right fun _ => ?_
    rw [Grammar.findSome?_preferredForms_blank h, Option.map_eq_some_iff]
    simp only [eq_comm (a := kept)]
  refine ⟨hsupported, ?_⟩
  rw [ValueResolution.eq_unsupported_iff]
  simp only [ne_eq, hsupported, ← Grammar.firstLead?_eq_none_iff]
  constructor
  · intro hnone grammar hgrammar
    cases hlead : grammar.firstLead? with
    | none => rfl
    | some vendor =>
      exact absurd ⟨grammar, hgrammar, vendor, hlead, rfl⟩ (hnone _)
  · rintro hnone kept ⟨grammar, hgrammar, vendor, hlead, -⟩
    rw [hnone grammar hgrammar] at hlead
    cases hlead

/-- A property with free values and one that has a vendor's prefix as a
keyword. -/
def openSource : ProfileSource where
  name := "open"
  properties := [
    { name := "content", keywords := ["none", "-MS-"] },
    { name := "transition", types := [.any] }]

/-- Whitespace and a comment, where the prefix is a keyword. -/
theorem value_eq_lead_content :
    ∃ profile key, ofSource openSource = .ok profile ∧
      PropertyName.ofText? "content" = some key ∧
      Blank " /* * */\t".toList ∧
      (Resolver.value ⟨profile.surface, .isolated⟩ key " /* * */\t").value =
        .supported "-ms-" := by
  let key : PropertyName := ⟨"content", by decide +kernel, by decide⟩
  obtain ⟨profile, hprofile, grammar, hgrammar, hlead⟩ :
      ∃ profile, ofSource openSource = .ok profile ∧ ∃ grammar,
        profile.table.grammar? (normalName key.text) = some grammar ∧
        grammar.firstLead? = some .ms := by
    refine ⟨_, rfl, ⟨["none", "-ms-"], [], []⟩, by decide +kernel,
      by decide +kernel⟩
  have hblank : Blank " /* * */\t".toList :=
    .space rfl (@Blank.comment [' ', '*', ' '] _ (by decide)
      (.space rfl .nil))
  exact ⟨profile, key, hprofile, key.ofText?_text, hblank,
    ((value_eq_lead_iff profile .isolated key hblank).1 _).mpr
      ⟨grammar, hgrammar, .ms, hlead, rfl⟩⟩

/-- Nothing at all is supported, as a vendor prefix, where values are free. -/
theorem value_empty_supported :
    ∃ profile key, ofSource openSource = .ok profile ∧
      PropertyName.ofText? "transition" = some key ∧
      Blank "".toList ∧
      ∀ strategy, (Resolver.value ⟨profile.surface, strategy⟩ key "").value =
        .supported "-webkit-" := by
  let key : PropertyName := ⟨"transition", by decide +kernel, by decide⟩
  obtain ⟨profile, hprofile, hgrammar⟩ :
      ∃ profile, ofSource openSource = .ok profile ∧
        profile.table.grammar? (normalName key.text) =
          some ⟨[], [], [.any]⟩ := by
    refine ⟨_, rfl, by decide +kernel⟩
  have hblank : Blank "".toList := .nil
  refine ⟨profile, key, hprofile, key.ofText?_text, hblank, fun strategy => ?_⟩
  rw [value_eq_supported_iff, findSome?_accept?_iff]
  refine ⟨_, hgrammar, ?_⟩
  rw [Grammar.findSome?_preferredForms_blank hblank]
  rfl

end Profile

end StyleProbe
