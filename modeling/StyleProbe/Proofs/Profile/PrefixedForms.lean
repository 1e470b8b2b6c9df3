import StyleProbe.Proofs.Css.Component.Descent
import StyleProbe.Proofs.Css.Token.Lead
import StyleProbe.Proofs.Profile.Agreement
import StyleProbe.Proofs.Property.ResolvedName

/-!
# Values with a vendor prefix

What a grammar keeps of a value with a vendor prefix starts with that
prefix. The prefix is part of the first name in the value, and every way of
accepting the value writes that name in front: keywords and functions are
kept with their names, a free value is written from its first component
value on, and no colour or number is spelled with a prefix. So the text
that a probe reads back tells which form of the value was kept.

Main statements: `Grammar.accept?_hyphenLead` and
`Profile.value_eq_supported_iff` (the answer on a profile is the first form
that is accepted).
-/

namespace StyleProbe

/-! ## The first component value -/

namespace Css.Component

/-- The component value is a name or a function, and its name starts with
`lead`. -/
def NamedFrom (lead : String) : Component → Prop
  | token t => t.NamedFrom lead
  | function name _ => ∃ rest, name = lead ++ rest
  | block _ _ => False

theorem NamedFrom.exists_text {lead : String} {value : Component}
    (h : value.NamedFrom lead) : ∃ rest, value.text = lead ++ rest := by
  cases value with
  | token t =>
    cases t with
    | ident name => exact h
    | function name =>
      obtain ⟨rest, rfl⟩ := h
      exact ⟨rest ++ "(", by simp [text, Token.text, String.append_assoc]⟩
    | _ => cases h
  | function name body =>
    obtain ⟨rest, rfl⟩ := h
    exact ⟨rest ++ "(" ++ joinPieces (pieces body) ++ ")",
      by simp [text, String.append_assoc]⟩
  | block bracket body => cases h

theorem NamedFrom.not_whitespace {lead : String} {value : Component}
    (h : value.NamedFrom lead) : value.isWhitespace = false := by
  cases value with
  | token t =>
    cases t with
    | whitespace => cases h
    | _ => rfl
  | _ => rfl

/-- The first token decides the first component value. -/
theorem exists_first_of_readOne {lead : String} {first : Token}
    (h : first.NamedFrom lead) (tokens : List Token) :
    ∃ value, (readOne first tokens).values = [value] ∧
      value.NamedFrom lead := by
  cases first with
  | ident name => exact ⟨.token (.ident name), rfl, h⟩
  | function name => exact ⟨_, rfl, h⟩
  | _ => cases h

theorem exists_first_of_parseValue {vendor : Vendor} {value : String}
    {values : List Component}
    (h : parseValue (vendor.hyphenLead ++ value) = .ok values) :
    ∃ first rest, values = first :: rest ∧
      first.NamedFrom vendor.hyphenLead := by
  obtain ⟨contents, hformed, htokens, rfl⟩ := parseValue_eq_ok_iff.mp h
  obtain ⟨t, ts, hts, ht⟩ := exists_first_of_hyphenLead htokens
  obtain ⟨first, hfirst, hnamed⟩ := exists_first_of_readOne ht ts
  have hvalues : contents = first :: (read none (readOne t ts).rest).values := by
    have hread := congrArg Reading.values (read_flattenAll hformed)
    rw [hts, read_cons] at hread
    simpa [hfirst] using hread.symm
  obtain ⟨rest, -, hrest, -⟩ := exists_trimBy_cons hnamed.not_whitespace
    (read none (readOne t ts).rest).values
  exact ⟨first, rest, by rw [hvalues, trim, hrest], hnamed⟩

theorem NamedFrom.exists_serialize {lead : String} {first : Component}
    (h : first.NamedFrom lead) (values : List Component) :
    ∃ rest, serialize (first :: values) = lead ++ rest := by
  obtain ⟨after, hafter⟩ := h.exists_text
  have hsolid : Option.isNone (some first.text) = false := rfl
  obtain ⟨rest, -, hrest, -⟩ := exists_trimBy_cons hsolid (pieces values)
  have hpieces : pieces (first :: values) =
      some first.text :: pieces values := by
    simp [pieces, h.not_whitespace]
  rw [serialize, hpieces, joinPieces, hrest]
  exact ⟨after ++ rest.foldr (fun p s => p.getD " " ++ s) "",
    by simp [hafter, String.append_assoc]⟩

end Css.Component

open Css (Component Color)

/-! ## No colour has a prefix -/

namespace Css.Color

theorem hyphenLead_append_ne {text : String}
    (h : text.toList.head? ≠ some '-') (vendor : Vendor) (rest : String) :
    vendor.hyphenLead ++ rest ≠ text := by
  rintro rfl
  apply h
  cases vendor <;> simp [Vendor.hyphenLead]

theorem ofName_hyphenLead (vendor : Vendor) (rest : String) :
    ∃ e, ofName (vendor.hyphenLead ++ rest) = .error e := by
  have hnamed : ∀ entry ∈ named, entry.1.toList.head? ≠ some '-' := by
    decide
  have hlower : Text.lowerAscii (vendor.hyphenLead ++ rest) =
      vendor.hyphenLead ++ Text.lowerAscii rest := by
    rw [Text.lowerAscii_append, vendor.lowerAscii_hyphenLead]
  have hlookup :
      named.lookup (vendor.hyphenLead ++ Text.lowerAscii rest) = none := by
    cases hfound :
        named.lookup (vendor.hyphenLead ++ Text.lowerAscii rest) with
    | none => rfl
    | some channels =>
      have hmem := mem_of_lookup_eq_some hfound
      exact absurd rfl (hyphenLead_append_ne (hnamed _ hmem) vendor _)
  unfold ofName
  rw [hlower]
  dsimp only
  rw [if_neg (hyphenLead_append_ne (by decide) vendor _),
    if_neg (hyphenLead_append_ne (by decide) vendor _), hlookup]
  exact ⟨_, rfl⟩

theorem parse_namedFrom {vendor : Vendor} {value : Component}
    (h : value.NamedFrom vendor.hyphenLead) :
    ∃ e, parse value = .error e := by
  cases value with
  | token t =>
    cases t with
    | ident name =>
      obtain ⟨rest, rfl⟩ := h
      exact ofName_hyphenLead vendor rest
    | function name => exact ⟨_, rfl⟩
    | _ => cases h
  | function name body =>
    obtain ⟨rest, rfl⟩ := h
    refine ⟨.unsupportedColorFunction (vendor.hyphenLead ++ rest), ?_⟩
    have hrgb : ∀ text, vendor.hyphenLead ++ text ≠ "rgb" :=
      hyphenLead_append_ne (by decide) vendor
    have hrgba : ∀ text, vendor.hyphenLead ++ text ≠ "rgba" :=
      hyphenLead_append_ne (by decide) vendor
    simp [parse, Text.lowerAscii_append, vendor.lowerAscii_hyphenLead, hrgb,
      hrgba]
  | block bracket body => cases h

end Css.Color

/-! ## Accepting -/

/-- A type keeps the prefix of a component value that it accepts. -/
theorem ValueType.accept?_namedFrom {type : ValueType} {vendor : Vendor}
    {value : Component} {kept : String}
    (hnamed : value.NamedFrom vendor.hyphenLead)
    (h : type.accept? value = some kept) :
    ∃ rest, kept = vendor.hyphenLead ++ rest := by
  unfold ValueType.accept? at h
  split at h
  · obtain ⟨e, he⟩ := Color.parse_namedFrom hnamed
    rw [he] at h
    cases h
  · cases hnamed
  · cases hnamed
  · cases hnamed
  · cases hnamed
  · cases h
    exact hnamed.exists_text
  · cases h

namespace Grammar

variable {g : Grammar} {vendor : Vendor} {kept : String}

/-- A keyword keeps its prefix: the letters of a prefix are small. -/
theorem keyword?_namedFrom {value : Component}
    (hnamed : value.NamedFrom vendor.hyphenLead)
    (h : g.keyword? value = some kept) :
    ∃ rest, kept = vendor.hyphenLead ++ rest := by
  unfold keyword? at h
  split at h
  · obtain ⟨rest, rfl⟩ := hnamed
    dsimp only at h
    split at h
    · cases h
      rw [Text.lowerAscii_append, vendor.lowerAscii_hyphenLead]
      exact ⟨_, rfl⟩
    · cases h
  · cases h

theorem acceptOne?_namedFrom {value : Component}
    (hnamed : value.NamedFrom vendor.hyphenLead)
    (h : g.acceptOne? value = some kept) :
    ∃ rest, kept = vendor.hyphenLead ++ rest := by
  unfold acceptOne? at h
  split at h
  · rename_i lower hkeyword
    cases h
    exact keyword?_namedFrom hnamed hkeyword
  · split at h
    · cases h
      exact hnamed.exists_text
    · obtain ⟨before, type, after, -, htype, -⟩ :=
        List.findSome?_eq_some_iff.mp h
      exact ValueType.accept?_namedFrom hnamed htype

/-- **A grammar keeps the prefix**: what it keeps of a value with a vendor
prefix starts with that prefix. -/
theorem accept?_hyphenLead {value : String}
    (h : g.accept? (vendor.hyphenLead ++ value) = some kept) :
    ∃ rest, kept = vendor.hyphenLead ++ rest := by
  unfold accept? at h
  split at h
  · cases h
  rename_i values hvalues
  obtain ⟨first, rest, rfl, hnamed⟩ :=
    Component.exists_first_of_parseValue hvalues
  have hfilter : (first :: rest).filter (fun v => !v.isWhitespace) =
      first :: rest.filter (fun v => !v.isWhitespace) := by
    simp [hnamed.not_whitespace]
  rw [hfilter] at h
  split at h
  · cases h
  · rename_i single hsingle
    obtain ⟨rfl, -⟩ := List.cons.inj hsingle
    exact acceptOne?_namedFrom hnamed h
  · split at h
    · cases h
      exact hnamed.exists_serialize rest
    · cases h

end Grammar

/-! ## The answer on a profile -/

theorem ValueResolution.eq_of_supported_iff {a b : ValueResolution}
    (h : ∀ kept, a = supported kept ↔ b = supported kept) : a = b := by
  cases a with
  | supported value => exact ((h value).mp rfl).symm
  | unsupported =>
    cases b with
    | supported value => exact (h value).mpr rfl
    | unsupported => rfl

/-- **The answer to a value on a profile** is the first of its forms that is
accepted, whichever way the profile is probed. -/
theorem Profile.value_eq_supported_iff (profile : Profile)
    (strategy : Strategy) (key : PropertyName) (value kept : String) :
    (Resolver.value ⟨profile.surface, strategy⟩ key value).value =
        .supported kept ↔
      (preferredForms value).findSome?
        (profile.accept? (normalName key.text)) = some kept := by
  have hreading : (Resolver.value ⟨profile.surface, strategy⟩ key value).value =
      .ofReading (((preferredForms value).findSome?
        (profile.accept? (normalName key.text))).getD "") := by
    rw [← reverse_valueCandidates]
    cases strategy with
    | lastWriteWins =>
      exact congrArg ValueResolution.ofReading
        (profile.value_lastWritten key.text (Resolver.valueCandidates value))
    | isolated =>
      exact congrArg ValueResolution.ofReading
        (profile.value_firstKept key.text
          (Resolver.valueCandidates value).reverse)
  rw [hreading]
  cases hfound : (preferredForms value).findSome?
      (profile.accept? (normalName key.text)) with
  | none => simp [ValueResolution.ofReading]
  | some form =>
    obtain ⟨before, candidate, after, -, hform, -⟩ :=
      List.findSome?_eq_some_iff.mp hfound
    have hne := profile.accept?_ne_empty hform
    simp [ValueResolution.ofReading, hne]

theorem Profile.findSome?_accept?_iff (profile : Profile)
    {property kept : String} {forms : List String} :
    forms.findSome? (profile.accept? property) = some kept ↔
      ∃ grammar, profile.table.grammar? property = some grammar ∧
        forms.findSome? grammar.accept? = some kept := by
  cases hgrammar : profile.table.grammar? property with
  | none =>
    have hnone : profile.accept? property = fun _ => none := by
      funext form
      simp [accept?, hgrammar]
    rw [hnone, List.findSome?_eq_none_iff.mpr fun _ _ => rfl]
    simp
  | some grammar =>
    have hsome : profile.accept? property = grammar.accept? := by
      funext form
      simp [accept?, hgrammar]
    simp [hsome]

theorem Profile.value_eq_findSome? (profile : Profile) (strategy : Strategy)
    {key : PropertyName} {grammar : Grammar}
    (h : profile.table.grammar? (normalName key.text) = some grammar)
    (value : String) :
    (Resolver.value ⟨profile.surface, strategy⟩ key value).value =
      ((preferredForms value).findSome? grammar.accept?).elim .unsupported
        .supported := by
  apply ValueResolution.eq_of_supported_iff
  intro kept
  rw [value_eq_supported_iff, findSome?_accept?_iff]
  cases hfound : (preferredForms value).findSome? grammar.accept? <;>
    simp [h, hfound]

/-- There is a profile of a single property, whatever its grammar allows. -/
theorem Profile.exists_single (property : String) (grammar : Grammar)
    (hnormal : normalName property = property) (hne : property ≠ "")
    (hgrammar : grammar.isEmpty = false) :
    ∃ profile : Profile, profile.table.grammar? property = some grammar := by
  let table : PropertyTable :=
    ⟨[(property, grammar)], by simp, by simpa using hnormal,
      by simpa using hne, by simpa using hgrammar⟩
  exact ⟨.ofTable property "" table, by simp [PropertyTable.grammar?, table]⟩

end StyleProbe
