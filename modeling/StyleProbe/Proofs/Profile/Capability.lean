import StyleProbe.Proofs.Profile.PrefixedForms
import StyleProbe.Proofs.Profile.Recognition
import StyleProbe.Query

/-!
# More capable environments

One environment is within another if the other declares all its properties
and allows at least the same keywords, functions and types for each. What the
first one supports the second one supports too. The text that is kept need
not be the same, and a name may be found earlier in the search: what carries
over is that a value is accepted and that a key is recognized.

Main statements: `Grammar.Within.accept?` (one value on one grammar),
`Resolver.prefixed_of_recognizes` (the search for a name on any two surfaces)
and `Profile.Within.resolver_within` (all three questions).
-/

namespace StyleProbe

open Css (Component)

/-! ## Grammars -/

namespace Grammar

/-- Whatever one grammar allows, the other one allows too. -/
structure Within (g g' : Grammar) : Prop where
  keywords : g.keywords ⊆ g'.keywords
  functions : g.functions ⊆ g'.functions
  types : g.types ⊆ g'.types

instance (g g' : Grammar) : Decidable (g.Within g') :=
  decidable_of_iff
    ((∀ k ∈ g.keywords, k ∈ g'.keywords) ∧
      (∀ f ∈ g.functions, f ∈ g'.functions) ∧ ∀ t ∈ g.types, t ∈ g'.types)
    ⟨fun ⟨hk, hf, ht⟩ => ⟨@hk, @hf, @ht⟩,
      fun h => ⟨@h.keywords, @h.functions, @h.types⟩⟩

/-- A single component value is accepted as a keyword, as a function or as a
value of some type. The order of the types only decides the text. -/
theorem isSome_acceptOne?_iff {g : Grammar} {value : Component} :
    (g.acceptOne? value).isSome = true ↔
      (g.keyword? value).isSome = true ∨ g.allowsFunction value = true ∨
        ∃ type ∈ g.types, (type.accept? value).isSome = true := by
  unfold acceptOne?
  cases g.keyword? value with
  | some lower => simp
  | none =>
    cases g.allowsFunction value with
    | true => simp
    | false => simp [List.findSome?_isSome_iff]

/-- Several component values are accepted as a free value, or if each is an
allowed function. -/
theorem isSome_accept?_iff {g : Grammar} {value : String} :
    (g.accept? value).isSome = true ↔
      ∃ values, Component.parseValue value = .ok values ∧
        match values.filter (fun v => !v.isWhitespace) with
        | [] => False
        | [single] => (g.acceptOne? single).isSome = true
        | several =>
          .any ∈ g.types ∨ ∀ v ∈ several, g.allowsFunction v = true := by
  unfold accept?
  cases hvalues : Component.parseValue value with
  | error e => simp
  | ok values =>
    simp only [Except.ok.injEq, exists_eq_left']
    generalize values.filter (fun v => !v.isWhitespace) = solid
    rcases solid with - | ⟨first, - | ⟨second, rest⟩⟩
    · simp
    · rfl
    · simp

namespace Within

variable {g g' : Grammar}

theorem keyword? (h : g.Within g') {value : Component}
    (hkeyword : (g.keyword? value).isSome = true) :
    (g'.keyword? value).isSome = true := by
  cases value with
  | token t =>
    cases t with
    | ident name =>
      simp only [Grammar.keyword?, Option.isSome_ite, Bool.or_eq_true,
        List.contains_iff_mem] at hkeyword ⊢
      exact hkeyword.imp id (@h.keywords _)
    | _ => cases hkeyword
  | function name body => cases hkeyword
  | block bracket body => cases hkeyword

theorem allowsFunction (h : g.Within g') {value : Component}
    (hallows : g.allowsFunction value = true) :
    g'.allowsFunction value = true := by
  cases value with
  | token t => cases hallows
  | function name body =>
    simp only [Grammar.allowsFunction, List.contains_iff_mem] at hallows ⊢
    exact h.functions hallows
  | block bracket body => cases hallows

theorem acceptOne? (h : g.Within g') {value : Component}
    (haccept : (g.acceptOne? value).isSome = true) :
    (g'.acceptOne? value).isSome = true := by
  rw [isSome_acceptOne?_iff] at haccept ⊢
  rcases haccept with hkeyword | hallows | ⟨type, htype, haccept⟩
  · exact .inl (h.keyword? hkeyword)
  · exact .inr (.inl (h.allowsFunction hallows))
  · exact .inr (.inr ⟨type, h.types htype, haccept⟩)

/-- What a grammar accepts is accepted by every grammar that it is within. -/
theorem accept? (h : g.Within g') {value : String}
    (haccept : (g.accept? value).isSome = true) :
    (g'.accept? value).isSome = true := by
  obtain ⟨values, hvalues, hcase⟩ := isSome_accept?_iff.mp haccept
  refine isSome_accept?_iff.mpr ⟨values, hvalues, ?_⟩
  split at hcase
  · exact hcase
  · exact h.acceptOne? hcase
  · rcases hcase with hany | hall
    · exact .inl (h.types hany)
    · exact .inr fun v hv => h.allowsFunction (hall v hv)

end Within

end Grammar

/-! ## The search for a name -/

theorem exists_find?_of_imp {α : Type} [BEq α] [LawfulBEq α]
    {p q : α → Bool} (h : ∀ x, p x = true → q x = true) {x : α} {l : List α}
    (hx : l.find? p = some x) :
    ∃ y, l.find? q = some y ∧ l.idxOf y ≤ l.idxOf x := by
  induction l with
  | nil => cases hx
  | cons first rest ih =>
    cases hq : q first with
    | true => exact ⟨first, List.find?_cons_of_pos hq, by simp⟩
    | false =>
      have hp : ¬ p first = true := fun hp => by simp [h first hp] at hq
      rw [List.find?_cons_of_neg hp] at hx
      obtain ⟨y, hy, hle⟩ := ih hx
      have hne : first ≠ x := by
        rintro rfl
        exact hp (List.find?_some hx)
      have hne' : first ≠ y := by
        rintro rfl
        simp [List.find?_some hy] at hq
      refine ⟨y, ?_, ?_⟩
      · rw [List.find?_cons_of_neg (by simp [hq]), hy]
      · rw [List.idxOf_cons, List.idxOf_cons, beq_false_of_ne hne,
          beq_false_of_ne hne']
        exact Nat.succ_le_succ hle

namespace Resolver

/-- Whatever one resolver supports, the other one supports too, and it finds
names no later in the search: the name itself where the first one does, and
otherwise the name itself or the form of a vendor that comes no later. So it
has an answer to both questions together where the first one has. -/
structure Within (resolver resolver' : Resolver) : Prop where
  value : ∀ key value, (resolver.value key value).value.isSupported = true →
    (resolver'.value key value).value.isSupported = true
  name : ∀ key, (resolver.name key).value.isSupported = true →
    (resolver'.name key).value.isSupported = true
  native : ∀ key text, (resolver.name key).value = .native text →
    (resolver'.name key).value = .native text
  prefixed : ∀ key vendor text,
    (resolver.name key).value = .prefixed vendor text →
      (resolver'.name key).value = .native key.text ∨
        ∃ vendor', (resolver'.name key).value =
            .prefixed vendor' (key.vendorText vendor') ∧
          Vendor.all.idxOf vendor' ≤ Vendor.all.idxOf vendor
  resolve : ∀ key value,
    ((Query.resolve key value).answer resolver).value ≠ .unsupported →
      ((Query.resolve key value).answer resolver').value ≠ .unsupported

variable {resolver resolver' : Resolver}

theorem resolve_ne_unsupported_iff {key : PropertyName} {value : String} :
    ((Query.resolve key value).answer resolver).value ≠ .unsupported ↔
      (resolver.name key).value.isSupported = true ∨
        (resolver.value key value).value.isSupported = true := by
  simp only [Query.resolve, Query.answer, Traced.value_bind]
  cases (resolver.name key).value with
  | native text => simp [Query.answer, PropertyResolution.isSupported]
  | prefixed vendor text =>
    simp [Query.answer, PropertyResolution.isSupported]
  | unsupported =>
    cases hvalue : (resolver.value key value).value with
    | supported kept =>
      simp [Query.answer, hvalue, Resolution.ofValue,
        ValueResolution.isSupported]
    | unsupported =>
      simp [Query.answer, hvalue, Resolution.ofValue,
        PropertyResolution.isSupported, ValueResolution.isSupported]

section Recognizes

variable (hkeys : ∀ key, resolver.surface.recognizes key = true →
  resolver'.surface.recognizes key = true)

include hkeys

/-- Where more keys are recognized, a native name stays native. -/
theorem native_of_recognizes
    {key : PropertyName} {text : String}
    (hname : (resolver.name key).value = .native text) :
    (resolver'.name key).value = .native text := by
  have htext : key.text = text := by
    rw [value_name] at hname
    split at hname
    · exact PropertyResolution.native.inj hname
    · split at hname <;> cases hname
  rw [← htext] at hname ⊢
  rw [value_name_eq_native_iff] at hname ⊢
  exact hkeys key.camelKey hname

/-- Where more keys are recognized, a vendor's form is found at the same
vendor or before. -/
theorem prefixed_of_recognizes
    {key : PropertyName} {vendor : Vendor} {text : String}
    (hname : (resolver.name key).value = .prefixed vendor text) :
    (resolver'.name key).value = .native key.text ∨
      ∃ vendor', (resolver'.name key).value =
          .prefixed vendor' (key.vendorText vendor') ∧
        Vendor.all.idxOf vendor' ≤ Vendor.all.idxOf vendor := by
  have hfound : Vendor.all.find?
      (fun vendor => resolver.surface.recognizes (key.vendorKey vendor)) =
        some vendor := by
    rw [value_name] at hname
    split at hname
    · cases hname
    · split at hname
      · rename_i found hfound
        obtain ⟨rfl, -⟩ := PropertyResolution.prefixed.inj hname
        exact hfound
      · cases hname
  cases hown : resolver'.surface.recognizes key.camelKey with
  | true => exact .inl ((value_name_eq_native_iff resolver' key).mpr hown)
  | false =>
    obtain ⟨vendor', hfound', hle⟩ := exists_find?_of_imp
      (fun vendor => hkeys (key.vendorKey vendor)) hfound
    refine .inr ⟨vendor', ?_, hle⟩
    rw [value_name, if_neg (by simp [hown]), hfound']

theorem within_of_recognizes
    (hvalues : ∀ key value,
      (resolver.value key value).value.isSupported = true →
        (resolver'.value key value).value.isSupported = true) :
    resolver.Within resolver' := by
  have hnames : ∀ key, (resolver.name key).value.isSupported = true →
      (resolver'.name key).value.isSupported = true := by
    intro key hname
    cases hfound : (resolver.name key).value with
    | native text =>
      rw [native_of_recognizes hkeys hfound]
      rfl
    | prefixed vendor text =>
      rcases prefixed_of_recognizes hkeys hfound with hown |
        ⟨vendor', hvendor', -⟩
      · rw [hown]
        rfl
      · rw [hvendor']
        rfl
    | unsupported =>
      rw [hfound] at hname
      cases hname
  refine ⟨hvalues, hnames, fun _ _ => native_of_recognizes hkeys,
    fun _ _ _ => prefixed_of_recognizes hkeys, ?_⟩
  intro key value hresolve
  rw [resolve_ne_unsupported_iff] at hresolve ⊢
  exact hresolve.imp (hnames key) (hvalues key value)

end Recognizes

end Resolver

/-! ## Profiles -/

namespace Profile

/-- Every property of one profile is one of the other's, which allows at
least as much for it. -/
def Within (profile profile' : Profile) : Prop :=
  ∀ entry ∈ profile.table.entries,
    ∃ grammar' ∈ profile'.table.grammar? entry.1, entry.2.Within grammar'

instance (profile profile' : Profile) : Decidable (profile.Within profile') :=
  inferInstanceAs (Decidable (∀ entry ∈ profile.table.entries,
    ∃ grammar' ∈ profile'.table.grammar? entry.1, entry.2.Within grammar'))

theorem isSupported_value_iff (profile : Profile) (strategy : Strategy)
    (key : PropertyName) (value : String) :
    (Resolver.value ⟨profile.surface, strategy⟩ key value).value.isSupported =
        true ↔
      ∃ form ∈ preferredForms value,
        (profile.accept? (normalName key.text) form).isSome = true := by
  rw [← List.findSome?_isSome_iff, Option.isSome_iff_exists]
  simp only [← profile.value_eq_supported_iff strategy]
  cases (Resolver.value ⟨profile.surface, strategy⟩ key value).value with
  | supported kept => simp [ValueResolution.isSupported]
  | unsupported => simp [ValueResolution.isSupported]

namespace Within

variable {profile profile' : Profile}

theorem accept? (h : profile.Within profile') {property value : String}
    (haccept : (profile.accept? property value).isSome = true) :
    (profile'.accept? property value).isSome = true := by
  obtain ⟨kept, hkept⟩ := Option.isSome_iff_exists.mp haccept
  obtain ⟨grammar, hgrammar, hkept⟩ := Option.bind_eq_some_iff.mp hkept
  obtain ⟨grammar', hgrammar', hwithin⟩ :=
    h (property, grammar) (mem_of_lookup_eq_some hgrammar)
  rw [Profile.accept?, hgrammar']
  exact hwithin.accept? (Option.isSome_of_eq_some hkept)

theorem recognizes (h : profile.Within profile') {key : String}
    (hkey : profile.recognizes key = true) :
    profile'.recognizes key = true := by
  obtain ⟨property, hproperty, hstyle⟩ := recognizes_iff.mp hkey
  obtain ⟨entry, hentry, rfl⟩ := List.mem_map.mp hproperty
  obtain ⟨grammar', hgrammar', -⟩ := h entry hentry
  exact recognizes_iff.mpr
    ⟨entry.1, List.mem_map.mpr ⟨_, mem_of_lookup_eq_some hgrammar', rfl⟩,
      hstyle⟩

/-- **A more capable environment supports no less**, whichever way the two
are probed. -/
theorem resolver_within (h : profile.Within profile') (strategy : Strategy) :
    Resolver.Within ⟨profile.surface, strategy⟩
      ⟨profile'.surface, strategy⟩ := by
  refine Resolver.within_of_recognizes (fun key => h.recognizes) ?_
  intro key value hvalue
  rw [isSupported_value_iff] at hvalue ⊢
  obtain ⟨form, hform, haccept⟩ := hvalue
  exact ⟨form, hform, h.accept? haccept⟩

end Within

/-! ## Two generations of a host -/

/-- An environment that has a property under its last vendor only. -/
def earlySource : ProfileSource where
  name := "early"
  properties := [
    { name := "-o-filter", keywords := ["none"], functions := ["blur"] }]

/-- A later one, with the property itself and one more function. -/
def laterSource : ProfileSource where
  name := "later"
  properties := [
    { name := "filter", functions := ["blur", "sepia"] },
    { name := "-o-filter", keywords := ["auto", "none"]
      functions := ["sepia", "blur"] }]

/-- The later generation supports what the early one does. -/
theorem resolver_within_later :
    ∃ early later, ofSource earlySource = .ok early ∧
      ofSource laterSource = .ok later ∧ early.Within later ∧
      Resolver.Within ⟨early.surface, .isolated⟩ ⟨later.surface, .isolated⟩ := by
  refine ⟨_, _, rfl, rfl, ?_⟩
  refine (fun hwithin => ⟨hwithin, hwithin.resolver_within .isolated⟩) ?_
  decide +kernel

end Profile

end StyleProbe
