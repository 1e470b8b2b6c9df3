import StyleProbe.Profile
import StyleProbe.Proofs.Profile.Stored
import StyleProbe.Resolver

/-!
# Agreement of the strategies on profiles

On a profile both ways of probing come to the same answer. Writing all
candidates to one probe leaves the last one that was accepted; trying each
on a probe of its own finds the first in reverse order that reads back as
something. Since nothing is ever kept as the empty text, a probe reads back
as something exactly when its candidate was accepted, and the two searches
are one.

The answer is stated without probes: `Profile.bestForm` tries the bare value
and then the vendors' forms on the grammar of the property.
-/

namespace StyleProbe

/-- The forms of a value, the one that is preferred first. -/
def preferredForms (value : String) : List String :=
  [value, "-webkit-" ++ value, "-moz-" ++ value, "-ms-" ++ value,
   "-o-" ++ value]

theorem preferredForms_eq (value : String) :
    preferredForms value =
      value :: Vendor.all.map fun vendor => vendor.hyphenLead ++ value := rfl

namespace Profile

variable (profile : Profile)

/-- What the environment keeps of a property's value: the first form that
the grammar of the property accepts. A property that is not declared keeps
nothing. -/
def bestForm (property value : String) : ValueResolution :=
  match profile.table.grammar? property with
  | none => .unsupported
  | some grammar =>
    match (preferredForms value).findSome? grammar.accept? with
    | some kept => .supported kept
    | none => .unsupported

theorem reverse_valueCandidates (value : String) :
    (Resolver.valueCandidates value).reverse = preferredForms value := by
  simp [Resolver.valueCandidates, Vendor.valueLeads, preferredForms]

theorem accept?_ne_empty {property value kept : String}
    (h : profile.accept? property value = some kept) : kept ≠ "" := by
  obtain ⟨grammar, -, hkept⟩ := Option.bind_eq_some_iff.mp h
  exact Grammar.accept?_ne_empty hkept

/-! ## One probe for all candidates -/

/-- What a probe holds for the property after a list of writes: the last
value that was accepted, or what it held before. -/
theorem lookup_writeAll (property : String) (candidates : List String)
    (held : List (String × String)) :
    List.lookup (normalName property)
        (profile.surface.writeAll property candidates held).value =
      (candidates.reverse.findSome?
        (profile.accept? (normalName property))).or
          (held.lookup (normalName property)) := by
  induction candidates generalizing held with
  | nil => rfl
  | cons candidate candidates ih =>
    have hstep := ih (profile.surface.assign held property candidate)
    rw [List.reverse_cons, List.findSome?_append, Option.or_assoc]
    refine hstep.trans (congrArg _ ?_)
    simp only [surface]
    cases haccept : profile.accept? (normalName property) candidate with
    | none => simp [haccept]
    | some kept => simp [haccept, lookup_put_self]

theorem value_lastWritten (property : String) (candidates : List String) :
    (Resolver.lastWritten profile.surface property candidates).value =
      (candidates.reverse.findSome?
        (profile.accept? (normalName property))).getD "" := by
  have hheld := profile.lookup_writeAll property candidates []
  rw [List.lookup_nil, Option.or_none] at hheld
  exact congrArg (·.getD "") hheld

/-! ## A probe for each candidate -/

/-- A fresh probe reads back as what was kept of the one value written to
it. -/
theorem read_assign_fresh (property candidate : String) :
    profile.surface.read
        (profile.surface.assign profile.surface.fresh property candidate)
        property =
      (profile.accept? (normalName property) candidate).getD "" := by
  simp only [surface]
  cases profile.accept? (normalName property) candidate with
  | none => rfl
  | some kept => simp [put]

theorem value_firstKept (property : String) (candidates : List String) :
    (Resolver.firstKept profile.surface property candidates).value =
      (candidates.findSome?
        (profile.accept? (normalName property))).getD "" := by
  apply Resolver.value_firstKept
  · exact fun candidate _ => profile.read_assign_fresh property candidate
  · exact fun candidate _ hempty => profile.accept?_ne_empty hempty rfl

/-! ## Both strategies -/

/-- A search through a profile's candidates is a search through the grammar
of the property. -/
theorem ofReading_findSome? (property value : String) :
    ValueResolution.ofReading
        (((preferredForms value).findSome?
          (profile.accept? property)).getD "") =
      profile.bestForm property value := by
  unfold bestForm
  cases hgrammar : profile.table.grammar? property with
  | none =>
    have hnone : profile.accept? property = fun _ => none := by
      funext candidate
      simp [accept?, hgrammar]
    have hall : (preferredForms value).findSome?
        (fun _ => (none : Option String)) = none := by simp
    rw [hnone, hall]
    rfl
  | some grammar =>
    have hsome : profile.accept? property = grammar.accept? := by
      funext candidate
      simp [accept?, hgrammar]
    rw [hsome]
    dsimp only
    cases hfound : (preferredForms value).findSome? grammar.accept? with
    | none => rfl
    | some kept =>
      obtain ⟨before, form, after, -, hkept, -⟩ :=
        List.findSome?_eq_some_iff.mp hfound
      exact if_neg (Grammar.accept?_ne_empty hkept)

/-- **The strategies agree on profiles**: whichever way a profile is probed,
the answer is the best form that the grammar of the trimmed, lowered key
accepts. -/
theorem value_eq_bestForm (strategy : Strategy) (key : PropertyName)
    (value : String) :
    (Resolver.value ⟨profile.surface, strategy⟩ key value).value =
      profile.bestForm (normalName key.text) value := by
  rw [← ofReading_findSome?, ← reverse_valueCandidates]
  cases strategy with
  | lastWriteWins =>
    exact congrArg ValueResolution.ofReading
      (profile.value_lastWritten key.text (Resolver.valueCandidates value))
  | isolated =>
    exact congrArg ValueResolution.ofReading
      (profile.value_firstKept key.text
        (Resolver.valueCandidates value).reverse)

end Profile

end StyleProbe
