import Mathlib.Data.List.Nodup
import StyleProbe.Resolver
import StyleProbe.Surface.Scripted

/-!
# Stickiness and strategy

A scripted probe keeps what it accepts word for word, so the answer to a value
is one of the forms that the script accepts, and stickiness decides which one.
On one probe the last accepted form replaces the earlier ones, unless the
probe is sticky and the first one stays. A probe of its own for each form is
written to only once, where stickiness makes no difference.

Main statement: `value_acceptedForms`.
-/

namespace StyleProbe

theorem head?_ne_getLast?_iff {α : Type _} {l : List α} (h : l.Nodup) :
    l.head? ≠ l.getLast? ↔ 2 ≤ l.length := by
  rcases l with _ | ⟨first, _ | ⟨second, rest⟩⟩
  · simp
  · simp
  · have hmem := List.getLast_mem (List.cons_ne_nil second rest)
    have hne : first ≠ (second :: rest).getLast (List.cons_ne_nil _ _) :=
      fun heq => (List.nodup_cons.mp h).1 (heq ▸ hmem)
    simp [List.getLast?_eq_some_getLast, hne]

namespace Script

variable (script : Script) (property : String)

/-! ## The accepted forms -/

/-- The forms of a value that the script accepts for the property, in write
order. -/
def acceptedForms (value : String) : List String :=
  ["-o-" ++ value, "-ms-" ++ value, "-moz-" ++ value, "-webkit-" ++ value,
    value].filter (script.accepted property)

theorem acceptedForms_eq (value : String) :
    script.acceptedForms property value =
      (Resolver.valueCandidates value).filter (script.accepted property) := by
  simp [acceptedForms, Resolver.valueCandidates, Vendor.valueLeads]

theorem nodup_acceptedForms (value : String) :
    (script.acceptedForms property value).Nodup := by
  have hinjective : Function.Injective (· ++ value) := by
    intro a b hab
    have hchars := congrArg String.toList hab
    rw [String.toList_append, String.toList_append] at hchars
    exact String.toList_inj.mp (List.append_cancel_right hchars)
  have hleads : Vendor.valueLeads.Nodup := by decide
  rw [acceptedForms_eq]
  exact (hleads.map hinjective).filter _

theorem ne_empty_of_mem_valueCandidates {value form : String}
    (h : value ≠ "") (hform : form ∈ Resolver.valueCandidates value) :
    form ≠ "" := by
  obtain ⟨lead, -, rfl⟩ := List.mem_map.mp hform
  exact fun hempty => h (String.append_eq_empty_iff.mp hempty).2

/-! ## One probe for all forms -/

/-- What a probe holds for the property after one write: what it held before
if that sticks or the form is not accepted. -/
theorem lookup_assign (held : List (String × String)) (form : String) :
    List.lookup property (script.surface.assign held property form) =
      if script.sticky && (held.lookup property).isSome then
        held.lookup property
      else if script.accepted property form then some form
      else held.lookup property := by
  simp only [surface]
  split
  · rfl
  split
  · exact lookup_put_self ..
  · rfl

/-- What a probe holds for the property after a list of writes: the first or
the last accepted form, and what it held before if that sticks or if there is
none. -/
theorem lookup_writeAll (forms : List String)
    (held : List (String × String)) :
    List.lookup property
        (script.surface.writeAll property forms held).value =
      if script.sticky then
        (held.lookup property).or
          (forms.filter (script.accepted property)).head?
      else
        (forms.filter (script.accepted property)).getLast?.or
          (held.lookup property) := by
  induction forms generalizing held with
  | nil =>
    have hkept : List.lookup property
        (script.surface.writeAll property [] held).value =
          held.lookup property := rfl
    cases script.sticky <;> simp [hkept]
  | cons form forms ih =>
    have hstep := ih (script.surface.assign held property form)
    rw [lookup_assign] at hstep
    refine hstep.trans ?_
    cases script.sticky <;> cases haccepted : script.accepted property form <;>
      cases held.lookup property <;>
      simp [haccepted, List.getLast?_cons]

theorem value_lastWritten (forms : List String) :
    (Resolver.lastWritten script.surface property forms).value =
      (if script.sticky then
        (forms.filter (script.accepted property)).head?
      else (forms.filter (script.accepted property)).getLast?).getD "" := by
  have hheld := script.lookup_writeAll property forms []
  rw [List.lookup_nil, Option.none_or, Option.or_none] at hheld
  exact congrArg (·.getD "") hheld

/-! ## A probe for each form -/

theorem read_assign_fresh (form : String) :
    script.surface.read
        (script.surface.assign script.surface.fresh property form) property =
      if script.accepted property form then form else "" := by
  have hheld := script.lookup_assign property [] form
  rw [List.lookup_nil, Option.isSome_none, Bool.and_false,
    if_neg Bool.false_ne_true] at hheld
  refine (congrArg (·.getD "") hheld).trans ?_
  cases script.accepted property form <;> rfl

theorem value_firstKept {forms : List String} (h : ∀ form ∈ forms, form ≠ "") :
    (Resolver.firstKept script.surface property forms).value =
      (forms.find? (script.accepted property)).getD "" := by
  rw [← List.findSome?_guard]
  apply Resolver.value_firstKept
  · intro form _
    rw [read_assign_fresh, Option.guard]
    cases script.accepted property form <;> rfl
  · intro form hform hempty
    obtain ⟨rfl, -⟩ := Option.guard_eq_some_iff.mp hempty
    exact h _ hform rfl

/-! ## Both strategies -/

theorem ofReading_form {value : String} (h : value ≠ "") {form : Option String}
    (hform : ∀ f ∈ form, f ∈ script.acceptedForms property value) :
    ValueResolution.ofReading (form.getD "") =
      form.elim .unsupported .supported := by
  cases form with
  | none => rfl
  | some form =>
    have hmem := hform form rfl
    rw [acceptedForms_eq] at hmem
    exact if_neg (ne_empty_of_mem_valueCandidates h (List.mem_filter.mp hmem).1)

/-- On probes of their own the last accepted form is found, sticky or not. -/
theorem value_isolated (key : PropertyName) {value : String} (h : value ≠ "") :
    (Resolver.value ⟨script.surface, .isolated⟩ key value).value =
      (script.acceptedForms key.text value).getLast?.elim .unsupported
        .supported := by
  have hforms : ∀ form ∈ (Resolver.valueCandidates value).reverse, form ≠ "" :=
    fun form hform =>
      ne_empty_of_mem_valueCandidates h (List.mem_reverse.mp hform)
  have hkept := script.value_firstKept key.text hforms
  rw [← List.getLast?_filter, ← acceptedForms_eq] at hkept
  refine (congrArg ValueResolution.ofReading hkept).trans ?_
  exact script.ofReading_form key.text h fun _ => List.mem_of_getLast?

/-- On one probe the last accepted form stays, or the first one if it
sticks. -/
theorem value_lastWriteWins (key : PropertyName) {value : String}
    (h : value ≠ "") :
    (Resolver.value ⟨script.surface, .lastWriteWins⟩ key value).value =
      (if script.sticky then (script.acceptedForms key.text value).head?
        else (script.acceptedForms key.text value).getLast?).elim .unsupported
          .supported := by
  have hkept :=
    script.value_lastWritten key.text (Resolver.valueCandidates value)
  rw [← acceptedForms_eq] at hkept
  refine (congrArg ValueResolution.ofReading hkept).trans ?_
  apply script.ofReading_form key.text h
  split
  · exact fun _ => List.mem_of_head?
  · exact fun _ => List.mem_of_getLast?

/-- **Stickiness decides which accepted form is the answer**, and nothing else
does. Probes of their own find the last form in write order on every surface.
One probe finds the last one too, unless it is sticky, when it finds the
first. So the strategies differ exactly on sticky surfaces that accept two
forms or more. -/
theorem value_acceptedForms (key : PropertyName) {value : String}
    (h : value ≠ "") :
    (∀ sticky, (Resolver.value ⟨surface { script with sticky }, .isolated⟩ key
        value).value =
      (script.acceptedForms key.text value).getLast?.elim .unsupported
        .supported) ∧
    (Resolver.value ⟨script.surface, .lastWriteWins⟩ key value).value =
      (if script.sticky then (script.acceptedForms key.text value).head?
        else (script.acceptedForms key.text value).getLast?).elim .unsupported
          .supported ∧
    ((Resolver.value ⟨script.surface, .lastWriteWins⟩ key value).value ≠
        (Resolver.value ⟨script.surface, .isolated⟩ key value).value ↔
      script.sticky = true ∧
        2 ≤ (script.acceptedForms key.text value).length) := by
  refine ⟨fun sticky => value_isolated { script with sticky } key h,
    script.value_lastWriteWins key h, ?_⟩
  rw [value_lastWriteWins script key h, value_isolated script key h,
    ← head?_ne_getLast?_iff (script.nodup_acceptedForms key.text value)]
  cases hsticky : script.sticky with
  | false => simp
  | true =>
    have hinjective : Function.Injective fun form : Option String =>
        form.elim ValueResolution.unsupported .supported := by
      intro a b hab
      cases a <;> cases b <;> simp_all
    simpa using hinjective.ne_iff

/-- `flex` on a sticky surface that accepts it with and without a prefix. -/
theorem value_acceptedForms_flex :
    ∃ (script : Script) (key : PropertyName),
      script = ⟨[], [("display", ["flex", "-webkit-flex"])], true⟩ ∧
      PropertyName.ofText? "display" = some key ∧ "flex" ≠ "" ∧
      script.acceptedForms key.text "flex" = ["-webkit-flex", "flex"] ∧
      (Resolver.value ⟨script.surface, .lastWriteWins⟩ key "flex").value =
        .supported "-webkit-flex" ∧
      (Resolver.value ⟨script.surface, .isolated⟩ key "flex").value =
        .supported "flex" := by
  let script : Script := ⟨[], [("display", ["flex", "-webkit-flex"])], true⟩
  let key : PropertyName := ⟨"display", by decide, by decide⟩
  have hvalue : "flex" ≠ "" := by decide
  have hforms : script.acceptedForms key.text "flex" =
      ["-webkit-flex", "flex"] := by decide
  obtain ⟨hisolated, hlast, -⟩ := value_acceptedForms script key hvalue
  rw [hforms] at hisolated hlast
  exact ⟨script, key, rfl, key.ofText?_text, hvalue, hforms, hlast,
    hisolated true⟩

end Script

end StyleProbe
