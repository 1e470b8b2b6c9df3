import Mathlib.Data.List.Induction
import StyleProbe.Proofs.Profile.Declared
import StyleProbe.Surface.Probing

/-!
# What a probe remembers

A probe of a profile remembers, for each property, the last value that the
property's grammar accepted since the probe was taken, and nothing else. All
spellings of a property lead to one place, its normal name, on which the
writing, the reading and the table of grammars agree. The step lemma
`held?_stepProbe` says what one step does to one property, and
`held?_probeAfter` follows it through a run.

Main statement: `read_runProbe`.
-/

namespace StyleProbe.Profile

variable (profile : Profile) {name kept : String}

/-! ## Accepted assignments -/

/-- The step assigns the property of that normal name, in any spelling, a
value that its grammar accepts and keeps as `kept`. -/
def Keeps (name kept : String) : ProbeStep → Prop
  | .assign property value =>
    normalName property = name ∧
      ∃ grammar, profile.table.grammar? name = some grammar ∧
        grammar.accept? value = some kept
  | _ => False

/-- The most recent accepted assignment to the property, since the last new
probe, is kept as `kept`. -/
def LastKept (name kept : String) (steps : List ProbeStep) : Prop :=
  ∃ before step after, steps = before ++ step :: after ∧
    profile.Keeps name kept step ∧
    ∀ later ∈ after, later ≠ .renew ∧ ∀ other, ¬ profile.Keeps name other later

variable {profile}

theorem accept?_eq_some_iff {value : String} :
    profile.accept? name value = some kept ↔
      ∃ grammar, profile.table.grammar? name = some grammar ∧
        grammar.accept? value = some kept :=
  Option.bind_eq_some_iff

/-- The last step decides, unless it leaves the property alone. -/
theorem lastKept_concat {steps : List ProbeStep} {step : ProbeStep} :
    profile.LastKept name kept (steps ++ [step]) ↔
      profile.Keeps name kept step ∨
        (step ≠ .renew ∧ ∀ other, ¬ profile.Keeps name other step) ∧
          profile.LastKept name kept steps := by
  constructor
  · rintro ⟨before, kind, after, hsteps, hkeeps, hafter⟩
    rcases List.eq_nil_or_concat after with rfl | ⟨more, last, rfl⟩
    · obtain ⟨-, hstep⟩ := List.append_inj' hsteps rfl
      obtain rfl := List.singleton_inj.mp hstep
      exact .inl hkeeps
    · rw [List.concat_eq_append, ← List.cons_append, ← List.append_assoc]
        at hsteps
      obtain ⟨rfl, hstep⟩ := List.append_inj' hsteps rfl
      obtain rfl := List.singleton_inj.mp hstep
      refine .inr ⟨hafter step (by simp), before, kind, more, rfl, hkeeps, ?_⟩
      exact fun later hlater => hafter later (by simp [hlater])
  · rintro (hkeeps | ⟨hstep, before, kind, after, rfl, hkeeps, hafter⟩)
    · exact ⟨steps, step, [], rfl, hkeeps, by simp⟩
    · refine ⟨before, kind, after ++ [step], by simp, hkeeps, ?_⟩
      intro later hlater
      rcases List.mem_append.mp hlater with hlater | hlater
      · exact hafter later hlater
      · rwa [List.mem_singleton.mp hlater]

/-! ## Steps and runs -/

/-- What the probe holds for the property of that normal name. -/
def held? (profile : Profile) (probe : profile.surface.Probe)
    (name : String) : Option String :=
  List.lookup name probe

theorem read_eq_held? (probe : profile.surface.Probe) (property : String) :
    profile.surface.read probe property =
      (profile.held? probe (normalName property)).getD "" := rfl

/-- What is not accepted leaves the whole probe as it is. -/
theorem assign_refused {property value : String}
    (h : profile.accept? (normalName property) value = none)
    (probe : profile.surface.Probe) :
    profile.surface.assign probe property value = probe := by
  simp only [surface, h]
  rfl

theorem held?_assign_self {property value : String}
    (h : profile.accept? (normalName property) value = some kept)
    (probe : profile.surface.Probe) :
    profile.held? (profile.surface.assign probe property value)
      (normalName property) = some kept := by
  simp only [held?, surface, h]
  exact lookup_put_self ..

theorem held?_assign_of_ne {property : String}
    (h : normalName property ≠ name) (value : String)
    (probe : profile.surface.Probe) :
    profile.held? (profile.surface.assign probe property value) name =
      profile.held? probe name := by
  simp only [held?, surface]
  cases profile.accept? (normalName property) value with
  | none => rfl
  | some text => exact lookup_put_of_ne text probe (Ne.symm h)

/-- **One step**: an accepted assignment to the property is remembered, a new
probe has forgotten it, and everything else leaves it alone. -/
theorem held?_stepProbe (probe : profile.surface.Probe) (step : ProbeStep) :
    profile.held? (profile.surface.stepProbe probe step) name = some kept ↔
      profile.Keeps name kept step ∨
        (step ≠ .renew ∧ ∀ other, ¬ profile.Keeps name other step) ∧
          profile.held? probe name = some kept := by
  cases step with
  | assign property value =>
    by_cases hname : normalName property = name
    · subst hname
      simp only [Keeps, ← accept?_eq_some_iff, Surface.stepProbe]
      cases haccept : profile.accept? (normalName property) value with
      | none => simp [assign_refused haccept]
      | some text => simp [held?_assign_self haccept]
    · simp [Keeps, hname, Surface.stepProbe, held?_assign_of_ne hname]
  | read property => simp [Keeps, Surface.stepProbe]
  | renew => simp [Keeps, Surface.stepProbe, held?, surface]

/-- **A run**: a probe holds for a property what was kept last. -/
theorem held?_probeAfter (steps : List ProbeStep) :
    profile.held? (profile.surface.probeAfter profile.surface.fresh steps)
        name = some kept ↔
      profile.LastKept name kept steps := by
  -- On the last step, since the most recent assignment decides.
  induction steps using List.reverseRecOn generalizing kept with
  | nil => simp [LastKept, Surface.probeAfter, held?, surface]
  | append_singleton steps step ih =>
    rw [Surface.probeAfter_concat, held?_stepProbe, lastKept_concat, ih]

/-! ## What is read -/

/-- **A probe remembers exactly the last accepted assignment**: reading a
property, in any spelling, at any place in a run gives what the grammar of its
normal name kept of the most recent value that it accepted for the property
since the last new probe, and the empty text if there is none. That grammar is
the one that the source of the profile declares for the name. A value that is
not accepted, by its grammar or for want of one, leaves the whole probe as it
is, and what is assigned to another property is not read. -/
theorem read_runProbe (profile : Profile) (before after : List ProbeStep)
    (property : String) :
    (∃ answer,
      (profile.surface.runProbe profile.surface.fresh
          (before ++ .read property :: after))[before.length]? =
        some (some answer) ∧
      (∀ kept, profile.LastKept (normalName property) kept before →
        answer = kept) ∧
      ((∀ kept, ¬ profile.LastKept (normalName property) kept before) →
        answer = "")) ∧
    (∀ source, ofSource source = .ok profile → ∀ grammar,
      profile.table.grammar? (normalName property) = some grammar ↔
        ∃ entry ∈ source.properties,
          normalName entry.name = normalName property ∧
            entry.grammar = grammar) ∧
    (∀ probe other value, profile.accept? (normalName other) value = none →
      profile.surface.assign probe other value = probe) ∧
    (∀ probe other value, normalName other ≠ normalName property →
      profile.surface.read (profile.surface.assign probe other value)
          property =
        profile.surface.read probe property) := by
  have hshown : (profile.surface.runProbe profile.surface.fresh
      (before ++ .read property :: after))[before.length]? =
        some (some (profile.surface.read
          (profile.surface.probeAfter profile.surface.fresh before)
          property)) := by
    rw [Surface.runProbe_append, List.getElem?_append_right (by simp),
      Surface.length_runProbe, Nat.sub_self]
    rfl
  refine ⟨⟨_, hshown, ?_, ?_⟩, ?_, ?_, ?_⟩
  · intro kept hkept
    rw [read_eq_held?, (held?_probeAfter before).mpr hkept, Option.getD_some]
  · intro hnone
    have hheld : profile.held? (profile.surface.probeAfter
        profile.surface.fresh before) (normalName property) = none :=
      Option.eq_none_iff_forall_ne_some.mpr fun kept hkept =>
        hnone kept ((held?_probeAfter before).mp hkept)
    rw [read_eq_held?, hheld, Option.getD_none]
  · exact fun source hsource grammar =>
      grammar?_eq_some_iff_of_source hsource
  · exact fun probe other value hrefused => assign_refused hrefused probe
  · intro probe other value hne
    rw [read_eq_held?, read_eq_held?, held?_assign_of_ne hne]

/-- A keyword stays when a later one is refused, and is read in another
spelling of the property. -/
theorem read_runProbe_box :
    ∃ profile,
      ofSource {
        name := "boxes"
        properties := [
          { name := " Display", keywords := ["block", "-webkit-box"] }] } =
        .ok profile ∧
      profile.LastKept (normalName "DISPLAY ") "-webkit-box"
        [.assign "display" "-WebKit-Box", .assign "display" "box"] ∧
      (profile.surface.runProbe profile.surface.fresh
        [.assign "display" "-WebKit-Box", .assign "display" "box",
          .read "DISPLAY "])[2]? = some (some "-webkit-box") := by
  let grammar : Grammar := .ofLists ["block", "-webkit-box"] [] []
  obtain ⟨profile, hprofile⟩ : ∃ profile, ofSource {
      name := "boxes"
      properties := [
        { name := " Display", keywords := ["block", "-webkit-box"] }] } =
      .ok profile := ⟨_, rfl⟩
  have hname : normalName " Display" = normalName "DISPLAY " := by
    decide +kernel
  have hgrammar : profile.table.grammar? (normalName "DISPLAY ") =
      some grammar :=
    (grammar?_eq_some_iff_of_source hprofile).mpr
      ⟨_, List.mem_singleton_self _, hname, rfl⟩
  have hkept : grammar.accept? "-WebKit-Box" = some "-webkit-box" := by
    decide +kernel
  have hrefused : grammar.accept? "box" = none := by decide +kernel
  have hlast : profile.LastKept (normalName "DISPLAY ") "-webkit-box"
      [.assign "display" "-WebKit-Box", .assign "display" "box"] := by
    refine ⟨[], _, [_], rfl, ⟨by decide +kernel, _, hgrammar, hkept⟩, ?_⟩
    intro later hlater
    obtain rfl := List.mem_singleton.mp hlater
    refine ⟨by simp, ?_⟩
    rintro other ⟨-, _, hfound, hother⟩
    cases hgrammar.symm.trans hfound
    cases hrefused.symm.trans hother
  obtain ⟨⟨answer, hshown, hanswer, -⟩, -⟩ := read_runProbe profile
    [.assign "display" "-WebKit-Box", .assign "display" "box"] [] "DISPLAY "
  rw [hanswer _ hlast] at hshown
  exact ⟨profile, hprofile, hlast, hshown⟩

end StyleProbe.Profile
