import StyleProbe.Surface

/-!
# Working with a probe

A sequence of steps with one probe at a time: values are assigned, properties
are read, and a probe can be given up for a fresh one. A run shows what each
step reads.

Main statement: `runProbe_append`.
-/

namespace StyleProbe

/-- One step with the probe at hand. -/
inductive ProbeStep where
  | assign (property value : String)
  | read (property : String)
  | renew
deriving DecidableEq

namespace Surface

variable (surface : Surface)

/-- The probe after a step. Reading leaves it as it is. -/
def stepProbe (probe : surface.Probe) : ProbeStep → surface.Probe
  | .assign property value => surface.assign probe property value
  | .read _ => probe
  | .renew => surface.fresh

/-- What a step reads, if it reads anything. -/
def shown? (probe : surface.Probe) : ProbeStep → Option String
  | .read property => some (surface.read probe property)
  | _ => none

/-- The probe after several steps. -/
def probeAfter (probe : surface.Probe) (steps : List ProbeStep) :
    surface.Probe :=
  steps.foldl surface.stepProbe probe

theorem probeAfter_concat (probe : surface.Probe) (steps : List ProbeStep)
    (step : ProbeStep) :
    surface.probeAfter probe (steps ++ [step]) =
      surface.stepProbe (surface.probeAfter probe steps) step := by
  rw [probeAfter, List.foldl_append]
  rfl

/-- Takes the steps in order and shows what each reads. -/
def runProbe : surface.Probe → List ProbeStep → List (Option String)
  | _, [] => []
  | probe, step :: steps =>
    surface.shown? probe step :: runProbe (surface.stepProbe probe step) steps

@[simp] theorem length_runProbe (probe : surface.Probe)
    (steps : List ProbeStep) :
    (surface.runProbe probe steps).length = steps.length := by
  induction steps generalizing probe with
  | nil => rfl
  | cons step steps ih => simp [runProbe, ih]

/-- Further steps go on with the probe that the first ones leave. -/
theorem runProbe_append (probe : surface.Probe)
    (steps more : List ProbeStep) :
    surface.runProbe probe (steps ++ more) =
      surface.runProbe probe steps ++
        surface.runProbe (surface.probeAfter probe steps) more := by
  induction steps generalizing probe with
  | nil => rfl
  | cons step steps ih =>
    rw [List.cons_append, runProbe, runProbe, ih, List.cons_append, probeAfter,
      probeAfter, List.foldl_cons]

end Surface

end StyleProbe
