/-!
# Style surfaces

What a resolver asks an environment: which object keys it recognizes, and
what a detached element keeps of the values assigned to it. Assigning never
fails. A rejected value leaves what was there, and an accepted one may be
normalized.

Each call is noted, so that a computation on a surface is a value together
with the calls that were made for it, in order.

Main statements: the equations of `pure` and `bind` for values and calls.
-/

namespace StyleProbe

/-- An environment: its object keys, and how its detached elements, the
probes, take and give values. Reading what was never kept gives the empty
text. -/
structure Surface where
  Probe : Type
  recognizes : String → Bool
  fresh : Probe
  assign : Probe → String → String → Probe
  read : Probe → String → String

/-- One call on a surface. -/
inductive Call where
  | recognizes (key : String)
  | probe
  | assign (property value : String)
  | read (property : String)
deriving DecidableEq

/-- A value and the calls made for it, in order. -/
structure Traced (α : Type) where
  value : α
  calls : List Call

namespace Traced

variable {α β : Type}

instance : Monad Traced where
  pure a := ⟨a, []⟩
  bind x f := ⟨(f x.value).value, x.calls ++ (f x.value).calls⟩

@[simp] theorem value_pure (a : α) : (pure a : Traced α).value = a := rfl

@[simp] theorem calls_pure (a : α) : (pure a : Traced α).calls = [] := rfl

@[simp] theorem value_bind (x : Traced α) (f : α → Traced β) :
    (x >>= f).value = (f x.value).value := rfl

@[simp] theorem calls_bind (x : Traced α) (f : α → Traced β) :
    (x >>= f).calls = x.calls ++ (f x.value).calls := rfl

end Traced

namespace Surface

variable (surface : Surface)

/-- Asks whether the surface recognizes a key. -/
def ask (key : String) : Traced Bool :=
  ⟨surface.recognizes key, [.recognizes key]⟩

/-- Takes a fresh probe. -/
def newProbe : Traced surface.Probe :=
  ⟨surface.fresh, [.probe]⟩

/-- Writes a value to a probe. -/
def write (probe : surface.Probe) (property value : String) :
    Traced surface.Probe :=
  ⟨surface.assign probe property value, [.assign property value]⟩

/-- Writes several values to a probe, one after the other. -/
def writeAll (property : String) :
    List String → surface.Probe → Traced surface.Probe
  | [], probe => pure probe
  | value :: values, probe => do
    let probe ← surface.write probe property value
    writeAll property values probe

/-- Reads what a probe holds. -/
def readBack (probe : surface.Probe) (property : String) : Traced String :=
  ⟨surface.read probe property, [.read property]⟩

end Surface

end StyleProbe
