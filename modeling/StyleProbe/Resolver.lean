import StyleProbe.Property.Resolution
import StyleProbe.Surface

/-!
# Resolving names and values

Finds the name under which a surface knows a property and the form of a
value that it keeps. Both are searches through a list of candidates: the
bare form and the forms with a vendor prefix.

Main statement: `Resolver.value_firstKept` (what a search on fresh probes
finds).
-/

namespace StyleProbe

/-- How the candidates for a value are written to probes: all to one probe,
whatever survives being the answer, or each to a probe of its own, the best
one that is kept being the answer. -/
inductive Strategy where
  | lastWriteWins
  | isolated
deriving DecidableEq

namespace Strategy

def default : Strategy := lastWriteWins

def all : List Strategy := [lastWriteWins, isolated]

def text : Strategy → String
  | lastWriteWins => "last-write-wins"
  | isolated => "isolated"

end Strategy

/-- A surface and the way to probe it. -/
structure Resolver where
  surface : Surface
  strategy : Strategy

namespace Resolver

/-! ## Names -/

/-- The keys to ask for, with what each would mean: the property itself, and
then the vendors' forms in order. -/
def nameCandidates (key : PropertyName) :
    List (String × PropertyResolution) :=
  (key.camelKey, .native key.text) ::
    Vendor.all.map fun vendor =>
      (key.vendorKey vendor, .prefixed vendor (key.vendorText vendor))

/-- Asks for one key after the other and stops at the first that the surface
recognizes. -/
def firstRecognized (surface : Surface) :
    List (String × PropertyResolution) → Traced PropertyResolution
  | [] => pure .unsupported
  | (key, resolution) :: candidates => do
    if ← surface.ask key then return resolution
    else firstRecognized surface candidates

/-- The name under which the surface knows the property. -/
def name (resolver : Resolver) (key : PropertyName) :
    Traced PropertyResolution :=
  firstRecognized resolver.surface (nameCandidates key)

/-! ## Values -/

/-- The forms of a value in write order. -/
def valueCandidates (value : String) : List String :=
  Vendor.valueLeads.map (· ++ value)

/-- Writes all candidates to one probe and reads it once. A rejected write
leaves what an earlier one put there. -/
def lastWritten (surface : Surface) (property : String)
    (candidates : List String) : Traced String := do
  let probe ← surface.newProbe
  let probe ← surface.writeAll property candidates probe
  surface.readBack probe property

/-- Writes each candidate to a fresh probe and stops at the first that is
kept. -/
def firstKept (surface : Surface) (property : String) :
    List String → Traced String
  | [] => pure ""
  | candidate :: candidates => do
    let probe ← surface.newProbe
    let probe ← surface.write probe property candidate
    let kept ← surface.readBack probe property
    if kept = "" then firstKept surface property candidates
    else return kept

/-- Where a probe of its own keeps of each candidate what `keeps` says, the
first that is kept is found. -/
theorem value_firstKept {surface : Surface} {property : String}
    {keeps : String → Option String} {candidates : List String}
    (hread : ∀ candidate ∈ candidates,
      surface.read (surface.assign surface.fresh property candidate)
        property = (keeps candidate).getD "")
    (hne : ∀ candidate ∈ candidates, keeps candidate ≠ some "") :
    (firstKept surface property candidates).value =
      (candidates.findSome? keeps).getD "" := by
  induction candidates with
  | nil => rfl
  | cons candidate candidates ih =>
    have hrest := ih
      (fun other hother => hread other (List.mem_cons_of_mem _ hother))
      (fun other hother => hne other (List.mem_cons_of_mem _ hother))
    have hfirst := hread candidate List.mem_cons_self
    have hkept := hne candidate List.mem_cons_self
    simp only [firstKept, Surface.newProbe, Surface.write, Surface.readBack,
      Traced.value_bind, hfirst]
    cases hkeeps : keeps candidate with
    | none => simpa [hkeeps] using hrest
    | some kept =>
      have hsome : kept ≠ "" := fun hempty => hkept (by rw [hkeeps, hempty])
      simp [hkeeps, hsome]

/-- The form of the value that the surface keeps for the property. A probe of
its own is tried for the last write first, since that has the final say. -/
def value (resolver : Resolver) (key : PropertyName) (value : String) :
    Traced ValueResolution := do
  let candidates := valueCandidates value
  let kept ← match resolver.strategy with
    | .lastWriteWins =>
      lastWritten resolver.surface key.text candidates
    | .isolated =>
      firstKept resolver.surface key.text candidates.reverse
  return .ofReading kept

end Resolver

end StyleProbe
