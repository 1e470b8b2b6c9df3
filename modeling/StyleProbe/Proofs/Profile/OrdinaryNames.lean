import StyleProbe.Proofs.Profile.Recognition
import StyleProbe.Proofs.Property.OrdinaryName

/-!
# Names in profiles of ordinary names

A profile is asked for keys, and answers for the names behind them. Where
all its properties are ordinary names, with or without a vendor prefix, the
keys stand for the names: a key is recognized exactly when its own name is
declared. So the search for a key is a search among the declared names,
stated by `Profile.declaredForm` without any key.

Main statement: `Profile.name_eq_declaredForm`.
-/

namespace StyleProbe

namespace Profile

variable {profile : Profile}

/-- All properties are ordinary names, as they are or after a vendor
prefix. -/
def OnlyOrdinary (profile : Profile) : Prop :=
  ∀ property ∈ profile.properties, ∃ (lead : Option Vendor)
    (name : OrdinaryName), property = name.written lead

/-- The form of a name that the profile declares: the name itself, or the
form of the first vendor that it declares. -/
def declaredForm (profile : Profile) (text : String) : PropertyResolution :=
  if text ∈ profile.properties then .native text
  else
    match [Vendor.webkit, .moz, .ms, .o].find?
        fun vendor => vendor.hyphenLead ++ text ∈ profile.properties with
    | some vendor => .prefixed vendor (vendor.hyphenLead ++ text)
    | none => .unsupported

theorem recognizes_styleKey_written (h : profile.OnlyOrdinary)
    (lead : Option Vendor) (name : OrdinaryName) :
    profile.recognizes (styleKey (name.written lead)) =
      decide (name.written lead ∈ profile.properties) := by
  rw [Bool.eq_iff_iff, recognizes_iff, decide_eq_true_iff]
  constructor
  · rintro ⟨property, hproperty, hkey⟩
    obtain ⟨lead', name', rfl⟩ := h property hproperty
    rwa [← OrdinaryName.styleKey_inj hkey]
  · intro hdeclared
    exact ⟨_, hdeclared, rfl⟩

/-- **A profile of ordinary names is faithful to them**: asked for an
ordinary name, it answers with the name itself if that is declared, and
otherwise with the form of the first vendor that is. -/
theorem name_eq_declaredForm (h : profile.OnlyOrdinary) (strategy : Strategy)
    (name : OrdinaryName) :
    ∃ key, PropertyName.ofText? name.text = some key ∧
      (Resolver.name ⟨profile.surface, strategy⟩ key).value =
        profile.declaredForm name.text := by
  obtain ⟨key, hkey, htext⟩ := name.exists_propertyName
  refine ⟨key, hkey, ?_⟩
  have hown : profile.surface.recognizes key.camelKey =
      decide (name.text ∈ profile.properties) := by
    rw [PropertyName.camelKey, htext,
      ← styleKey_eq_camelCase_iff.mpr name.keyedPlainly_text]
    exact recognizes_styleKey_written h none name
  have hvendor : ∀ vendor : Vendor,
      profile.surface.recognizes (key.vendorKey vendor) =
        decide (vendor.hyphenLead ++ name.text ∈ profile.properties) := by
    intro vendor
    rw [← key.styleKey_vendorText, PropertyName.vendorText, htext]
    exact recognizes_styleKey_written h (some vendor) name
  rw [Resolver.value_name]
  simp only [hown, hvendor, decide_eq_true_eq, htext, PropertyName.vendorText]
  rfl

/-! ## A host with vendors' names -/

def gridWord : Word := ⟨'g', ['r', 'i', 'd'], rfl, rfl⟩

def rowWord : Word := ⟨'r', ['o', 'w', '2'], rfl, rfl⟩

def gridName : OrdinaryName := ⟨gridWord, [], by decide⟩

def gridRowName : OrdinaryName := ⟨gridWord, [rowWord], by decide⟩

/-- A host with one name under two vendors and another under a third. -/
def gridSource : ProfileSource where
  name := "grid-host"
  properties := [
    { name := "-o-grid-row2", types := [.number] },
    { name := "-ms-grid-row2", types := [.number] },
    { name := "-webkit-grid", types := [.any] }]

/-- Nobody has the name itself and two vendors have a form of it: the first of
the two is taken, and the vendor of the shorter name is not. -/
theorem name_eq_declaredForm_gridRow :
    ∃ profile, ofSource gridSource = .ok profile ∧ profile.OnlyOrdinary ∧
      ∃ key, PropertyName.ofText? "grid-row2" = some key ∧
        (Resolver.name ⟨profile.surface, .isolated⟩ key).value =
          .prefixed .ms "-ms-grid-row2" := by
  refine ⟨_, rfl, ?_⟩
  generalize hprofile : Profile.ofTable _ _ _ = profile
  have hproperties : profile.properties =
      ["-ms-grid-row2", "-o-grid-row2", "-webkit-grid"] := by
    rw [← hprofile]
    decide +kernel
  have honly : profile.OnlyOrdinary := by
    intro property hproperty
    rw [hproperties] at hproperty
    rcases List.mem_cons.mp hproperty with rfl | hproperty
    · exact ⟨some .ms, gridRowName, by decide +kernel⟩
    rcases List.mem_cons.mp hproperty with rfl | hproperty
    · exact ⟨some .o, gridRowName, by decide +kernel⟩
    · obtain rfl := List.mem_singleton.mp hproperty
      exact ⟨some .webkit, gridName, by decide +kernel⟩
  refine ⟨honly, ?_⟩
  obtain ⟨key, hkey, hvalue⟩ :=
    name_eq_declaredForm honly .isolated gridRowName
  refine ⟨key, hkey, hvalue.trans ?_⟩
  unfold declaredForm
  rw [hproperties]
  decide +kernel

end Profile

end StyleProbe
