import StyleProbe.Proofs.Css.Token.Scanners
import StyleProbe.Vendor

/-!
# Texts with a vendor prefix

A vendor prefix is the start of a name, whatever follows it, and holds name
characters only. So the first token of a text that starts with a vendor prefix
is a name or a function, and its own name starts with that prefix.

Main statements: `takeName_hyphenLead` and `exists_first_of_hyphenLead`.
-/

namespace StyleProbe.Css

/-- The token is a name or a function, and its name starts with `lead`. -/
def Token.NamedFrom (lead : String) : Token → Prop
  | .ident name => ∃ rest, name = lead ++ rest
  | .function name => ∃ rest, name = lead ++ rest
  | _ => False

theorem isNameChar_of_mem_hyphenLead {vendor : Vendor} {c : Char}
    (h : c ∈ vendor.hyphenLead.toList) : isNameChar c = true := by
  have hall : vendor.hyphenLead.toList.all isNameChar = true := by
    cases vendor <;> decide
  exact List.all_eq_true.mp hall c h

theorem takeName_hyphenLead {vendor : Vendor} {cs name rest : List Char}
    (h : takeName cs = (name, rest)) :
    takeName (vendor.hyphenLead.toList ++ cs) =
      (vendor.hyphenLead.toList ++ name, rest) := by
  rw [takeName_append fun c => isNameChar_of_mem_hyphenLead, h]

theorem startsName_hyphenLead (vendor : Vendor) (cs : List Char) :
    startsName (vendor.hyphenLead.toList ++ cs) = true :=
  startsName_append (by cases vendor <;> decide) cs

theorem namedFrom_scanNameLike (vendor : Vendor) (cs : List Char) :
    (scanNameLike (vendor.hyphenLead.toList ++ cs)).1.NamedFrom
      vendor.hyphenLead := by
  have hname : String.ofList
        (takeName (vendor.hyphenLead.toList ++ cs)).1 =
      vendor.hyphenLead ++ String.ofList (takeName cs).1 := by
    rw [takeName_hyphenLead rfl, String.ofList_append, String.ofList_toList]
  unfold scanNameLike
  split
  · rename_i heq
    rw [heq] at hname
    exact ⟨_, hname⟩
  · rename_i heq
    rw [heq] at hname
    exact ⟨_, hname⟩

/-- **The first token of a text with a vendor prefix** is a name or a
function, and its name starts with that prefix. -/
theorem exists_first_of_hyphenLead {vendor : Vendor} {text : String}
    {tokens : List Token}
    (h : tokenize (vendor.hyphenLead ++ text) = .ok tokens) :
    ∃ first rest, tokens = first :: rest ∧
      first.NamedFrom vendor.hyphenLead := by
  have hnamed := namedFrom_scanNameLike vendor text.toList
  rw [tokenize, String.toList_append,
    tokenizeChars_of_startsName (startsName_hyphenLead vendor _)] at h
  obtain ⟨more, -, rfl⟩ := exists_of_map_cons_eq_ok h
  exact ⟨_, more, rfl, hnamed⟩

end StyleProbe.Css
