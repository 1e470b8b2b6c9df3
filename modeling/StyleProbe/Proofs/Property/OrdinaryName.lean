import StyleProbe.Proofs.Property.StyleKey

/-!
# Ordinary names and their keys

An ordinary name is made of words joined by hyphens, and it may stand after
a vendor prefix. In its style key every word starts with a capital, except
the first word of a name without prefix, and `-ms-` leaves no capital
either. So the words can be told apart again, and `spelled` reads the name
back from the key. Only `msFlex` could be the key of two names; the first
word `ms` is left to the vendor for that reason.

Main statements: `OrdinaryName.spelled_styleKey` and
`OrdinaryName.styleKey_inj` (no two of the names share a key).
-/

namespace StyleProbe

/-! ## Words -/

/-- A small letter, then small letters and digits. -/
structure Word where
  first : Char
  rest : List Char
  first_isLower : first.isLower = true
  rest_small : rest.all (fun c => c.isLower || c.isDigit) = true

namespace Word

variable (word : Word)

def chars : List Char := word.first :: word.rest

/-- The word with its first letter raised. -/
def raised : List Char := word.first.toUpper :: word.rest

theorem toNat_of_mem {c : Char} (h : c ∈ word.chars) :
    97 ≤ c.toNat ∧ c.toNat ≤ 122 ∨ 48 ≤ c.toNat ∧ c.toNat ≤ 57 := by
  rcases List.mem_cons.mp h with rfl | h
  · exact .inl (Text.isLower_iff_toNat.mp word.first_isLower)
  · have hsmall := List.all_eq_true.mp word.rest_small c h
    rcases Bool.or_eq_true_iff.mp hsmall with hlower | hdigit
    · exact .inl (Text.isLower_iff_toNat.mp hlower)
    · exact .inr (Char.isDigit_iff_toNat.mp hdigit)

theorem ne_hyphen_of_mem {c : Char} (h : c ∈ word.chars) : c ≠ '-' := by
  have hrange := word.toNat_of_mem h
  rintro rfl
  have hhyphen : '-'.toNat = 45 := rfl
  omega

theorem isUpper_of_mem {c : Char} (h : c ∈ word.chars) :
    c.isUpper = false := by
  have hrange := word.toNat_of_mem h
  rw [← Bool.not_eq_true, Text.isUpper_iff_toNat]
  omega

theorem isBlank_of_mem {c : Char} (h : c ∈ word.chars) :
    Text.isBlank c = false := by
  have hrange := word.toNat_of_mem h
  simp [Text.isBlank]
  omega

/-! ## Words in camel case -/

theorem camelChars_append (rest : List Char) :
    Text.camelChars (word.chars ++ rest) =
      word.chars ++ Text.camelChars rest := by
  apply Text.camelChars_append_of_no_hyphen
  intro c hc
  exact word.ne_hyphen_of_mem hc

/-- A word is raised without its hyphen, be it in camel case or at the front
of a key. -/
theorem upperChar_append_rest :
    Text.upperChar word.first ++ word.rest = word.raised := by
  rw [(Text.raised_of_isLower word.first_isLower).1]
  rfl

theorem camelChars_hyphen_append (rest : List Char) :
    Text.camelChars ('-' :: (word.chars ++ rest)) =
      word.raised ++ Text.camelChars rest := by
  have hword := Text.isWordChar_of_isLower word.first_isLower
  have hrest : ∀ c ∈ word.rest, c ≠ '-' := fun _ h =>
    word.ne_hyphen_of_mem (.tail _ h)
  rw [chars, List.cons_append, Text.camelChars_hyphen_word hword,
    Text.camelChars_append_of_no_hyphen hrest, ← List.append_assoc,
    upperChar_append_rest]

theorem capitalizeChars_append (rest : List Char) :
    Text.capitalizeChars (word.chars ++ rest) = word.raised ++ rest := by
  rw [chars, List.cons_append, Text.capitalizeChars, ← List.append_assoc,
    upperChar_append_rest]

end Word

/-! ## Reading a key back -/

/-- A capital stands for a hyphen and its small letter. -/
def unraised (key : List Char) : List Char :=
  key.flatMap fun c => if c.isUpper then ['-', c.toLower] else [c]

/-- The name that a key stands for. The key of an `-ms-` name starts with the
word `ms`, which no other name does. -/
def spelled (key : List Char) : List Char :=
  if key.takeWhile (fun c => !c.isUpper) = ['m', 's'] then
    '-' :: unraised key
  else unraised key

theorem unraised_append (key key' : List Char) :
    unraised (key ++ key') = unraised key ++ unraised key' := by
  simp [unraised]

theorem unraised_of_no_upper {key : List Char}
    (h : ∀ c ∈ key, c.isUpper = false) : unraised key = key := by
  induction key with
  | nil => rfl
  | cons c key ih =>
    have hkey := ih fun d hd => h d (.tail _ hd)
    unfold unraised at hkey ⊢
    simp [h c (by simp), hkey]

namespace Word

variable (word : Word)

theorem unraised_chars : unraised word.chars = word.chars :=
  unraised_of_no_upper fun _ h => word.isUpper_of_mem h

theorem unraised_raised : unraised word.raised = '-' :: word.chars := by
  obtain ⟨-, hupper, hlower⟩ := Text.raised_of_isLower word.first_isLower
  have hrest : unraised word.rest = word.rest :=
    unraised_of_no_upper fun _ h => word.isUpper_of_mem (.tail _ h)
  unfold unraised at hrest ⊢
  simp [raised, chars, hupper, hlower, hrest]

end Word

/-! ## Names -/

/-- Words joined by hyphens, the first of them not `ms`. -/
structure OrdinaryName where
  first : Word
  more : List Word
  first_ne : first.chars ≠ ['m', 's']

namespace OrdinaryName

variable (name : OrdinaryName)

def chars : List Char :=
  name.first.chars ++ name.more.flatMap fun word => '-' :: word.chars

def text : String := String.ofList name.chars

/-- The name as it is, or after a vendor prefix. -/
def written (lead : Option Vendor) : String :=
  match lead with
  | none => name.text
  | some vendor => vendor.hyphenLead ++ name.text

/-- The later words of a name as they are in its key. -/
def raisedMore : List Char := name.more.flatMap Word.raised

theorem camelChars_more (words : List Word) :
    Text.camelChars (words.flatMap fun word => '-' :: word.chars) =
      words.flatMap Word.raised := by
  induction words with
  | nil => rfl
  | cons word words ih =>
    rw [List.flatMap_cons, List.cons_append, word.camelChars_hyphen_append,
      ih, List.flatMap_cons]

theorem camelChars_chars :
    Text.camelChars name.chars = name.first.chars ++ name.raisedMore := by
  rw [chars, name.first.camelChars_append, camelChars_more, raisedMore]

theorem unraised_raisedMore :
    unraised name.raisedMore =
      name.more.flatMap fun word => '-' :: word.chars := by
  unfold raisedMore
  induction name.more with
  | nil => rfl
  | cons word words ih =>
    rw [List.flatMap_cons, unraised_append, word.unraised_raised, ih,
      List.flatMap_cons]

theorem isBlank_of_mem {c : Char} (h : c ∈ name.chars) :
    Text.isBlank c = false := by
  rcases List.mem_append.mp h with hfirst | hmore
  · exact name.first.isBlank_of_mem hfirst
  · obtain ⟨word, -, hword⟩ := List.mem_flatMap.mp hmore
    rcases List.mem_cons.mp hword with rfl | hword
    · decide
    · exact word.isBlank_of_mem hword

theorem exists_propertyName :
    ∃ key, PropertyName.ofText? name.text = some key ∧
      key.text = name.text := by
  have htrim : Text.trim name.text = name.text := by
    rw [text, Text.trim, String.toList_ofList, trimBy_eq_self]
    · intro c hc
      exact name.isBlank_of_mem (List.mem_of_mem_head? hc)
    · intro c hc
      exact name.isBlank_of_mem (List.mem_of_mem_getLast? hc)
  have hne : name.text ≠ "" := by
    intro h
    have hchars : name.chars = [] := by
      rw [← String.toList_ofList (l := name.chars)]
      exact congrArg String.toList h
    cases hchars
  have hkey := PropertyName.ofText?_text ⟨name.text, htrim, hne⟩
  exact ⟨_, hkey, rfl⟩

/-- A name starts with a small letter, so it has no vendor prefix. -/
theorem keyedPlainly_text : KeyedPlainly name.text := by
  intro vendor rest h
  have hchars : name.chars = vendor.hyphenLead.toList ++ rest.toList := by
    rw [← String.toList_append, ← h, text, String.toList_ofList]
  have hhead : name.chars.head? = some name.first.first := rfl
  have hhyphen : name.chars.head? = some '-' := by
    rw [hchars]
    cases vendor <;> rfl
  have hne := name.first.ne_hyphen_of_mem (List.mem_cons_self ..)
  rw [hhead] at hhyphen
  exact absurd (Option.some.inj hhyphen) hne

/-! ## Keys -/

theorem toList_styleKey_text :
    (styleKey name.text).toList = name.first.chars ++ name.raisedMore := by
  rw [styleKey_eq_camelCase_iff.mpr name.keyedPlainly_text, Text.camelCase,
    text, String.toList_ofList, String.toList_ofList, name.camelChars_chars]

theorem toList_styleKey_hyphenLead (vendor : Vendor) :
    (styleKey (vendor.hyphenLead ++ name.text)).toList =
      vendor.camelLead.toList ++ (name.first.raised ++ name.raisedMore) := by
  rw [styleKey_hyphenLead, Text.capitalize, Text.camelCase, text]
  simp [name.camelChars_chars, name.first.capitalizeChars_append]

theorem takeWhile_raisedMore :
    name.raisedMore.takeWhile (fun c => !c.isUpper) = [] := by
  unfold raisedMore
  cases name.more with
  | nil => rfl
  | cons word words =>
    simp [Word.raised, (Text.raised_of_isLower word.first_isLower).2.1]

/-- A name without prefix is read back, since its key starts with its own
first word. -/
theorem spelled_text :
    spelled (name.first.chars ++ name.raisedMore) = name.chars := by
  have hsmall : ∀ c ∈ name.first.chars, (!c.isUpper) = true := by
    intro c hc
    simp [name.first.isUpper_of_mem hc]
  have hfirst : (name.first.chars ++ name.raisedMore).takeWhile
      (fun c => !c.isUpper) ≠ ['m', 's'] := by
    rw [List.takeWhile_append_of_pos hsmall, name.takeWhile_raisedMore,
      List.append_nil]
    exact name.first_ne
  rw [spelled, if_neg hfirst, unraised_append, name.first.unraised_chars,
    name.unraised_raisedMore, chars]

theorem spelled_hyphenLead (vendor : Vendor) :
    spelled (vendor.camelLead.toList ++
        (name.first.raised ++ name.raisedMore)) =
      vendor.hyphenLead.toList ++ name.chars := by
  have hfirst : (name.first.raised ++ name.raisedMore).takeWhile
      (fun c => !c.isUpper) = [] := by
    simp [Word.raised, (Text.raised_of_isLower name.first.first_isLower).2.1]
  have hunraised : unraised (name.first.raised ++ name.raisedMore) =
      '-' :: name.chars := by
    rw [unraised_append, name.first.unraised_raised, name.unraised_raisedMore]
    rfl
  rw [spelled, unraised_append, hunraised]
  cases vendor <;>
    simp [Vendor.camelLead, Vendor.hyphenLead, unraised, hfirst]

/-- **A name is read back from its key**, with or without a vendor prefix. -/
theorem spelled_styleKey (lead : Option Vendor) :
    spelled (styleKey (name.written lead)).toList =
      (name.written lead).toList := by
  cases lead with
  | none =>
    rw [written, name.toList_styleKey_text, name.spelled_text, text,
      String.toList_ofList]
  | some vendor =>
    rw [written, name.toList_styleKey_hyphenLead,
      name.spelled_hyphenLead vendor, String.toList_append, text,
      String.toList_ofList]

/-- **No two names share a key.** -/
theorem styleKey_inj {lead lead' : Option Vendor} {name name' : OrdinaryName}
    (h : styleKey (name.written lead) = styleKey (name'.written lead')) :
    name.written lead = name'.written lead' := by
  apply String.toList_inj.mp
  rw [← name.spelled_styleKey lead, ← name'.spelled_styleKey lead', h]

end OrdinaryName

end StyleProbe
