import StyleProbe.Proofs.Css.Component.Tidy
import StyleProbe.Proofs.Css.Token.Lead

/-!
# Declaration values with a vendor prefix

A vendor prefix in front of a text becomes part of the name there. If nothing
follows that name, the prefixed text is a single name; if a parenthesis
follows, it is a function; if anything else does, it is several component
values of which the first is a name.

A declaration value and its text are alike in front when a prefix makes the
same of both. They are if the value starts with a name or a parenthesis, and
if it starts with a number they may not be unless it is written as it was
read.

Main statements: `parseValue_hyphenLead_lone` (a single name),
`exists_of_parseValue_hyphenLead` (several component values) and
`exists_parseValue_hyphenLead_call` (a function).
-/

namespace StyleProbe.Css

variable {vendor : Vendor} {cs name rest : List Char}

/-! ## Texts that are alike in front -/

/-- The name that the text is, the empty one included, if nothing follows it
but whitespace and comments. -/
def loneName? (cs : List Char) : Option (List Char) :=
  match tokenizeChars (takeName cs).2 with
  | .ok ts =>
    if ts.all (· == .whitespace) then some (takeName cs).1 else none
  | .error _ => none

theorem loneName?_eq {ts : List Token} (htaken : takeName cs = (name, rest))
    (h : tokenizeChars rest = .ok ts) :
    loneName? cs = if ts.all (· == .whitespace) then some name else none := by
  simp only [loneName?, htaken, h]

theorem loneName?_nil : loneName? [] = some [] := by
  have htaken : takeName [] = ([], []) := rfl
  have hnone : tokenizeChars [] = .ok [] := by rw [tokenizeChars]
  rw [loneName?_eq htaken hnone]
  rfl

/-- A prefix makes the same of what stands in front of the two texts: they are
the same text, or there is a name or a parenthesis in front of the one, which
the other has too, or the same name with nothing behind it, or a name with
something behind it that is no parenthesis. -/
inductive AlikeInFront (cs ds : List Char) : Prop where
  | same (h : ds = cs)
  | name (h : startsName cs = true)
  | call (h : cs.head? = some '(')
  | lone (hcs : (takeName cs).2.head? ≠ some '(')
      (hds : (takeName ds).2.head? ≠ some '(')
      (h : loneName? cs = loneName? ds)

namespace Component

/-- Tokens that start with what opens something are those of a function or
block first. -/
theorem exists_close_of_flattenAll {t : Token} {opener : Opener}
    (hopens : Opener.ofToken? t = some opener) {contents : List Component}
    (hformed : WellFormedAll contents) {ts : List Token}
    (h : flattenAll contents = t :: ts) :
    ∃ body more, contents = opener.close body :: more ∧
      WellFormedAll body ∧ WellFormedAll more ∧
      ts = flattenAll body ++ .closing opener.bracket :: flattenAll more := by
  cases contents with
  | nil => cases h
  | cons value more =>
    obtain ⟨hvalue, hmore⟩ := hformed
    cases value with
    | token u =>
      obtain ⟨rfl, -⟩ := List.cons.inj h
      cases u <;> cases hvalue <;> cases hopens
    | function name body =>
      obtain ⟨rfl, rfl⟩ := List.cons.inj h
      cases hopens
      exact ⟨body, more, rfl, hvalue, hmore, by simp [Opener.bracket]⟩
    | block bracket body =>
      obtain ⟨rfl, rfl⟩ := List.cons.inj h
      cases hopens
      exact ⟨body, more, rfl, hvalue, hmore, by simp [Opener.bracket]⟩

theorem exists_token_of_flattenAll {t : Token} (hplain : t.isPlain = true)
    {contents : List Component} (hformed : WellFormedAll contents)
    {ts : List Token} (h : flattenAll contents = t :: ts) :
    ∃ more, contents = .token t :: more ∧ WellFormedAll more ∧
      ts = flattenAll more := by
  cases contents with
  | nil => cases h
  | cons value more =>
    cases value with
    | token u =>
      obtain ⟨rfl, rfl⟩ := List.cons.inj h
      exact ⟨more, rfl, hformed.2, rfl⟩
    | function name body =>
      obtain ⟨rfl, -⟩ := List.cons.inj h
      cases hplain
    | block bracket body =>
      obtain ⟨rfl, -⟩ := List.cons.inj h
      cases hplain

/-! ## Declaration values -/

section Serialized

variable {value : String} {values : List Component}
  (hvalues : parseValue value = .ok values)

include hvalues

theorem exists_close_of_parseValue {t : Token} {opener : Opener}
    (hopens : Opener.ofToken? t = some opener) {ts : List Token}
    (htokens : tokenize value = .ok (t :: ts)) :
    ∃ body solid after, values = opener.close body :: solid ∧
      WellFormedAll body ∧ WellFormedAll (solid ++ after) ∧
      ts = flattenAll body ++
        .closing opener.bracket :: flattenAll (solid ++ after) ∧
      ∀ gap ∈ after, gap.isWhitespace = true := by
  obtain ⟨contents, hformed, hcontents, rfl⟩ := parseValue_eq_ok_iff.mp hvalues
  have hflat := Except.ok.inj (hcontents.symm.trans htokens)
  obtain ⟨body, more, rfl, hbody, hmore, rfl⟩ :=
    exists_close_of_flattenAll hopens hformed hflat
  have hsolid : (opener.close body).isWhitespace = false := by
    cases opener <;> rfl
  obtain ⟨solid, after, htrim, rfl, hafter⟩ := exists_trimBy_cons hsolid more
  exact ⟨body, solid, after, htrim, hbody, hmore, rfl, hafter⟩

theorem exists_token_of_parseValue {t : Token} (hplain : t.isPlain = true)
    (hspace : t ≠ .whitespace) {ts : List Token}
    (htokens : tokenize value = .ok (t :: ts)) :
    ∃ solid after, values = .token t :: solid ∧
      ts = flattenAll (solid ++ after) ∧
      ∀ gap ∈ after, gap.isWhitespace = true := by
  obtain ⟨contents, hformed, hcontents, rfl⟩ := parseValue_eq_ok_iff.mp hvalues
  have hflat := Except.ok.inj (hcontents.symm.trans htokens)
  obtain ⟨more, rfl, -, rfl⟩ := exists_token_of_flattenAll hplain hformed hflat
  have hsolid : (token t).isWhitespace = false := by
    cases t <;> first | rfl | exact absurd rfl hspace
  obtain ⟨solid, after, htrim, rfl, hafter⟩ := exists_trimBy_cons hsolid more
  exact ⟨solid, after, htrim, rfl, hafter⟩

variable (hlegible : Legible values)

include hlegible

theorem tokenizeChars_behind {t : Token} {us : List Token}
    (ht : t ≠ .whitespace) (h : flattenAll (tidyAll values) = t :: us) :
    (serialize values).toList = t.text.toList ++ texts us ∧
      t.legible (texts us) = true ∧ tokenizeChars (texts us) = .ok us := by
  have hlexed := lexed_of_mem_tidyAll hvalues
  have htokens := hlegible.tokens
  have hgaps := hlegible.gaps
  rw [h] at hlexed htokens hgaps
  rw [collapse, if_neg (by simp [ht])] at hgaps
  rw [legible, Bool.and_eq_true] at htokens
  refine ⟨?_, htokens.1, ?_⟩
  · rw [toList_serialize, trim_tidyAll_of_parseValue hvalues, h, texts_cons]
  · rw [tokenizeChars_texts (fun u hu => hlexed u (List.mem_cons_of_mem t hu))
      htokens.2, (List.cons.inj hgaps).2]

/-- A prefix makes the same function of a declaration value and its text, up
to tidying, where they start with the same name and a parenthesis. -/
theorem exists_parseValue_hyphenLead_call {t : Token} {opener : Opener}
    (hopens : Opener.ofToken? t = some opener)
    (hround : opener.bracket = .round) {ts : List Token}
    (htaken : takeName value.toList = (name, '(' :: rest))
    (hrest : tokenizeChars rest = .ok ts)
    (htokens : tokenize value = .ok (t :: ts))
    (hname : ∀ after, t.legible after = true →
      takeName (t.text.toList ++ after) = (name, '(' :: after)) :
    ∃ led, parseValue (vendor.hyphenLead ++ value) = .ok led ∧
      parseValue (vendor.hyphenLead ++ serialize values) =
        .ok (tidyAll led) := by
  obtain ⟨body, solid, after, rfl, hbody, hsolid, rfl, hafter⟩ :=
    exists_close_of_parseValue hvalues hopens htokens
  have hspace : t ≠ .whitespace := by
    rintro rfl
    cases hopens
  have hflat : flattenAll (tidyAll (opener.close body :: solid)) =
      t :: (flattenAll (trim (tidyAll body)) ++
        .closing .round :: flattenAll (tidyAll solid)) := by
    rw [tidyAll, flattenAll, tidy_close, flatten_close hopens, hround]
    simp
  obtain ⟨htext, hlegible', hbehind⟩ :=
    tokenizeChars_behind hvalues hlegible hspace hflat
  let first := vendor.hyphenLead ++ String.ofList name
  refine ⟨trim (.function first body :: (solid ++ after)), ?_, ?_⟩
  · refine parseValue_eq_ok_iff.mpr
      ⟨.function first body :: (solid ++ after), ⟨hbody, hsolid⟩, ?_, rfl⟩
    rw [tokenize, String.toList_append, tokenizeChars_call
      (startsName_hyphenLead vendor _) (takeName_hyphenLead htaken), hrest,
      hround]
    simp [flattenAll, flatten, first, Except.map]
  · have hgaps : trim (.function first body :: (solid ++ after)) =
        trim (.function first body :: solid) :=
      trimBy_append_right hafter (.function first body :: solid)
    have hsolid' := wellFormedAll_iff.mpr fun v hv =>
      wellFormedAll_iff.mp hsolid v (List.mem_append_left after hv)
    rw [hgaps, ← trim_tidyAll]
    refine parseValue_eq_ok_iff.mpr
      ⟨tidyAll (.function first body :: solid),
        wellFormedAll_tidyAll ⟨hbody, hsolid'⟩, ?_, rfl⟩
    rw [tokenize, String.toList_append, htext,
      tokenizeChars_call (startsName_hyphenLead vendor _)
        (takeName_hyphenLead (hname _ hlegible')), hbehind]
    simp [tidyAll, tidy, flattenAll, flatten, first, Except.map]

end Serialized

/-! ## Names -/

theorem all_whitespace_flattenAll (values : List Component) :
    (flattenAll values).all (· == .whitespace) =
      values.all isWhitespace := by
  induction values with
  | nil => rfl
  | cons value values ih =>
    rw [flattenAll, List.all_append, ih, List.all_cons]
    congr 1
    cases value with
    | token t => cases t <;> rfl
    | _ => rfl

/-- The tokens of a text that a prefix makes a name in front. -/
theorem tokenize_hyphenLead_name (vendor : Vendor) {value : String}
    (hcall : (takeName value.toList).2.head? ≠ some '(') :
    tokenize (vendor.hyphenLead ++ value) =
      (tokenizeChars (takeName value.toList).2).map
        (.ident (vendor.hyphenLead ++
          String.ofList (takeName value.toList).1) :: ·) := by
  rw [tokenize, String.toList_append, tokenizeChars_name
    (startsName_hyphenLead vendor _) (takeName_hyphenLead rfl) hcall]
  simp

/-- A lone name is a single name with a prefix. -/
theorem parseValue_hyphenLead_lone {value : String}
    (hcall : (takeName value.toList).2.head? ≠ some '(')
    (h : loneName? value.toList = some name) :
    parseValue (vendor.hyphenLead ++ value) =
      .ok [.token (.ident (vendor.hyphenLead ++ String.ofList name))] := by
  have htokens := tokenize_hyphenLead_name vendor hcall
  unfold loneName? at h
  split at h
  · rename_i ts hts
    split at h
    · rename_i hblank
      cases h
      have hgaps : ∀ gap ∈ ts.map Component.token, gap.isWhitespace = true := by
        intro gap hgap
        obtain ⟨t, ht, rfl⟩ := List.mem_map.mp hgap
        obtain rfl := beq_iff_eq.mp (List.all_eq_true.mp hblank t ht)
        rfl
      refine parseValue_eq_ok_iff.mpr ⟨.token (.ident (vendor.hyphenLead ++
        String.ofList (takeName value.toList).1)) :: ts.map .token,
        ⟨rfl, wellFormedAll_iff.mpr fun gap hgap => ?_⟩, ?_, ?_⟩
      · rw [eq_whitespace_of_isWhitespace (hgaps gap hgap)]
        rfl
      · rw [htokens, hts, flattenAll, flatten, flattenAll_map_token]
        rfl
      · exact trimBy_append_right hgaps [_]
    · cases h
  · cases h

/-- Any other text is no single name with a prefix, if no parenthesis
follows. -/
theorem exists_of_parseValue_hyphenLead {value : String}
    {values : List Component}
    (hcall : (takeName value.toList).2.head? ≠ some '(')
    (hlone : loneName? value.toList = none)
    (h : parseValue (vendor.hyphenLead ++ value) = .ok values) :
    ∃ name more, values = .token (.ident name) :: more ∧
      ∃ other ∈ more, other.isWhitespace = false := by
  obtain ⟨tokens, htokens, -⟩ := exists_tokenize_of_parseValue h
  obtain ⟨ts, hts, rfl⟩ := exists_of_map_cons_eq_ok
    ((tokenize_hyphenLead_name vendor hcall).symm.trans htokens)
  obtain ⟨solid, after, rfl, rfl, hafter⟩ :=
    exists_token_of_parseValue h rfl (by simp) htokens
  refine ⟨_, solid, rfl, ?_⟩
  have hblank : ¬ ∀ other ∈ solid, other.isWhitespace = true := by
    intro hsolid
    have hall : (solid ++ after).all isWhitespace = true := by
      rw [List.all_append, List.all_eq_true.mpr hsolid,
        List.all_eq_true.mpr hafter]
      rfl
    rw [← all_whitespace_flattenAll] at hall
    rw [loneName?, hts] at hlone
    simp [hall] at hlone
  simpa using hblank

/-! ## Values and their texts -/

section Alike

variable {value : String} {values : List Component}
  (hvalues : parseValue value = .ok values) (hlegible : Legible values)

include hvalues hlegible

/-- A value that starts with a parenthesis and its text are the same function
with a prefix, up to tidying. -/
theorem exists_parseValue_hyphenLead_of_call (vendor : Vendor)
    (h : value.toList.head? = some '(') :
    ∃ led, parseValue (vendor.hyphenLead ++ value) = .ok led ∧
      parseValue (vendor.hyphenLead ++ serialize values) =
        .ok (tidyAll led) := by
  obtain ⟨rest, hrest⟩ : ∃ rest, value.toList = '(' :: rest := by
    cases hchars : value.toList with
    | nil => simp [hchars] at h
    | cons c rest => simp_all
  have hends : ∀ after, takeName ('(' :: after) = ([], '(' :: after) :=
    fun after => takeName_of_endsName (endsName_cons rfl (by decide) after)
  obtain ⟨tokens, htokens, -⟩ := exists_tokenize_of_parseValue hvalues
  have hsplit : tokenize value =
      (tokenizeChars rest).map (.opening .round :: ·) := by
    rw [tokenize, hrest, tokenizeChars_cons (by simp)]
    rfl
  obtain ⟨ts, hts, rfl⟩ :=
    exists_of_map_cons_eq_ok (hsplit.symm.trans htokens)
  have hopens : Opener.ofToken? (.opening .round) = some (.block .round) := rfl
  exact exists_parseValue_hyphenLead_call hvalues hlegible hopens rfl
    (by rw [hrest, hends]) hts htokens fun after _ => hends after

/-- So are a value that starts with a name and a parenthesis and its text. -/
theorem exists_parseValue_hyphenLead_of_function (vendor : Vendor)
    (hstart : startsName value.toList = true)
    (htaken : takeName value.toList = (name, '(' :: rest)) :
    ∃ led, parseValue (vendor.hyphenLead ++ value) = .ok led ∧
      parseValue (vendor.hyphenLead ++ serialize values) =
        .ok (tidyAll led) := by
  obtain ⟨tokens, htokens, -⟩ := exists_tokenize_of_parseValue hvalues
  have hsplit : tokenize value =
      (tokenizeChars rest).map (.function (String.ofList name) :: ·) :=
    tokenizeChars_call hstart htaken
  obtain ⟨ts, hts, rfl⟩ :=
    exists_of_map_cons_eq_ok (hsplit.symm.trans htokens)
  have hopens : Opener.ofToken? (.function (String.ofList name)) =
      some (.function (String.ofList name)) := rfl
  refine exists_parseValue_hyphenLead_call hvalues hlegible hopens rfl
    htaken hts htokens ?_
  intro after hafter
  have hends : endsName ('(' :: after) = true :=
    endsName_cons rfl (by decide) after
  have htext := takeName_text hafter hends
  rw [String.toList_ofList] at htext
  simpa [Token.text] using htext

/-- A value that starts with another name is that name alone exactly if its
text is. -/
theorem loneName?_serialize (hstart : startsName value.toList = true)
    (hcall : (takeName value.toList).2.head? ≠ some '(') :
    (takeName (serialize values).toList).2.head? ≠ some '(' ∧
      loneName? value.toList = loneName? (serialize values).toList := by
  obtain ⟨tokens, htokens, -⟩ := exists_tokenize_of_parseValue hvalues
  have hsplit : tokenize value =
      (tokenizeChars (takeName value.toList).2).map
        (.ident (String.ofList (takeName value.toList).1) :: ·) :=
    tokenizeChars_name hstart rfl hcall
  obtain ⟨ts, hts, rfl⟩ :=
    exists_of_map_cons_eq_ok (hsplit.symm.trans htokens)
  obtain ⟨solid, after, rfl, rfl, hafter⟩ :=
    exists_token_of_parseValue hvalues rfl (by simp) htokens
  have hflat : flattenAll (tidyAll
      (token (.ident (String.ofList (takeName value.toList).1)) :: solid)) =
        .ident (String.ofList (takeName value.toList).1) ::
          flattenAll (tidyAll solid) := rfl
  obtain ⟨htext, hname, hbehind⟩ :=
    tokenizeChars_behind hvalues hlegible (by simp) hflat
  obtain ⟨hname, hends, hcall'⟩ := Token.legible_ident_iff.mp hname
  have htaken := takeName_text hname hends
  have hblank : (solid ++ after).all isWhitespace =
      (tidyAll solid).all isWhitespace := by
    rw [List.all_append, List.all_eq_true.mpr hafter, Bool.and_true,
      tidyAll_eq_map, List.all_map]
    exact congrArg _ (funext fun v => (isWhitespace_tidy v).symm)
  rw [htext, Token.text, htaken]
  refine ⟨hcall', ?_⟩
  rw [loneName?_eq rfl hts, loneName?_eq htaken hbehind,
    all_whitespace_flattenAll, all_whitespace_flattenAll, hblank,
    String.toList_ofList]

end Alike

end Component

end StyleProbe.Css
