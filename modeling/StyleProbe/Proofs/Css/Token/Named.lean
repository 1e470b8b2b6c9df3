import StyleProbe.Css.Token.Lexer

/-!
# Names of tokens

The name that a token carries is never empty when the token was read from a
text, and so no such token is written as the empty text.

Main statements: `forall_mem_tokenizeChars` (from one token to all tokens of a
text), `named_of_mem_tokenize` and `Token.Named.text_ne_empty`.
-/

namespace StyleProbe.Css

/-- The token's name or unit, if it has one, is not empty. -/
def Token.Named : Token → Prop
  | .ident name => name ≠ ""
  | .function name => name ≠ ""
  | .atKeyword name => name ≠ ""
  | .hash name => name ≠ ""
  | .dimension _ unit => unit ≠ ""
  | _ => True

/-! ## One token -/

theorem isNameChar_of_isNameStart {c : Char} (h : isNameStart c = true) :
    isNameChar c = true := by
  simp [isNameChar, h]

theorem isNameChar_of_startsName {c : Char} {rest : List Char}
    (h : startsName (c :: rest) = true) : isNameChar c = true := by
  unfold startsName at h
  split at h
  · rename_i hc
    cases hc
    decide
  · rename_i hc
    cases hc
    exact isNameChar_of_isNameStart h
  · cases h

theorem takeName_ne_nil {c : Char} {rest : List Char}
    (h : isNameChar c = true) : (takeName (c :: rest)).1 ≠ [] := by
  unfold takeName
  split
  · rename_i hc
    cases hc
  · rename_i hc
    cases hc
    exact absurd h (by decide)
  · rename_i hc
    cases hc
    simp [h]

theorem ofList_takeName_ne_empty {cs : List Char}
    (h : startsName cs = true) : String.ofList (takeName cs).1 ≠ "" := by
  cases cs with
  | nil => cases h
  | cons c rest =>
    rw [Ne, String.ofList_eq_empty_iff]
    exact takeName_ne_nil (isNameChar_of_startsName h)

theorem named_of_punctuation? {c : Char} {t : Token}
    (h : punctuation? c = some t) : t.Named := by
  unfold punctuation? at h
  split at h <;> cases h <;> trivial

theorem named_scanString (quote : Char) (rest : List Char) :
    (scanString quote rest).1.Named := by
  unfold scanString
  split <;> trivial

theorem named_scanNumeric (cs : List Char) : (scanNumeric cs).1.Named := by
  unfold scanNumeric
  dsimp only
  split
  · rename_i hname
    exact ofList_takeName_ne_empty hname
  · split <;> trivial

theorem named_scanNameLike {cs : List Char} (h : startsName cs = true) :
    (scanNameLike cs).1.Named := by
  have hname := ofList_takeName_ne_empty h
  unfold scanNameLike
  split
  · rename_i heq
    rw [heq] at hname
    exact hname
  · rename_i heq
    rw [heq] at hname
    exact hname

theorem named_scan (c : Char) (rest : List Char) : (scan c rest).1.Named := by
  unfold scan
  split
  · rename_i hpunctuation
    exact named_of_punctuation? hpunctuation
  split
  · trivial
  split
  · exact named_scanString c rest
  split
  · exact named_scanNumeric _
  split
  · rename_i hname
    exact named_scanNameLike hname
  split
  · rename_i hhash
    cases rest with
    | nil => cases hhash.2
    | cons d rest =>
      exact fun h => takeName_ne_nil hhash.2 (String.ofList_eq_empty_iff.mp h)
  split
  · rename_i hat
    exact ofList_takeName_ne_empty hat.2
  · trivial

/-! ## All tokens -/

/-- Induction over a text that is read: there is nothing, or a comment stands
in front, or a token does. -/
theorem tokenized_induction {P : List Char → List Token → Prop}
    (nil : P [] [])
    (comment : ∀ {rest after ts}, afterComment? rest = some after →
      P after ts → P ('/' :: '*' :: rest) ts)
    (cons : ∀ {c rest ts}, (∀ after, c :: rest ≠ '/' :: '*' :: after) →
      tokenizeChars (scan c rest).2 = .ok ts → P (scan c rest).2 ts →
      P (c :: rest) ((scan c rest).1 :: ts))
    {cs : List Char} {ts : List Token} (h : tokenizeChars cs = .ok ts) :
    P cs ts := by
  fun_induction tokenizeChars cs generalizing ts with
  | case1 =>
    cases h
    exact nil
  | case2 rest hcomment => cases h
  | case3 rest after hcomment ih => exact comment hcomment (ih h)
  | case4 c rest hcomment step =>
    rename_i ih
    cases htokens : tokenizeChars step.2 with
    | error e =>
      rw [htokens] at h
      cases h
    | ok tokens =>
      rw [htokens] at h
      cases h
      refine cons (fun after heq => ?_) htokens (ih htokens)
      exact hcomment after (List.cons.inj heq).1 (List.cons.inj heq).2

/-- What holds of every token that a scan gives holds of all tokens of a
text. -/
theorem forall_mem_tokenizeChars {P : Token → Prop}
    (hscan : ∀ c rest, P (scan c rest).1) {cs : List Char} {ts : List Token}
    (h : tokenizeChars cs = .ok ts) : ∀ t ∈ ts, P t := by
  refine tokenized_induction (P := fun _ ts => ∀ t ∈ ts, P t) ?_ ?_ ?_ h
  · simp
  · exact fun _ ih => ih
  · intro c rest ts _ _ ih
    exact List.forall_mem_cons.mpr ⟨hscan c rest, ih⟩

/-- Every token of a text is named. -/
theorem named_of_mem_tokenize {css : String} {ts : List Token}
    (h : tokenize css = .ok ts) : ∀ t ∈ ts, t.Named :=
  forall_mem_tokenizeChars named_scan h

/-- A named token is written as something. -/
theorem Token.Named.text_ne_empty {t : Token} (h : t.Named) :
    t.text ≠ "" := by
  cases t with
  | ident name => exact h
  | number value => exact value.text_ne_empty
  | dimension value unit =>
    intro htext
    exact h (String.append_eq_empty_iff.mp htext).2
  | opening bracket => cases bracket <;> simp [text, Bracket.openingText]
  | closing bracket => cases bracket <;> simp [text, Bracket.closingText]
  | _ => simp [text]

end StyleProbe.Css
