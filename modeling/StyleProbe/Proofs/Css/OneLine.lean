import StyleProbe.Css.Color
import StyleProbe.Proofs.Css.Component.Tidy
import StyleProbe.Proofs.Css.Stylesheet.Case
import StyleProbe.Proofs.Text.Lines

/-!
# No line feeds

A line feed is whitespace, it breaks a string, and an escape takes any
character but that one. So no token that was read is written with a line feed,
and neither is anything that is put together from such tokens: component
values, colours, selectors and declarations.

Main statements: `oneLine_of_mem_tokenize` (tokens) and
`oneLine_of_mem_declarations` (rules).
-/

namespace StyleProbe

open Text (OneLine oneLine_append oneLine_repr)

/-! ## Numbers -/

theorem Decimal.Positional.line_feed_not_mem
    {digits whole fraction : List Char}
    (h : Positional digits whole fraction) : '\n' ∉ digits := by
  have hnone : ∀ {run : List Char}, (∀ c ∈ run, c.isDigit = true) →
      '\n' ∉ run := by
    intro run hrun hmem
    cases hrun '\n' hmem
  rw [h.written]
  split
  · simp [hnone h.whole_digits]
  · simp [hnone h.whole_digits, hnone h.fraction_digits]

theorem Binary32.oneLine_text (x : Binary32) : OneLine x.text := by
  cases x with
  | finite negative k =>
    obtain ⟨digits, whole, fraction, htext, hwritten, -⟩ :=
      exists_positional_text negative k
    rw [OneLine, htext]
    split <;> simp [hwritten.line_feed_not_mem]
  | infinity negative => cases negative <;> decide
  | nan => decide

namespace Css

/-! ## Tokens -/

theorem line_feed_not_mem_takeName (cs : List Char) :
    '\n' ∉ (takeName cs).1 := by
  fun_induction takeName cs with
  | case1 => simp
  | case2 rest => simp
  | case3 c rest hc ih => simp [ih, Ne.symm hc]
  | case4 c rest _ hname ih =>
    have hc : c ≠ '\n' := by
      rintro rfl
      exact absurd hname (by decide)
    simp [ih, Ne.symm hc]
  | case5 c rest => simp

theorem oneLine_takeName (cs : List Char) :
    OneLine (String.ofList (takeName cs).1) := by
  simpa [OneLine] using line_feed_not_mem_takeName cs

theorem oneLine_closingText (bracket : Bracket) :
    OneLine bracket.closingText := by
  cases bracket <;> decide

theorem oneLine_of_punctuation? {c : Char} {t : Token}
    (h : punctuation? c = some t) : OneLine t.text := by
  unfold punctuation? at h
  split at h <;> cases h <;> decide

theorem oneLine_scanString (quote : Char) (rest : List Char) :
    OneLine (scanString quote rest).1.text := by
  have hquote : OneLine "\"" := by decide
  unfold scanString
  split
  · rename_i contents after heq
    have hcontents := line_feed_not_mem_takeString (congrArg Prod.fst heq)
    simpa [Token.text, hquote, OneLine] using hcontents
  · exact hquote

theorem oneLine_scanNumeric (cs : List Char) :
    OneLine (scanNumeric cs).1.text := by
  have hvalue := (numberValue (takeNumber cs).1).oneLine_text
  have hsign : OneLine "%" := by decide
  unfold scanNumeric
  dsimp only
  split
  · simp [Token.text, hvalue, oneLine_takeName]
  · split
    · simp [Token.text, hvalue, hsign]
    · exact hvalue

theorem oneLine_scanNameLike (cs : List Char) :
    OneLine (scanNameLike cs).1.text := by
  have hname := oneLine_takeName cs
  have hcall : OneLine "(" := by decide
  unfold scanNameLike
  split
  · rename_i heq
    rw [heq] at hname
    simpa [Token.text, hcall] using hname
  · rename_i heq
    rw [heq] at hname
    exact hname

/-- The token that a scan gives is written without a line feed. -/
theorem oneLine_scan (c : Char) (rest : List Char) :
    OneLine (scan c rest).1.text := by
  have hhash : OneLine "#" := by decide
  have hat : OneLine "@" := by decide
  have hgap : OneLine " " := by decide
  unfold scan
  split
  · rename_i hpunctuation
    exact oneLine_of_punctuation? hpunctuation
  split
  · exact hgap
  rename_i hspace
  split
  · exact oneLine_scanString c rest
  split
  · exact oneLine_scanNumeric _
  split
  · exact oneLine_scanNameLike _
  split
  · simp [Token.text, hhash, oneLine_takeName]
  split
  · simp [Token.text, hat, oneLine_takeName]
  · have hc : c ≠ '\n' := by
      rintro rfl
      exact hspace rfl
    simpa [Token.text, OneLine] using Ne.symm hc

/-- **No token that is read is written with a line feed.** -/
theorem oneLine_of_mem_tokenize {css : String} {ts : List Token}
    (h : tokenize css = .ok ts) : ∀ t ∈ ts, OneLine t.text :=
  forall_mem_tokenizeChars oneLine_scan h

theorem line_feed_not_mem_texts {ts : List Token}
    (h : ∀ t ∈ ts, OneLine t.text) : '\n' ∉ texts ts := by
  intro hmem
  obtain ⟨t, ht, hline⟩ := List.mem_flatMap.mp hmem
  exact h t ht hline

/-! ## Component values -/

namespace Component

theorem oneLine_serialize {values : List Component}
    (h : ∀ t ∈ flattenAll values, OneLine t.text) :
    OneLine (serialize values) := by
  rw [OneLine, toList_serialize]
  exact line_feed_not_mem_texts fun t ht =>
    h t (mem_flattenAll_of_tidyAll (mem_flattenAll_of_trim ht))

theorem oneLine_text {value : Component}
    (h : ∀ t ∈ flatten value, OneLine t.text) : OneLine value.text := by
  rw [OneLine, toList_text]
  exact line_feed_not_mem_texts fun t ht => h t (mem_flatten_of_tidy ht)

theorem oneLine_of_mem_parseValue {text : String} {values : List Component}
    (h : parseValue text = .ok values) :
    ∀ t ∈ flattenAll values, OneLine t.text := by
  obtain ⟨ts, htokens, hmem⟩ := exists_tokenize_of_parseValue h
  exact fun t ht => oneLine_of_mem_tokenize htokens t (hmem t ht)

end Component

open Component (flatten flattenAll mem_flattenAll)

theorem Color.oneLine_text (c : Color) : OneLine c.text := by
  cases c with
  | currentColor => decide
  | rgba color =>
    have hcomma : OneLine ", " := by decide
    have hopaque : OneLine "rgb(" := by decide
    have htranslucent : OneLine "rgba(" := by decide
    have hclose : OneLine ")" := by decide
    have halpha := color.alpha.oneLine_text
    simp only [text, Rgba.text]
    split <;> simp [oneLine_repr, *]

/-! ## Rules -/

theorem Declaration.oneLine_of_ofComponents? {values : List Component}
    (h : ∀ t ∈ flattenAll values, OneLine t.text) {declaration : Declaration}
    (hdeclaration : ofComponents? values = some declaration) :
    OneLine declaration.property ∧ OneLine declaration.value := by
  have hmem : ∀ value ∈ values, ∀ t ∈ flatten value, OneLine t.text :=
    fun value hvalue t ht => h t (mem_flattenAll.mpr ⟨value, hvalue, ht⟩)
  unfold ofComponents? at hdeclaration
  split at hdeclaration
  · rename_i name afterName hname
    split at hdeclaration
    · rename_i afterColon hcolon
      split at hdeclaration
      · cases hdeclaration
      · cases hdeclaration
        -- What the value is made of stood behind the name and the colon.
        have hname' : ∀ value ∈ Component.token (.ident name) :: afterName,
            value ∈ values := fun value hvalue =>
          mem_of_mem_trimBy (hname ▸ hvalue)
        have hcolon' : ∀ value ∈ afterColon, value ∈ values := by
          intro value hvalue
          refine hname' value (List.mem_cons_of_mem _ ?_)
          exact mem_of_mem_trimBy
            (hcolon ▸ List.mem_cons_of_mem _ hvalue)
        constructor
        · refine OneLine.lowerAscii (s := name) ?_
          exact hmem _ (hname' _ List.mem_cons_self) (.ident name)
            (by simp [flatten])
        · apply Component.oneLine_serialize
          intro t ht
          obtain ⟨value, hvalue, ht⟩ := mem_flattenAll.mp ht
          have hafter := mem_of_mem_trimBy (mem_of_mem_dropImportant hvalue)
          exact hmem value (hcolon' value hafter) t ht
    · cases hdeclaration
  · cases hdeclaration

section Rules

variable {css : String} {ts : List Token}
  (h : tokenize css = .ok ts)

include h

/-- The tokens of a style sheet's rules are written without line feeds. -/
theorem oneLine_of_mem_rules : ∀ rule ∈ rules ts,
    (∀ t ∈ rule.prelude, OneLine t.text) ∧
      ∀ t ∈ flattenAll rule.block, OneLine t.text :=
  forall_mem_rulesFrom (P := fun t => OneLine t.text)
    (fun bracket => oneLine_closingText bracket) (oneLine_of_mem_tokenize h)

/-- **No selector has a line feed.** -/
theorem oneLine_selector : ∀ rule ∈ rules ts, OneLine rule.selector := by
  intro rule hrule
  rw [Rule.selector_eq]
  apply OneLine.trim
  intro hmem
  rw [String.toList_join, List.flatMap_map] at hmem
  exact line_feed_not_mem_texts (oneLine_of_mem_rules h rule hrule).1 hmem

/-- **No declaration has a line feed**, neither in its property nor in its
value. -/
theorem oneLine_of_mem_declarations : ∀ rule ∈ rules ts,
    ∀ declaration ∈ rule.declarations,
      OneLine declaration.property ∧ OneLine declaration.value := by
  intro rule hrule declaration hdeclaration
  obtain ⟨part, hpart, hform⟩ := List.mem_filterMap.mp hdeclaration
  refine Declaration.oneLine_of_ofComponents? (fun t ht => ?_) hform
  obtain ⟨value, hvalue, ht⟩ := mem_flattenAll.mp ht
  exact (oneLine_of_mem_rules h rule hrule).2 t (mem_flattenAll.mpr
    ⟨value, mem_of_mem_splitAtSemicolons hpart value hvalue, ht⟩)

end Rules

end Css

end StyleProbe
