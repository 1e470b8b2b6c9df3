import StyleProbe.Proofs.Css.Stylesheet.Segment
import StyleProbe.Proofs.Css.Token.Legible

/-!
# Selectors that are read back

The selector of a rule is the text of its prelude, trimmed. Where the prelude
is legible, reading the selector gives the prelude back, less the whitespace
at its ends and with every run of whitespace as one token, so rules with
different preludes have different selectors. A sign, an escape or a comment
that kept two tokens apart is not in the text, and then the selector may be
the selector of another rule.

Main statement: `tokenize_selector_of_legible`.
-/

namespace StyleProbe.Css

/-- The prelude of a rule without the whitespace at its ends. -/
def Rule.solidPrelude (rule : Rule) : List Token :=
  trimBy (· == .whitespace) rule.prelude

/-- The prelude is read back from its text, and there is no blank at the ends
of the text that belongs to a name. -/
structure Rule.Legible (rule : Rule) : Prop where
  tokens : legible rule.solidPrelude = true
  ends : trimBy Text.isBlank (texts rule.solidPrelude) =
    texts rule.solidPrelude

instance (rule : Rule) : Decidable rule.Legible :=
  decidable_of_iff
    (legible rule.solidPrelude = true ∧
      trimBy Text.isBlank (texts rule.solidPrelude) = texts rule.solidPrelude)
    ⟨fun h => ⟨h.1, h.2⟩, fun h => ⟨h.tokens, h.ends⟩⟩

theorem isBlank_of_mem_texts {ts : List Token}
    (h : ∀ t ∈ ts, (t == .whitespace) = true) :
    ∀ c ∈ texts ts, Text.isBlank c = true := by
  intro c hc
  obtain ⟨t, ht, hc⟩ := List.mem_flatMap.mp hc
  obtain rfl := beq_iff_eq.mp (h t ht)
  obtain rfl : c = ' ' := by simpa [Token.text] using hc
  decide

/-- The selector is the text of the prelude less the whitespace at its
ends. -/
theorem toList_selector {rule : Rule} (h : rule.Legible) :
    rule.selector.toList = texts rule.solidPrelude := by
  have htexts : (String.join (rule.prelude.map Token.text)).toList =
      texts rule.prelude := by
    rw [String.toList_join, List.flatMap_map, texts]
  obtain ⟨before, after, hprelude, hbefore, hafter⟩ :=
    exists_eq_append_trimBy (· == .whitespace) rule.prelude
  rw [Rule.selector_eq, Text.toList_trim, htexts, hprelude, texts_append,
    texts_append, trimBy_append (isBlank_of_mem_texts hbefore)
      (isBlank_of_mem_texts hafter)]
  exact h.ends

/-- **A legible prelude is read back from the selector.** -/
theorem tokenize_selector_of_legible {tokens : List Token}
    (hlexed : ∀ t ∈ tokens, t.Lexed) {rule : Rule}
    (hrule : rule ∈ rules tokens) (h : rule.Legible) :
    tokenize rule.selector = .ok (collapse rule.solidPrelude) := by
  have hprelude : ∀ t ∈ rule.prelude, t.Lexed :=
    (forall_mem_rulesFrom (P := Token.Lexed) (fun _ => trivial) hlexed rule
      hrule).1
  rw [tokenize, toList_selector h]
  exact tokenizeChars_texts (fun t ht => hprelude t (mem_of_mem_trimBy ht))
    h.tokens

end StyleProbe.Css
