import StyleProbe.Proofs.Css.Stylesheet.Segment

/-!
# Well-formed style sheets

A style sheet as it is meant: gaps, rules, at-rule statements, at-rules with
a block, and groups that hold a style sheet of their own, nested as deep as
one likes. `Item.tokensAll` writes it down and `Item.rulesAll` says which
rules it has, a group's rules in the place of the group.

Main statement: `rules_tokensAll` (walking the written style sheet finds
those rules and no others). It comes from `Item.segmentAll`: every item is a
segment on its own, so it takes its own tokens and no more.
-/

namespace StyleProbe.Css

open Component (WellFormedAll flattenAll)

/-- A part of a style sheet. A rule's prelude is its first token and the
others; blocks are given by the component values in them. -/
inductive Item where
  | gap (token : Token)
  | rule (first : Token) (prelude : List Token) (block : List Component)
  | statement (name : String) (prelude : List Token)
  | skipped (name : String) (prelude : List Token) (block : List Component)
  | group (name : String) (prelude : List Token) (items : List Item)

/-- A token with no curly brace in it. -/
def NoCurly (t : Token) : Prop := t ≠ .opening .curly ∧ t ≠ .closing .curly

/-- The names of the at-rules whose blocks are style sheets. -/
def GroupName (name : String) : Prop :=
  Text.lowerAscii name ∈ ["media", "supports", "document", "layer", "container"]

theorem groupName_iff {name : String} :
    GroupName name ↔ isGrouping name = true :=
  List.contains_iff_mem.symm

namespace Item

mutual

/-- The tokens an item is written as. -/
def tokens : Item → List Token
  | gap t => [t]
  | rule first prelude block =>
    first :: (prelude ++ .opening .curly ::
      (flattenAll block ++ [.closing .curly]))
  | statement name prelude => .atKeyword name :: (prelude ++ [.semicolon])
  | skipped name prelude block =>
    .atKeyword name :: (prelude ++ .opening .curly ::
      (flattenAll block ++ [.closing .curly]))
  | group name prelude items =>
    .atKeyword name :: (prelude ++ .opening .curly ::
      (tokensAll items ++ [.closing .curly]))

/-- The tokens a style sheet is written as. -/
def tokensAll : List Item → List Token
  | [] => []
  | item :: items => tokens item ++ tokensAll items

end

mutual

/-- No prelude runs into the wrong end, and every block is balanced. -/
def WellFormed : Item → Prop
  | gap t => t = .whitespace ∨ t = .semicolon
  | rule first prelude block =>
    first ≠ .whitespace ∧ first ≠ .semicolon ∧
      (∀ name, first ≠ .atKeyword name) ∧
      (∀ t ∈ first :: prelude, NoCurly t) ∧ WellFormedAll block
  | statement _ prelude => ∀ t ∈ prelude, NoCurly t ∧ t ≠ .semicolon
  | skipped name prelude block =>
    ¬ GroupName name ∧ (∀ t ∈ prelude, NoCurly t ∧ t ≠ .semicolon) ∧
      WellFormedAll block
  | group name prelude items =>
    GroupName name ∧ (∀ t ∈ prelude, NoCurly t ∧ t ≠ .semicolon) ∧
      WellFormedSheet items

/-- Every item of the style sheet is well-formed. -/
def WellFormedSheet : List Item → Prop
  | [] => True
  | item :: items => WellFormed item ∧ WellFormedSheet items

end

mutual

/-- The style rules of an item, in order. -/
def rules : Item → List Rule
  | gap _ => []
  | rule first prelude block => [⟨first :: prelude, block⟩]
  | statement _ _ => []
  | skipped _ _ _ => []
  | group _ _ items => rulesAll items

/-- The style rules of a style sheet, in order. -/
def rulesAll : List Item → List Rule
  | [] => []
  | item :: items => rules item ++ rulesAll items

end

/-! ## Items are segments -/

theorem noEnd_of_prelude {prelude : List Token}
    (h : ∀ t ∈ prelude, NoCurly t ∧ t ≠ .semicolon) :
    ∀ t ∈ prelude, NoEnd t := by
  intro t ht
  obtain ⟨hcurly, hsemicolon⟩ := h t ht
  exact ⟨hcurly.1, hsemicolon⟩

mutual

/-- A well-formed item leaves as many groups open as it finds. -/
theorem segment (item : Item) (h : item.WellFormed) (depth : Nat) :
    Segment depth item.tokens item.rules depth := by
  cases item with
  | gap t => exact .gap h (.nil depth)
  | rule first prelude block =>
    obtain ⟨hspace, hsemicolon, hat, hprelude, hblock⟩ := h
    have hfirst : StartsRule depth first :=
      ⟨fun hgap => hgap.elim hspace hsemicolon, hat,
        fun hend => (hprelude first List.mem_cons_self).2 hend.1⟩
    have hrest : ∀ t ∈ prelude, NoBrace t := by
      intro t ht
      exact (hprelude t (List.mem_cons_of_mem first ht)).1
    exact .rule hfirst hrest hblock (.nil depth)
  | statement name prelude =>
    exact .statement (noEnd_of_prelude h) (.nil depth)
  | skipped name prelude block =>
    obtain ⟨hname, hprelude, hblock⟩ := h
    have hskipped : isGrouping name = false := by
      rw [← Bool.not_eq_true, ← groupName_iff]
      exact hname
    exact .skipped hskipped (noEnd_of_prelude hprelude) hblock (.nil depth)
  | group name prelude items =>
    obtain ⟨hname, hprelude, hitems⟩ := h
    -- The inner style sheet, and then the brace that ends the group.
    have hinner := (segmentAll items hitems (depth + 1)).append
      (.close (.nil depth))
    rw [List.append_nil] at hinner
    exact .group (groupName_iff.mp hname) (noEnd_of_prelude hprelude) hinner

/-- A well-formed style sheet leaves as many groups open as it finds. -/
theorem segmentAll (items : List Item) (h : WellFormedSheet items)
    (depth : Nat) :
    Segment depth (tokensAll items) (rulesAll items) depth := by
  cases items with
  | nil => exact .nil depth
  | cons item items =>
    exact (segment item h.1 depth).append (segmentAll items h.2 depth)

end

end Item

/-- **Walking a well-formed style sheet is exact**: it finds the rules of
the style sheet, in order, each with the selector and the declarations of
its own prelude and block. -/
theorem rules_tokensAll (items : List Item) (h : Item.WellFormedSheet items) :
    rules (Item.tokensAll items) = Item.rulesAll items ∧
      contents (Item.tokensAll items) =
        (Item.rulesAll items).map fun rule =>
          (Text.trim (String.join (rule.prelude.map Token.text)),
            (splitAtSemicolons rule.block).filterMap
              Declaration.ofComponents?) := by
  have hrules : rules (Item.tokensAll items) = Item.rulesAll items :=
    (Item.segmentAll items h 0).rulesFrom_eq
  refine ⟨hrules, ?_⟩
  rw [contents, hrules]
  apply List.map_congr_left
  intro rule _
  rw [Rule.content, Rule.selector_eq]
  rfl

/-- A statement, a rule, and a group that holds a group with a rule in it
and an at-rule to skip. -/
def nestedSheet : List Item :=
  [.statement "import" [.whitespace, .string "base.css"],
    .rule (.ident "a") [.whitespace]
      [.token (.ident "color"), .token .colon, .token (.ident "red")],
    .group "MEDIA" [.whitespace, .ident "print"]
      [.gap .whitespace,
        .group "layer" []
          [.rule (.ident "b") [.comma, .ident "c"]
            [.token (.ident "display"), .token .colon, .token (.ident "flex")]],
        .skipped "font-face" [] [.block .curly []]],
    .gap .semicolon]

theorem rules_tokensAll_nestedSheet :
    Item.WellFormedSheet nestedSheet ∧
      contents (Item.tokensAll nestedSheet) =
        [("a", [⟨"color", "red"⟩]), ("b,c", [⟨"display", "flex"⟩])] := by
  have hmedia : GroupName "MEDIA" := groupName_iff.mpr (by decide +kernel)
  have hlayer : GroupName "layer" := groupName_iff.mpr (by decide +kernel)
  have hface : ¬ GroupName "font-face" :=
    mt groupName_iff.mp (by decide +kernel)
  have hnested : Item.WellFormedSheet nestedSheet := by
    simp [nestedSheet, Item.WellFormedSheet, Item.WellFormed, NoCurly,
      Component.WellFormedAll, Component.WellFormed, Token.isPlain, hmedia,
      hlayer, hface]
  refine ⟨hnested, ?_⟩
  rw [(rules_tokensAll nestedSheet hnested).2]
  decide +kernel

end StyleProbe.Css
