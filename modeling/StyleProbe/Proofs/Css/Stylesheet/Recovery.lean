import StyleProbe.Proofs.Css.Component.Recovery
import StyleProbe.Proofs.Css.Stylesheet.Segment

/-!
# Walking a style sheet

The rules of a style sheet are read in one pass that counts the open groups
and cannot fail. Here is the walk that descends into every group: the block
of a group is walked by itself up to its closing brace, every other block is
consumed, and an error in a block is passed up through all the groups around
it.

A caller that recovers never gets an error from the walk, whatever the
tokens are and however deep the groups lie, and gets the rules that the pass
finds. So a style sheet that can be split into tokens always has rules.

Main statements: `walk_lenient` and `rules_walk_lenient`.
-/

namespace StyleProbe.Css

open Component (read consume exists_consume_lenient)

/-- Rules found at the front of the tokens, and the tokens that are left. -/
structure Walked (tokens : List Token) where
  rules : List Rule
  rest : List Token
  length_rest_le : rest.length ≤ tokens.length

/-- Nothing is left. -/
def Walked.done (tokens : List Token) : Walked tokens :=
  ⟨[], [], Nat.zero_le _⟩

/-- The rules found further on, with others in front of them. -/
def Walked.behind {after tokens : List Token} (found : List Rule)
    (later : Walked after) (h : after.length ≤ tokens.length) :
    Walked tokens :=
  ⟨found ++ later.rules, later.rest, Nat.le_trans later.length_rest_le h⟩

theorem length_lt_of_dropWhile {p : Token → Bool} {first t : Token}
    {ts body : List Token} (h : ts.dropWhile p = t :: body) :
    body.length < (first :: ts).length := by
  have hle := length_dropWhile_le p ts
  rw [h] at hle
  exact Nat.lt_succ_of_lt hle

/-- Walks the rules of a style sheet, or of the block of a group up to the
brace that closes it, which is taken too. -/
def walk (recovery : Recovery) (nested : Bool) :
    (tokens : List Token) → Except Error (Walked tokens)
  | [] => return .done []
  | first :: rest =>
    if first = .whitespace ∨ first = .semicolon then do
      let later ← walk recovery nested rest
      return later.behind [] (Nat.le_succ _)
    else if first = .closing .curly ∧ nested = true then
      return ⟨[], rest, Nat.le_succ _⟩
    else
      match first with
      | .atKeyword name =>
        match h : rest.dropWhile (fun t => !endsAtPrelude t) with
        | .opening .curly :: body =>
          if isGrouping name then do
            let inner ← walk recovery true body
            let later ← walk recovery nested inner.rest
            return later.behind inner.rules (Nat.le_of_lt
              (Nat.lt_of_le_of_lt inner.length_rest_le
                (length_lt_of_dropWhile h)))
          else do
            let block ← consume recovery (some (.bracket .curly)) body
            let later ← walk recovery nested block.rest
            return later.behind [] (Nat.le_of_lt
              (Nat.lt_of_le_of_lt block.length_rest_le
                (length_lt_of_dropWhile h)))
        | _ :: after => do
          let later ← walk recovery nested after
          return later.behind [] (Nat.le_of_lt (length_lt_of_dropWhile h))
        | [] => return .done _
      | _ =>
        match h : rest.dropWhile (· != .opening .curly) with
        | _ :: body => do
          let block ← consume recovery (some (.bracket .curly)) body
          let later ← walk recovery nested block.rest
          return later.behind
            [⟨first :: rest.takeWhile (· != .opening .curly), block.values⟩]
            (Nat.le_of_lt (Nat.lt_of_le_of_lt block.length_rest_le
              (length_lt_of_dropWhile h)))
        | [] => return .done _
termination_by tokens => tokens.length
decreasing_by
  · exact Nat.lt_succ_self _
  · exact length_lt_of_dropWhile h
  · exact Nat.lt_of_le_of_lt inner.length_rest_le (length_lt_of_dropWhile h)
  · exact Nat.lt_of_le_of_lt block.length_rest_le (length_lt_of_dropWhile h)
  · exact length_lt_of_dropWhile h
  · exact Nat.lt_of_le_of_lt block.length_rest_le (length_lt_of_dropWhile h)

/-! ## The walk and the pass -/

/-- The walk succeeded. Its rules are the ones that the pass finds before
what the walk left, and the walk of a whole style sheet left nothing. -/
def Follows (depth : Nat) (nested : Bool) {tokens : List Token}
    (result : Except Error (Walked tokens)) : Prop :=
  ∃ walked, result = .ok walked ∧
    rulesFrom (depth + nested.toNat) tokens =
      walked.rules ++ rulesFrom depth walked.rest ∧
    (nested = false → walked.rest = [])

section Items

variable {depth : Nat} {nested : Bool}

theorem Follows.done {tokens : List Token}
    (h : rulesFrom (depth + nested.toNat) tokens = []) :
    Follows depth nested (.ok (Walked.done tokens)) := by
  refine ⟨_, rfl, ?_, fun _ => rfl⟩
  simp [Walked.done, h]

/-- What the walk finds further on comes behind what was found before. -/
theorem Follows.behind {found : List Rule} {after tokens : List Token}
    (hlater : Follows depth nested (walk .lenient nested after))
    (hrules : rulesFrom (depth + nested.toNat) tokens =
      found ++ rulesFrom (depth + nested.toNat) after)
    (hle : after.length ≤ tokens.length) :
    Follows depth nested (do
      let later ← walk .lenient nested after
      return (later.behind found hle : Walked tokens)) := by
  obtain ⟨later, hwalk, hfound, hrest⟩ := hlater
  rw [hwalk]
  refine ⟨_, rfl, ?_, hrest⟩
  rw [hrules, hfound, ← List.append_assoc]
  rfl

/-- The walk of everything shorter than the tokens succeeds. -/
def FollowsBelow (tokens : List Token) : Prop :=
  ∀ {depth : Nat} {nested : Bool} (shorter : List Token),
    shorter.length < tokens.length → (nested = false → depth = 0) →
    Follows depth nested (walk .lenient nested shorter)

/-- An at-rule is a group, a block to skip, a statement, or cut short. -/
theorem follows_atKeyword {name : String} {rest : List Token}
    (hdepth : nested = false → depth = 0)
    (ih : FollowsBelow (.atKeyword name :: rest)) :
    Follows depth nested (walk .lenient nested (.atKeyword name :: rest)) := by
  have hpass : rulesFrom (depth + nested.toNat) (.atKeyword name :: rest) =
      _ := rulesFrom_atKeyword
  have hlt : ∀ {t body}, rest.dropWhile (fun t => !endsAtPrelude t) =
      t :: body → body.length < (Token.atKeyword name :: rest).length :=
    length_lt_of_dropWhile
  rw [walk.eq_def]
  dsimp only
  rw [if_neg (by simp), if_neg (by simp)]
  split
  · rename_i body hbody
    have hshorter := hlt hbody
    rw [hbody] at hpass
    dsimp only at hpass
    split
    · rename_i hgroup
      rw [if_pos hgroup] at hpass
      obtain ⟨inner, hinner, hfound, -⟩ :
          Follows (depth + nested.toNat) true (walk .lenient true body) :=
        ih body hshorter (by simp)
      have hle := inner.length_rest_le
      rw [hinner]
      exact (ih inner.rest (by omega) hdepth).behind (hpass.trans hfound) _
    · rename_i hgroup
      rw [if_neg hgroup] at hpass
      obtain ⟨block, hblock, -, hrest⟩ :=
        exists_consume_lenient (some (.bracket .curly)) body
      have hle := block.length_rest_le
      rw [hblock]
      rw [← hrest] at hpass
      exact (ih block.rest (by omega) hdepth).behind hpass _
  · rename_i t after hnoBrace hafter
    rw [hafter] at hpass
    split at hpass
    · rename_i hcons
      exact absurd (List.cons.inj hcons).1 hnoBrace
    · rename_i hcons
      cases hcons
      exact (ih after (hlt hafter) hdepth).behind hpass _
    · rename_i hcons
      cases hcons
  · rename_i hnone
    rw [hnone] at hpass
    exact .done hpass

theorem follows_startsRule {first : Token} {rest : List Token}
    (hfirst : StartsRule (depth + nested.toNat) first)
    (hdepth : nested = false → depth = 0)
    (ih : FollowsBelow (first :: rest)) :
    Follows depth nested (walk .lenient nested (first :: rest)) := by
  have hpass : rulesFrom (depth + nested.toNat) (first :: rest) =
      _ := rulesFrom_startsRule hfirst
  have hlt : ∀ {t body}, rest.dropWhile (· != .opening .curly) =
      t :: body → body.length < (first :: rest).length :=
    length_lt_of_dropWhile
  have hend : ¬ (first = .closing .curly ∧ nested = true) := by
    rintro ⟨rfl, rfl⟩
    exact hfirst.noEnd ⟨rfl, Nat.succ_pos depth⟩
  rw [walk.eq_def]
  dsimp only
  rw [if_neg hfirst.noGap, if_neg hend]
  cases first with
  | atKeyword name => exact absurd rfl (hfirst.noAtRule name)
  | _ =>
    dsimp only
    split
    · rename_i t body hbody
      have hshorter := hlt hbody
      obtain ⟨block, hblock, hvalues, hrest⟩ :=
        exists_consume_lenient (some (.bracket .curly)) body
      have hle := block.length_rest_le
      rw [hbody] at hpass
      dsimp only at hpass
      rw [← hrest, ← hvalues] at hpass
      rw [hblock]
      exact (ih block.rest (by omega) hdepth).behind hpass _
    · rename_i hnone
      rw [hnone] at hpass
      exact .done hpass

end Items

/-- **A caller that recovers never gets an error**: the walk of a group takes
the rules up to the brace that closes it, and the walk of a style sheet takes
everything. -/
theorem walk_lenient {depth : Nat} {nested : Bool} (tokens : List Token)
    (hdepth : nested = false → depth = 0) :
    Follows depth nested (walk .lenient nested tokens) := by
  -- On the length: what follows a block is no tail of the list by structure.
  induction hn : tokens.length using Nat.strongRecOn
    generalizing nested tokens depth with
  | _ n ih =>
  subst hn
  have hbelow : FollowsBelow tokens := fun shorter hlt hdepth =>
    ih _ hlt shorter hdepth rfl
  cases tokens with
  | nil =>
    rw [walk]
    exact .done rulesFrom_nil
  | cons first rest =>
    rcases kind_of_first (depth + nested.toNat) first with hgap |
      ⟨name, rfl⟩ | ⟨rfl, hopen⟩ | hfirst
    · rw [walk.eq_def]
      dsimp only
      rw [if_pos hgap]
      exact (hbelow rest (Nat.lt_succ_self _) hdepth).behind
        (rulesFrom_gap hgap) _
    · exact follows_atKeyword hdepth hbelow
    · cases nested with
      | false =>
        rw [hdepth rfl] at hopen
        cases hopen
      | true =>
        rw [walk.eq_def]
        exact ⟨_, rfl, rulesFrom_end, by simp⟩
    · exact follows_startsRule hfirst hdepth hbelow

/-- A caller that does not recover does get one. -/
example : (walk .strict false [.ident "a", .opening .curly, .closing .round,
    .closing .curly]).isOk = false := by
  decide +kernel

/-- **The walk of a whole style sheet** gives its rules. -/
theorem rules_walk_lenient (tokens : List Token) :
    (walk .lenient false tokens).map Walked.rules = .ok (rules tokens) := by
  obtain ⟨walked, hwalk, hrules, hrest⟩ :
      Follows 0 false (walk .lenient false tokens) :=
    walk_lenient tokens fun _ => rfl
  rw [hwalk, rules]
  refine congrArg Except.ok ?_
  rw [hrest rfl, rulesFrom_nil, List.append_nil] at hrules
  exact hrules.symm

end StyleProbe.Css
