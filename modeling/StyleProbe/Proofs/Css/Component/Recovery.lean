import StyleProbe.Proofs.Css.Component.Lossless

/-!
# Strict and lenient reading

The reader notes faults and goes on. Here is the reader that raises them: it
descends into every function and block, checks at each place where a fault
can be met whether its caller recovers, and passes an error up through all
the lists that are still open.

A strict caller gets the first fault that the reader noted, and the reading
if there is none. A lenient caller never gets an error, whatever the tokens
are and however deep a fault lies, and always gets the reading. So what is
known of the reader is known of both.

Main statements: `consume_strict` and `consume_lenient`, and from them
`consume_strict_iff_flattenAll` (a strict caller undoes flattening) and
`consume_lossless` (a lenient caller loses nothing, and a strict one only
refuses).
-/

namespace StyleProbe.Css

/-- What a caller does about a fault: it gives up, or it goes on. -/
inductive Recovery where
  | strict
  | lenient
deriving DecidableEq

/-- Raises a fault where the caller does not recover from it. -/
def Recovery.check : Recovery → Option Error → Except Error Unit
  | strict, some e => .error e
  | _, _ => .ok ()

namespace Component

/-- Component values taken off the front of the tokens, and the tokens that
are left. -/
@[ext] structure Taken (tokens : List Token) where
  values : List Component
  rest : List Token
  length_rest_le : rest.length ≤ tokens.length

/-- Takes component values up to the terminator, which is taken too, or to
the end of the input. -/
def consume (recovery : Recovery) (terminator : Option Terminator) :
    (tokens : List Token) → Except Error (Taken tokens)
  | [] => do
    recovery.check (terminator.map .unclosed)
    return ⟨[], [], Nat.le_refl _⟩
  | t :: ts =>
    if terminator.map Terminator.token = some t then
      return ⟨[], ts, Nat.le_succ _⟩
    else
      match Opener.ofToken? t with
      | some opener => do
        let body ← consume recovery (some (.bracket opener.bracket)) ts
        let later ← consume recovery terminator body.rest
        return {
          values := opener.close body.values :: later.values
          rest := later.rest
          length_rest_le := Nat.le_succ_of_le
            (Nat.le_trans later.length_rest_le body.length_rest_le) }
      | none => do
        recovery.check (strayFault? t)
        let later ← consume recovery terminator ts
        return {
          values := .token t :: later.values
          rest := later.rest
          length_rest_le := Nat.le_succ_of_le later.length_rest_le }
termination_by tokens => tokens.length
decreasing_by
  · simp
  · have := body.length_rest_le
    simp
    omega
  · simp

/-- What was taken, without the bound on what is left. -/
def Taken.reading {tokens : List Token} (taken : Taken tokens) : Reading :=
  ⟨taken.values, taken.rest, none⟩

section Steps

variable {recovery : Recovery} {terminator : Option Terminator} {t : Token}
  {ts : List Token}

theorem consume_terminator (h : terminator.map Terminator.token = some t) :
    (consume recovery terminator (t :: ts)).map Taken.reading =
      .ok ⟨[], ts, none⟩ := by
  rw [consume, if_pos h]
  rfl

theorem consume_opens (h : terminator.map Terminator.token ≠ some t)
    {opener : Opener} (hopens : Opener.ofToken? t = some opener) :
    (consume recovery terminator (t :: ts)).map Taken.reading = do
      let body ← (consume recovery (some (.bracket opener.bracket)) ts).map
        Taken.reading
      let later ← (consume recovery terminator body.rest).map Taken.reading
      return ⟨opener.close body.values :: later.values, later.rest, none⟩ := by
  rw [consume, if_neg h]
  simp only [hopens]
  cases consume recovery (some (.bracket opener.bracket)) ts with
  | error e => rfl
  | ok body =>
    cases hlater : consume recovery terminator body.rest with
    | error e => simp [bind, Except.bind, Except.map, Taken.reading, hlater]
    | ok later =>
      simp [bind, Except.bind, Except.map, Taken.reading, hlater, pure,
        Except.pure]

theorem consume_stands (h : terminator.map Terminator.token ≠ some t)
    (hopens : Opener.ofToken? t = none) :
    (consume recovery terminator (t :: ts)).map Taken.reading = do
      recovery.check (strayFault? t)
      let later ← (consume recovery terminator ts).map Taken.reading
      return ⟨.token t :: later.values, later.rest, none⟩ := by
  rw [consume, if_neg h]
  simp only [hopens]
  cases recovery.check (strayFault? t) with
  | error e => rfl
  | ok u =>
    cases consume recovery terminator ts <;> rfl

end Steps

/-- **A lenient caller never gets an error**: it gets what the reader reads,
and what the reader leaves. -/
theorem consume_lenient (terminator : Option Terminator) (ts : List Token) :
    (consume .lenient terminator ts).map Taken.reading =
      .ok { read terminator ts with fault := none } := by
  -- On the length: what follows a body is no tail of the list by structure.
  induction hn : ts.length using Nat.strongRecOn generalizing terminator ts with
  | _ n ih =>
  subst hn
  cases ts with
  | nil =>
    rw [consume, read_nil]
    rfl
  | cons t ts =>
    rw [read_cons]
    by_cases hends : terminator.map Terminator.token = some t
    · rw [consume_terminator hends, if_pos hends]
    · rw [if_neg hends]
      cases hopens : Opener.ofToken? t with
      | some opener =>
        have hbody := ih ts.length (by simp) (some (.bracket opener.bracket))
          ts rfl
        have hle := length_rest_read (some (.bracket opener.bracket)) ts
        have hlater := ih _ (Nat.lt_succ_of_le hle) terminator _ rfl
        rw [consume_opens hends hopens, hbody]
        simp only [readOne, hopens, bind, Except.bind]
        rw [hlater]
        rfl
      | none =>
        have hlater := ih ts.length (by simp) terminator ts rfl
        rw [consume_stands hends hopens, hlater]
        simp only [readOne, hopens, Recovery.check]
        rfl

theorem exists_consume_lenient (terminator : Option Terminator)
    (ts : List Token) :
    ∃ taken, consume .lenient terminator ts = .ok taken ∧
      taken.values = (read terminator ts).values ∧
      taken.rest = (read terminator ts).rest := by
  have hreading := consume_lenient terminator ts
  cases hfound : consume .lenient terminator ts with
  | error e =>
    rw [hfound] at hreading
    cases hreading
  | ok taken =>
    rw [hfound] at hreading
    have heq := Except.ok.inj hreading
    exact ⟨taken, rfl, congrArg Reading.values heq, congrArg Reading.rest heq⟩

/-- **A strict caller gets the first fault** that the reader notes, and what
the reader reads if there is none. -/
theorem consume_strict (terminator : Option Terminator) (ts : List Token) :
    (consume .strict terminator ts).map Taken.reading =
      (read terminator ts).strict := by
  induction hn : ts.length using Nat.strongRecOn generalizing terminator ts with
  | _ n ih =>
  subst hn
  cases ts with
  | nil =>
    rw [consume, read_nil]
    cases terminator <;> rfl
  | cons t ts =>
    rw [strict_read_cons]
    by_cases hends : terminator.map Terminator.token = some t
    · rw [consume_terminator hends, if_pos hends]
    · rw [if_neg hends]
      cases hopens : Opener.ofToken? t with
      | some opener =>
        have hbody := ih ts.length (by simp) (some (.bracket opener.bracket))
          ts rfl
        have hle := length_rest_read (some (.bracket opener.bracket)) ts
        have hlater := ih _ (Nat.lt_succ_of_le hle) terminator _ rfl
        rw [consume_opens hends hopens, hbody]
        cases hfault : (read (some (.bracket opener.bracket)) ts).fault with
        | some e =>
          simp [Reading.strict, readOne, hopens, hfault, bind, Except.bind]
        | none =>
          simp [Reading.strict, readOne, hopens, hfault, bind, Except.bind,
            hlater]
      | none =>
        have hlater := ih ts.length (by simp) terminator ts rfl
        rw [consume_stands hends hopens, hlater]
        cases hstray : strayFault? t with
        | some e =>
          simp [Reading.strict, readOne, hopens, hstray, Recovery.check, bind,
            Except.bind]
        | none =>
          simp [Reading.strict, readOne, hopens, hstray, Recovery.check, bind,
            Except.bind]

section Callers

variable {terminator : Option Terminator} {ts : List Token}

theorem consume_strict_eq_error_iff {e : Error} :
    consume .strict terminator ts = .error e ↔
      (read terminator ts).strict = .error e := by
  rw [← consume_strict]
  cases consume .strict terminator ts <;> simp [Except.map]

theorem consume_strict_eq_ok_iff {taken : Taken ts} :
    consume .strict terminator ts = .ok taken ↔
      (read terminator ts).strict = .ok taken.reading := by
  rw [← consume_strict]
  cases consume .strict terminator ts <;>
    simp [Except.map, Taken.reading, Taken.ext_iff]

end Callers

/-- **A strict caller undoes flattening**: it gets the component values that
are well-formed and flatten to the tokens, and it is refused the tokens whose
brackets do not match, whatever else they are. -/
theorem consume_strict_iff_flattenAll (ts : List Token) :
    (∀ values, (consume .strict none ts).map Taken.values = .ok values ↔
        WellFormedAll values ∧ flattenAll values = ts) ∧
      ((∃ e, consume .strict none ts = .error e) ↔ closes [] ts = false) := by
  obtain ⟨hvalues, herror⟩ := strict_read_eq_ok_iff ts
  refine ⟨fun values => ?_, ?_⟩
  · have hmap : (consume .strict none ts).map Taken.values =
        (read none ts).strict.map Reading.values := by
      rw [← consume_strict]
      cases consume .strict none ts <;> rfl
    rw [hmap, hvalues]
  · simp only [consume_strict_eq_error_iff]
    exact herror

/-- **A lenient caller loses nothing, and a strict one only refuses.** Without
an error the lenient caller gets what stands before the first terminator with
nothing open, or the whole input and the brackets that are still awaited. The
strict caller gets the same, with the same tokens left, exactly if no stray
bracket was kept and the end is where it should be. -/
theorem consume_lossless (terminator : Option Terminator) (ts : List Token) :
    ∃ taken, consume .lenient terminator ts = .ok taken ∧
      (EndsAfter terminator [] (flattenAll taken.values) taken.rest ts ∨
        Unended terminator [] ts ∧ taken.rest = [] ∧
          flattenAll taken.values = ts ++ (awaited [] ts).map .closing) ∧
      ∀ result, consume .strict terminator ts = .ok result ↔
        result = taken ∧ WellFormedAll taken.values ∧
          (¬ Unended terminator [] ts ∨
            terminator = none ∧ awaited [] ts = []) := by
  obtain ⟨taken, htaken, hvalues, hrest⟩ :=
    exists_consume_lenient terminator ts
  obtain ⟨haccount, hstrict⟩ := read_lossless terminator ts
  rw [← hvalues, ← hrest] at haccount
  refine ⟨taken, htaken, haccount, fun result => ?_⟩
  rw [consume_strict_eq_ok_iff, hvalues]
  constructor
  · intro h
    obtain ⟨hreading, hkept⟩ := (hstrict _).mp h
    have hsame : result = taken := Taken.ext
      ((congrArg Reading.values hreading).trans hvalues.symm)
      ((congrArg Reading.rest hreading).trans hrest.symm)
    exact ⟨hsame, hkept⟩
  · rintro ⟨rfl, hkept⟩
    have hread := (hstrict _).mpr ⟨rfl, hkept⟩
    have hfault := (Reading.strict_eq_ok_iff.mp hread).2
    rw [hread, Taken.reading, hvalues, hrest, ← hfault]

end Component

end StyleProbe.Css
