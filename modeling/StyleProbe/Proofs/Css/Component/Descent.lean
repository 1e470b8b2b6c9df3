import StyleProbe.Proofs.Css.Component.Balance
import StyleProbe.Proofs.Css.Token.Lexed

/-!
# Reading by descent

The reader is one pass with a stack of frames. It comes to the same as
reading by descent: a list is read one component value after the other, and
the body of a function or block is a list of its own, which ends at its own
bracket. A strict reader may then stop at the first fault, since what comes
after it changes nothing.

Main statements: `read_cons` and `strict_read_cons` (the equations of the
descent) and `strict_read_eq_ok_iff` (strict reading undoes flattening, and
refuses exactly the tokens whose brackets do not match).
-/

namespace StyleProbe.Css

namespace Component

/-! ## A frame is a list of its own -/

section Frames

variable {terminator : Option Terminator}

/-- A fault that was met before comes before all others, and changes nothing
else. -/
theorem readFrom_fault (frames : List Frame) (done : List Component)
    (fault : Option Error) (ts : List Token) :
    readFrom terminator frames done fault ts =
      { readFrom terminator frames done none ts with
        fault := fault.or (readFrom terminator frames done none ts).fault } := by
  induction ts generalizing frames done fault with
  | nil => simp [readFrom]
  | cons t ts ih =>
    rw [readFrom_cons, readFrom_cons]
    by_cases hawaited :
        (expected? terminator frames).map Terminator.token = some t
    · rw [if_pos hawaited, if_pos hawaited]
      cases frames with
      | nil => simp
      | cons frame frames => exact ih frames _ fault
    · rw [if_neg hawaited, if_neg hawaited]
      cases hopens : Opener.ofToken? t with
      | some opener => exact ih _ _ fault
      | none =>
        dsimp only
        rw [ih frames _ (fault.or (strayFault? t)),
          ih frames _ (none.or (strayFault? t)), Option.or_assoc,
          Option.none_or]

theorem closeAll_append (frames : List Frame) (frame : Frame)
    (outer : List Frame) (done : List Component) :
    closeAll (frames ++ frame :: outer) done =
      closeAll outer
        (frame.opener.close (closeAll frames done) :: frame.before) := by
  induction frames generalizing done with
  | nil => rfl
  | cons first frames ih => exact ih _

theorem expected?_append (frames : List Frame) (frame : Frame)
    (outer : List Frame) :
    expected? terminator (frames ++ frame :: outer) =
      expected? (some (.bracket frame.opener.bracket)) frames := by
  cases frames <;> rfl

/-- **A frame is read apart**: the tokens are read as the body of the frame
up to its own bracket, and then on in the list around it. -/
theorem readFrom_append (frames : List Frame) (frame : Frame)
    (outer : List Frame) (done : List Component) (fault : Option Error)
    (ts : List Token) :
    readFrom terminator (frames ++ frame :: outer) done fault ts =
      let body :=
        readFrom (some (.bracket frame.opener.bracket)) frames done fault ts
      readFrom terminator outer
        (frame.opener.close body.values :: frame.before) body.fault
        body.rest := by
  induction ts generalizing frames done fault with
  | nil =>
    obtain ⟨e, he⟩ : ∃ e,
        expected? (some (.bracket frame.opener.bracket)) frames = some e := by
      cases frames with
      | nil => exact ⟨_, rfl⟩
      | cons first frames => exact ⟨_, rfl⟩
    simp [readFrom, closeAll_append, expected?_append, he]
  | cons t ts ih =>
    rw [readFrom_cons, readFrom_cons, expected?_append]
    by_cases hawaited :
        (expected? (some (.bracket frame.opener.bracket)) frames).map
          Terminator.token = some t
    · rw [if_pos hawaited, if_pos hawaited]
      cases frames with
      | nil => rfl
      | cons first frames => exact ih frames _ fault
    · rw [if_neg hawaited, if_neg hawaited]
      cases hopens : Opener.ofToken? t with
      | some opener => exact ih (⟨opener, done⟩ :: frames) [] fault
      | none => exact ih frames _ _

end Frames

/-! ## One component value after the other -/

section Values

variable {terminator : Option Terminator} {t : Token}

theorem length_rest_readOne (t : Token) (ts : List Token) :
    (readOne t ts).rest.length ≤ ts.length := by
  unfold readOne
  cases Opener.ofToken? t with
  | some opener => exact length_rest_read _ ts
  | none => exact Nat.le_refl _

/-- With nothing open, one whole component value is taken at a time. -/
theorem readFrom_readOne
    (hne : terminator.map Terminator.token ≠ some t) (done : List Component)
    (fault : Option Error) (ts : List Token) :
    readFrom terminator [] done fault (t :: ts) =
      readFrom terminator [] ((readOne t ts).values ++ done)
        (fault.or (readOne t ts).fault) (readOne t ts).rest := by
  cases hopens : Opener.ofToken? t with
  | none =>
    have hne' : (expected? terminator []).map Terminator.token ≠ some t := hne
    rw [readFrom_cons, if_neg hne']
    simp [readOne, hopens]
  | some opener =>
    rw [readFrom_opens hopens]
    refine (readFrom_append [] ⟨opener, done⟩ [] [] fault ts).trans ?_
    rw [readFrom_fault [] []]
    simp [readOne, hopens, read]

theorem readFrom_nil (done : List Component) (fault : Option Error)
    (ts : List Token) :
    readFrom terminator [] done fault ts =
      { values := done.reverse ++ (read terminator ts).values
        rest := (read terminator ts).rest
        fault := fault.or (read terminator ts).fault } := by
  -- On the length: what follows a component value is no tail of the list by
  -- structure.
  induction hn : ts.length using Nat.strongRecOn generalizing done fault ts with
  | _ n ih =>
  subst hn
  cases ts with
  | nil => simp [read, readFrom, closeAll]
  | cons t ts =>
    by_cases hends : terminator.map Terminator.token = some t
    · rw [read, readFrom_cons, readFrom_cons]
      simp [expected?, hends]
    · have hlt : (readOne t ts).rest.length < (t :: ts).length :=
        Nat.lt_succ_of_le (length_rest_readOne t ts)
      rw [read, readFrom_readOne hends, readFrom_readOne hends,
        ih _ hlt _ _ _ rfl, ih _ hlt ((readOne t ts).values ++ []) _ _ rfl]
      simp [Option.or_assoc]

/-- **A list is read one component value after the other**, unless the
terminator stands first. -/
theorem read_cons (terminator : Option Terminator) (t : Token)
    (ts : List Token) :
    read terminator (t :: ts) =
      if terminator.map Terminator.token = some t then ⟨[], ts, none⟩
      else
        let first := readOne t ts
        let later := read terminator first.rest
        { values := first.values ++ later.values
          rest := later.rest
          fault := first.fault.or later.fault } := by
  by_cases hends : terminator.map Terminator.token = some t
  · rw [if_pos hends, read, readFrom_cons]
    exact if_pos hends
  · have hsingle : (readOne t ts).values.reverse = (readOne t ts).values := by
      unfold readOne
      cases Opener.ofToken? t <;> rfl
    rw [if_neg hends, read, readFrom_readOne hends, readFrom_nil]
    simp [hsingle]

theorem read_nil (terminator : Option Terminator) :
    read terminator [] = ⟨[], [], terminator.map .unclosed⟩ := by
  simp [read, readFrom, closeAll, expected?]

end Values

/-! ## Strict reading -/

/-- **Strict reading stops at the first fault**: it reads the first component
value strictly, and the others only if that succeeds. -/
theorem strict_read_cons (terminator : Option Terminator) (t : Token)
    (ts : List Token) :
    (read terminator (t :: ts)).strict =
      if terminator.map Terminator.token = some t then .ok ⟨[], ts, none⟩
      else do
        let first ← (readOne t ts).strict
        let later ← (read terminator first.rest).strict
        return ⟨first.values ++ later.values, later.rest, none⟩ := by
  rw [read_cons]
  by_cases hends : terminator.map Terminator.token = some t
  · rw [if_pos hends, if_pos hends]
    rfl
  · rw [if_neg hends, if_neg hends]
    cases hfirst : (readOne t ts).fault with
    | some e => simp [Reading.strict, hfirst, bind, Except.bind]
    | none =>
      cases hlater : (read terminator (readOne t ts).rest).fault with
      | some e => simp [Reading.strict, hfirst, hlater, bind, Except.bind]
      | none =>
        simp [Reading.strict, hfirst, hlater, bind, Except.bind, pure,
          Except.pure]

theorem Reading.strict_eq_ok_iff {reading result : Reading} :
    reading.strict = .ok result ↔ result = reading ∧ reading.fault = none := by
  unfold Reading.strict
  cases hfault : reading.fault with
  | none => simp [eq_comm]
  | some e => simp

/-- A declaration value is what its tokens are the flattening of, trimmed. -/
theorem parseValue_eq_ok_iff {text : String} {values : List Component} :
    parseValue text = .ok values ↔
      ∃ contents, WellFormedAll contents ∧
        tokenize text = .ok (flattenAll contents) ∧ trim contents = values := by
  unfold parseValue
  constructor
  · intro h
    cases htokens : tokenize text with
    | error e =>
      rw [htokens] at h
      cases h
    | ok ts =>
      rw [htokens] at h
      cases hstrict : (read none ts).strict with
      | error e =>
        simp only [bind, Except.bind, hstrict] at h
        cases h
      | ok reading =>
        simp only [bind, Except.bind, hstrict] at h
        cases h
        obtain ⟨rfl, hfault⟩ := Reading.strict_eq_ok_iff.mp hstrict
        obtain ⟨hformed, hflatten⟩ := flattenAll_values_of_no_fault hfault
        exact ⟨_, hformed, by rw [hflatten], rfl⟩
  · rintro ⟨contents, hformed, htokens, rfl⟩
    simp only [htokens, bind, Except.bind, read_flattenAll hformed]
    rfl

theorem mem_flattenAll_of_trim {t : Token} {values : List Component}
    (h : t ∈ flattenAll (trim values)) : t ∈ flattenAll values := by
  obtain ⟨value, hvalue, ht⟩ := mem_flattenAll.mp h
  exact mem_flattenAll.mpr ⟨value, mem_of_mem_trimBy hvalue, ht⟩

theorem exists_tokenize_of_parseValue {text : String}
    {values : List Component} (h : parseValue text = .ok values) :
    ∃ ts, tokenize text = .ok ts ∧ ∀ t ∈ flattenAll values, t ∈ ts := by
  obtain ⟨contents, -, htokens, rfl⟩ := parseValue_eq_ok_iff.mp h
  exact ⟨_, htokens, fun t ht => mem_flattenAll_of_trim ht⟩

theorem lexed_of_mem_parseValue {text : String} {values : List Component}
    (h : parseValue text = .ok values) :
    ∀ t ∈ flattenAll values, t.Lexed := by
  obtain ⟨ts, htokens, hmem⟩ := exists_tokenize_of_parseValue h
  exact fun t ht => lexed_of_mem_tokenize htokens t (hmem t ht)

theorem fault_eq_none_iff (ts : List Token) :
    (read none ts).fault = none ↔ closes [] ts = true := by
  constructor
  · intro h
    exact closes_of_no_fault h
  · intro h
    obtain ⟨values, hvalues, rfl⟩ := balanced_iff_closes.mpr h
    rw [read_flattenAll hvalues]

/-- **Strict reading undoes flattening**: it gives the component values that
are well-formed and flatten to the tokens, and it refuses the tokens whose
brackets do not match, whatever else they are. -/
theorem strict_read_eq_ok_iff (ts : List Token) :
    (∀ values, (read none ts).strict.map Reading.values = .ok values ↔
        WellFormedAll values ∧ flattenAll values = ts) ∧
      ((∃ e, (read none ts).strict = .error e) ↔ closes [] ts = false) := by
  constructor
  · intro values
    constructor
    · intro h
      cases hstrict : (read none ts).strict with
      | error e =>
        rw [hstrict] at h
        cases h
      | ok result =>
        rw [hstrict] at h
        cases h
        obtain ⟨rfl, hfault⟩ := Reading.strict_eq_ok_iff.mp hstrict
        exact flattenAll_values_of_no_fault hfault
    · rintro ⟨hvalues, rfl⟩
      rw [read_flattenAll hvalues]
      rfl
  · rw [← Bool.not_eq_true, ← fault_eq_none_iff]
    unfold Reading.strict
    cases (read none ts).fault with
    | none => simp
    | some e => simp

end Component

end StyleProbe.Css
