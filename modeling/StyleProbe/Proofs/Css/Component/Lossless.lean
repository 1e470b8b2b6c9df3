import StyleProbe.Proofs.Css.Component.Descent

/-!
# What a reading keeps

The reader takes any tokens whatever. Flattening what it read gives back the
tokens it took, and at the end of the input also the brackets it had to
invent: those of the functions and blocks that were still open, innermost
first.

Which brackets are open is counted along the tokens by `awaited`, without
the reader. A closing bracket ends the wait for its own kind only, so one of
another kind is a token like any other. The terminator counts where nothing
is open; the first such place is where reading stops.

Main statement: `read_lossless`. It rests on one step of the reader
(`exists_step`), which keeps the account of the tokens taken so far, and on
the run over all tokens (`readFrom_account`).
-/

namespace StyleProbe.Css

namespace Component

/-! ## Brackets that are open -/

/-- The brackets that are awaited after one more token, innermost first. -/
def awaitAfter (pending : List Bracket) (t : Token) : List Bracket :=
  match Opener.ofToken? t with
  | some opener => opener.bracket :: pending
  | none =>
    match pending with
    | [] => []
    | bracket :: outer =>
      if t = .closing bracket then outer else bracket :: outer

/-- The brackets that are awaited after the tokens, innermost first. -/
def awaited (pending : List Bracket) (ts : List Token) : List Bracket :=
  ts.foldl awaitAfter pending

/-- Nowhere among the tokens does the terminator stand with nothing open. -/
def Unended (terminator : Option Terminator) (pending : List Bracket)
    (ts : List Token) : Prop :=
  ∀ expected ∈ terminator, ∀ before after,
    ts = before ++ expected.token :: after → awaited pending before ≠ []

/-- The terminator comes right after `own`, with nothing open for the first
time, and `rest` is what follows it. -/
structure EndsAfter (terminator : Option Terminator) (pending : List Bracket)
    (own rest ts : List Token) : Prop where
  split : ∃ expected ∈ terminator, ts = own ++ expected.token :: rest
  level : awaited pending own = []
  first : Unended terminator pending own

section Unended

variable {terminator : Option Terminator} {pending : List Bracket}
  {t : Token} {ts own rest : List Token}

theorem unended_nil : Unended terminator pending [] := by
  intro expected _ before after h
  simp at h

theorem unended_cons :
    Unended terminator pending (t :: ts) ↔
      (pending = [] → terminator.map Terminator.token ≠ some t) ∧
        Unended terminator (awaitAfter pending t) ts := by
  constructor
  · intro h
    refine ⟨?_, ?_⟩
    · intro hpending hterminator
      obtain ⟨expected, hexpected, rfl⟩ :=
        Option.map_eq_some_iff.mp hterminator
      exact h expected hexpected [] ts rfl hpending
    · intro expected hexpected before after hts
      exact h expected hexpected (t :: before) after (by rw [hts]; rfl)
  · rintro ⟨hfirst, hlater⟩ expected hexpected before after hts
    cases before with
    | nil =>
      obtain ⟨rfl, rfl⟩ := List.cons.inj hts
      intro hpending
      exact hfirst hpending (by rw [hexpected]; rfl)
    | cons first before =>
      obtain ⟨rfl, rfl⟩ := List.cons.inj hts
      exact hlater expected hexpected before after rfl

theorem EndsAfter.cons
    (hfirst : pending = [] → terminator.map Terminator.token ≠ some t)
    (h : EndsAfter terminator (awaitAfter pending t) own rest ts) :
    EndsAfter terminator pending (t :: own) rest (t :: ts) where
  split := by
    obtain ⟨expected, hexpected, rfl⟩ := h.split
    exact ⟨expected, hexpected, rfl⟩
  level := h.level
  first := unended_cons.mpr ⟨hfirst, h.first⟩

theorem EndsAfter.not_unended (h : EndsAfter terminator pending own rest ts) :
    ¬ Unended terminator pending ts := by
  intro hunended
  obtain ⟨expected, hexpected, hts⟩ := h.split
  exact hunended expected hexpected own rest hts h.level

end Unended

/-! ## Tokens that were taken -/

/-- The token that opens it. -/
def Opener.token : Opener → Token
  | .function name => .function name
  | .block bracket => .opening bracket

theorem Opener.token_of_ofToken? {t : Token} {opener : Opener}
    (h : Opener.ofToken? t = some opener) : opener.token = t := by
  cases t <;> cases h <;> rfl

/-- The brackets of the open frames, innermost first. -/
def brackets (frames : List Frame) : List Bracket :=
  frames.map (·.opener.bracket)

/-- The tokens taken when the frames are open and `done` has been read in
the innermost one, latest first. -/
def taken : List Frame → List Component → List Token
  | [], done => flattenAll done.reverse
  | frame :: frames, done =>
    taken frames frame.before ++ frame.opener.token :: flattenAll done.reverse

/-- Nothing that has been read is a stray bracket. -/
def Clean (frames : List Frame) (done : List Component) : Prop :=
  WellFormedAll done ∧ ∀ frame ∈ frames, WellFormedAll frame.before

section Taken

variable {frames : List Frame} {done : List Component}

theorem taken_cons (value : Component) :
    taken frames (value :: done) = taken frames done ++ flatten value := by
  cases frames <;> simp [taken, flattenAll, flattenAll_append]

theorem taken_open (opener : Opener) :
    taken (⟨opener, done⟩ :: frames) [] =
      taken frames done ++ [opener.token] := by
  simp [taken, flattenAll]

theorem flatten_close_reverse (opener : Opener) :
    flatten (opener.close done.reverse) =
      opener.token ::
        (flattenAll done.reverse ++ [.closing opener.bracket]) := by
  cases opener <;> rfl

theorem taken_close (frame : Frame) :
    taken frames (frame.opener.close done.reverse :: frame.before) =
      taken (frame :: frames) done ++ [.closing frame.opener.bracket] := by
  rw [taken_cons, flatten_close_reverse]
  simp [taken]

/-- Closing everything adds the brackets of the open frames. -/
theorem flattenAll_closeAll (frames : List Frame) (done : List Component) :
    flattenAll (closeAll frames done) =
      taken frames done ++ (brackets frames).map .closing := by
  induction frames generalizing done with
  | nil => simp [closeAll, taken, brackets]
  | cons frame frames ih =>
    rw [closeAll, ih, taken_close]
    simp [brackets]

theorem clean_token {t : Token} :
    Clean frames (.token t :: done) ↔ t.isPlain = true ∧ Clean frames done := by
  simp [Clean, WellFormedAll, WellFormed, and_assoc]

theorem clean_open (opener : Opener) :
    Clean (⟨opener, done⟩ :: frames) [] ↔ Clean frames done := by
  simp [Clean, WellFormedAll]

theorem clean_close (frame : Frame) :
    Clean frames (frame.opener.close done.reverse :: frame.before) ↔
      Clean (frame :: frames) done := by
  simp [Clean, WellFormedAll, wellFormed_close, wellFormedAll_reverse,
    and_assoc]

theorem wellFormedAll_closeAll (frames : List Frame) (done : List Component) :
    WellFormedAll (closeAll frames done) ↔ Clean frames done := by
  induction frames generalizing done with
  | nil => simp [closeAll, Clean, wellFormedAll_reverse]
  | cons frame frames ih => rw [closeAll, ih, clean_close]

end Taken

/-! ## One step -/

/-- The state of the reader is right about the brackets that are open, the
tokens taken and the faults met. -/
structure Account (pending : List Bracket) (tokens : List Token)
    (frames : List Frame) (done : List Component) (fault : Option Error) :
    Prop where
  pending_eq : brackets frames = pending
  taken_eq : taken frames done = tokens
  fault_iff : fault = none ↔ Clean frames done

section Step

variable {terminator : Option Terminator} {pending : List Bracket}
  {tokens : List Token} {frames : List Frame} {done : List Component}
  {fault : Option Error}

/-- A token that is not the awaited bracket and opens nothing stands for
itself. -/
theorem awaitAfter_of_stands {t : Token} (hopens : Opener.ofToken? t = none)
    (hne : (expected? none frames).map Terminator.token ≠ some t) :
    awaitAfter (brackets frames) t = brackets frames := by
  unfold awaitAfter
  rw [hopens]
  cases frames with
  | nil => rfl
  | cons frame frames =>
    have hbracket : t ≠ .closing frame.opener.bracket := by
      rintro rfl
      exact hne rfl
    simp [brackets, hbracket]

theorem strayFault?_eq_none_iff {t : Token}
    (hopens : Opener.ofToken? t = none) :
    strayFault? t = none ↔ t.isPlain = true := by
  rcases plain_or_opens_or_closes t with ⟨hplain, -, hstray⟩ | ⟨opener, ho⟩ |
    ⟨bracket, rfl⟩
  · simp [hplain, hstray]
  · rw [ho] at hopens
    cases hopens
  · simp [strayFault?, Token.isPlain]

theorem Account.closes {frame : Frame}
    (h : Account pending tokens (frame :: frames) done fault) :
    Account (awaitAfter pending (.closing frame.opener.bracket))
      (tokens ++ [.closing frame.opener.bracket]) frames
      (frame.opener.close done.reverse :: frame.before) fault := by
  obtain ⟨rfl, rfl, hfault⟩ := h
  refine ⟨?_, taken_close frame, ?_⟩
  · simp [awaitAfter, Opener.ofToken?, brackets]
  · rw [clean_close]
    exact hfault

theorem Account.opens {t : Token} {opener : Opener}
    (h : Account pending tokens frames done fault)
    (hopens : Opener.ofToken? t = some opener) :
    Account (awaitAfter pending t) (tokens ++ [t]) (⟨opener, done⟩ :: frames)
      [] fault := by
  obtain ⟨rfl, rfl, hfault⟩ := h
  refine ⟨?_, ?_, ?_⟩
  · simp [awaitAfter, hopens, brackets]
  · rw [taken_open, Opener.token_of_ofToken? hopens]
  · rw [clean_open]
    exact hfault

theorem Account.stands {t : Token}
    (h : Account pending tokens frames done fault)
    (hopens : Opener.ofToken? t = none)
    (hne : (expected? none frames).map Terminator.token ≠ some t) :
    Account (awaitAfter pending t) (tokens ++ [t]) frames (.token t :: done)
      (fault.or (strayFault? t)) := by
  obtain ⟨rfl, rfl, hfault⟩ := h
  refine ⟨(awaitAfter_of_stands hopens hne).symm, ?_, ?_⟩
  · rw [taken_cons, flatten]
  · rw [Option.or_eq_none_iff, clean_token, hfault, and_comm,
      strayFault?_eq_none_iff hopens]

/-- **One step keeps the account**: unless the token is the terminator with
nothing open, the reader goes on with that token taken. -/
theorem exists_step (h : Account pending tokens frames done fault) {t : Token}
    (hfirst : pending = [] → terminator.map Terminator.token ≠ some t)
    (ts : List Token) :
    ∃ frames' done' fault',
      readFrom terminator frames done fault (t :: ts) =
        readFrom terminator frames' done' fault' ts ∧
      Account (awaitAfter pending t) (tokens ++ [t]) frames' done' fault' := by
  by_cases hawaited : (expected? none frames).map Terminator.token = some t
  · cases frames with
    | nil => cases hawaited
    | cons frame frames =>
      cases hawaited
      exact ⟨_, _, _, readFrom_closes frame, h.closes⟩
  · have hne : (expected? terminator frames).map Terminator.token ≠ some t := by
      cases frames with
      | nil => exact hfirst h.pending_eq.symm
      | cons frame frames => exact hawaited
    cases hopens : Opener.ofToken? t with
    | some opener => exact ⟨_, _, _, readFrom_opens hopens, h.opens hopens⟩
    | none =>
      refine ⟨_, _, _, ?_, h.stands hopens hawaited⟩
      rw [readFrom_cons, if_neg hne]
      simp only [hopens]

end Step

/-! ## The run -/

/-- Reading stopped at the terminator. -/
structure Stopped (terminator : Option Terminator) (pending : List Bracket)
    (tokens ts : List Token) (reading : Reading) : Prop where
  ends : ∃ own, EndsAfter terminator pending own reading.rest ts ∧
    flattenAll reading.values = tokens ++ own
  fault_iff : reading.fault = none ↔ WellFormedAll reading.values

/-- Reading came to the end of the input. -/
structure RanOut (terminator : Option Terminator) (pending : List Bracket)
    (tokens ts : List Token) (reading : Reading) : Prop where
  unended : Unended terminator pending ts
  rest_eq : reading.rest = []
  flatten_eq : flattenAll reading.values =
    tokens ++ ts ++ (awaited pending ts).map .closing
  fault_iff : reading.fault = none ↔
    WellFormedAll reading.values ∧ terminator = none ∧ awaited pending ts = []

section Run

variable {terminator : Option Terminator} {pending : List Bracket}
  {tokens : List Token} {frames : List Frame} {done : List Component}
  {fault : Option Error}

theorem ranOut_nil (h : Account pending tokens frames done fault) :
    RanOut terminator pending tokens []
      (readFrom terminator frames done fault []) := by
  obtain ⟨rfl, rfl, hfault⟩ := h
  refine ⟨unended_nil, rfl, ?_, ?_⟩
  · rw [readFrom, flattenAll_closeAll, List.append_nil]
    rfl
  · rw [readFrom, wellFormedAll_closeAll, Option.or_eq_none_iff, hfault]
    refine and_congr Iff.rfl ?_
    cases frames with
    | nil => simp [expected?, awaited, brackets]
    | cons frame frames => simp [expected?, awaited, brackets]

theorem stopped_terminator (h : Account [] tokens frames done fault)
    (expected : Terminator) (ts : List Token) :
    Stopped (some expected) [] tokens (expected.token :: ts)
      (readFrom (some expected) frames done fault (expected.token :: ts)) := by
  obtain ⟨hpending, rfl, hfault⟩ := h
  obtain rfl : frames = [] := List.map_eq_nil_iff.mp hpending
  rw [readFrom_terminator]
  refine ⟨⟨[], ⟨⟨expected, rfl, rfl⟩, rfl, unended_nil⟩, ?_⟩, ?_⟩
  · rw [List.append_nil]
    rfl
  · rw [hfault, wellFormedAll_reverse]
    simp [Clean]

/-- **The run keeps the account**: reading stops at the first terminator that
stands with nothing open, or runs out of input. -/
theorem readFrom_account (h : Account pending tokens frames done fault)
    (ts : List Token) :
    Stopped terminator pending tokens ts
        (readFrom terminator frames done fault ts) ∨
      RanOut terminator pending tokens ts
        (readFrom terminator frames done fault ts) := by
  induction ts generalizing pending tokens frames done fault with
  | nil => exact .inr (ranOut_nil h)
  | cons t ts ih =>
    by_cases hends : pending = [] ∧ terminator.map Terminator.token = some t
    · obtain ⟨rfl, hterminator⟩ := hends
      obtain ⟨expected, rfl, rfl⟩ := Option.map_eq_some_iff.mp hterminator
      exact .inl (stopped_terminator h expected ts)
    · have hfirst : pending = [] →
          terminator.map Terminator.token ≠ some t :=
        fun hpending hterminator => hends ⟨hpending, hterminator⟩
      obtain ⟨frames', done', fault', hstep, haccount⟩ :=
        exists_step h hfirst ts
      rw [hstep]
      rcases ih haccount with hstopped | hran
      · left
        obtain ⟨own, hown, hflatten⟩ := hstopped.ends
        refine ⟨⟨t :: own, hown.cons hfirst, ?_⟩, hstopped.fault_iff⟩
        rw [hflatten, List.append_assoc, List.singleton_append]
      · right
        refine ⟨unended_cons.mpr ⟨hfirst, hran.unended⟩, hran.rest_eq, ?_,
          hran.fault_iff⟩
        rw [hran.flatten_eq]
        simp [awaited]

end Run

/-- What became of the input when it has been read. -/
theorem read_account (terminator : Option Terminator) (ts : List Token) :
    Stopped terminator [] [] ts (read terminator ts) ∨
      RanOut terminator [] [] ts (read terminator ts) := by
  have hstart : Account [] [] [] [] none :=
    ⟨rfl, rfl, by simp [Clean, WellFormedAll]⟩
  exact readFrom_account hstart ts

/-- What is read holds the tokens of the input and brackets that end
something. -/
theorem mem_or_closing_of_mem_read {terminator : Option Terminator}
    {ts : List Token} {t : Token}
    (h : t ∈ flattenAll (read terminator ts).values) :
    t ∈ ts ∨ ∃ bracket, t = .closing bracket := by
  rcases read_account terminator ts with hstopped | hran
  · obtain ⟨own, hown, hflatten⟩ := hstopped.ends
    obtain ⟨expected, -, hts⟩ := hown.split
    rw [hflatten, List.nil_append] at h
    rw [hts]
    exact .inl (List.mem_append_left _ h)
  · rw [hran.flatten_eq, List.nil_append] at h
    rcases List.mem_append.mp h with h | h
    · exact .inl h
    · obtain ⟨bracket, -, rfl⟩ := List.mem_map.mp h
      exact .inr ⟨bracket, rfl⟩

theorem mem_of_mem_rest_read {terminator : Option Terminator}
    {ts : List Token} {t : Token} (h : t ∈ (read terminator ts).rest) :
    t ∈ ts := by
  rcases read_account terminator ts with hstopped | hran
  · obtain ⟨own, hown, -⟩ := hstopped.ends
    obtain ⟨expected, -, hts⟩ := hown.split
    rw [hts]
    exact List.mem_append_right _ (List.mem_cons_of_mem _ h)
  · rw [hran.rest_eq] at h
    cases h

/-- **Reading loses nothing, and strict reading only refuses**: a reading
stops at the first terminator that stands with nothing open, and its
flattening is what came before; or it takes the whole input, and its
flattening is the input with the brackets that are still awaited. Asked to be
strict, the reader gives the same reading exactly when it kept no stray
bracket and stopped where it should. -/
theorem read_lossless (terminator : Option Terminator) (ts : List Token) :
    (EndsAfter terminator [] (flattenAll (read terminator ts).values)
          (read terminator ts).rest ts ∨
        Unended terminator [] ts ∧ (read terminator ts).rest = [] ∧
          flattenAll (read terminator ts).values =
            ts ++ (awaited [] ts).map .closing) ∧
      ∀ result, (read terminator ts).strict = .ok result ↔
        result = read terminator ts ∧
          WellFormedAll (read terminator ts).values ∧
          (¬ Unended terminator [] ts ∨
            terminator = none ∧ awaited [] ts = []) := by
  rcases read_account terminator ts with hstopped | hran
  · obtain ⟨own, hown, hflatten⟩ := hstopped.ends
    obtain rfl : flattenAll (read terminator ts).values = own := hflatten
    refine ⟨.inl hown, ?_⟩
    intro result
    rw [Reading.strict_eq_ok_iff, hstopped.fault_iff]
    simp [hown.not_unended]
  · refine ⟨.inr ⟨hran.unended, hran.rest_eq, hran.flatten_eq⟩, ?_⟩
    intro result
    rw [Reading.strict_eq_ok_iff, hran.fault_iff]
    simp [hran.unended]

end Component

end StyleProbe.Css
