import StyleProbe.Css.Component.Reader

/-!
# Balanced tokens

Tokens are balanced when they are the flattening of well-formed component
values: every bracket that opens is closed by its own kind, and nothing is
closed that was not opened. `closes` decides the same by counting along with
a stack of open brackets, which also makes sense in the middle of a
balanced list.

The reader undoes flattening. It takes well-formed component values off the
front of its input whatever frames are open around them, so a block ends at
its own bracket.

Main statements: `readFrom_flattenAll` (reading a flattened list),
`balanced_iff_closes` (the two views of balance) and
`flattenAll_values_of_no_fault` (a reading without a fault loses nothing).
-/

namespace StyleProbe.Css

/-- A token that stands for itself: neither a function nor a bracket. -/
def Token.isPlain : Token → Bool
  | .function _ => false
  | .opening _ => false
  | .closing _ => false
  | _ => true

namespace Component

mutual

/-- No token on its own opens or closes anything, at any depth. -/
def WellFormed : Component → Prop
  | token t => t.isPlain = true
  | function _ body => WellFormedAll body
  | block _ body => WellFormedAll body

/-- All of the component values are well-formed. -/
def WellFormedAll : List Component → Prop
  | [] => True
  | value :: values => WellFormed value ∧ WellFormedAll values

end

/-- The tokens are the flattening of well-formed component values. -/
def Balanced (tokens : List Token) : Prop :=
  ∃ values, WellFormedAll values ∧ flattenAll values = tokens

theorem wellFormedAll_iff {values : List Component} :
    WellFormedAll values ↔ ∀ value ∈ values, value.WellFormed := by
  induction values with
  | nil => simp [WellFormedAll]
  | cons value values ih => simp [WellFormedAll, ih]

theorem wellFormedAll_reverse {values : List Component} :
    WellFormedAll values.reverse ↔ WellFormedAll values := by
  simp [wellFormedAll_iff]

theorem wellFormed_close (opener : Opener) (body : List Component) :
    (opener.close body).WellFormed ↔ WellFormedAll body := by
  cases opener <;> rfl

theorem flatten_close {t : Token} {opener : Opener}
    (h : Opener.ofToken? t = some opener) (body : List Component) :
    flatten (opener.close body) =
      t :: (flattenAll body ++ [.closing opener.bracket]) := by
  cases t <;> cases h <;> rfl

/-- A token is plain, opens something, or is a closing bracket. -/
theorem plain_or_opens_or_closes (t : Token) :
    (t.isPlain = true ∧ Opener.ofToken? t = none ∧ strayFault? t = none) ∨
      (∃ opener, Opener.ofToken? t = some opener) ∨
      ∃ bracket, t = .closing bracket := by
  cases t with
  | function name => exact .inr (.inl ⟨.function name, rfl⟩)
  | opening bracket => exact .inr (.inl ⟨.block bracket, rfl⟩)
  | closing bracket => exact .inr (.inr ⟨bracket, rfl⟩)
  | _ => exact .inl ⟨rfl, rfl, rfl⟩

/-! ## Steps of the reader -/

section Steps

variable {terminator : Option Terminator} {frames : List Frame}
  {done : List Component} {fault : Option Error} {ts : List Token}

theorem expected?_ne_of_not_closing {t : Token}
    (hbracket : ∀ b, t ≠ .closing b) (hsemicolon : t ≠ .semicolon) :
    (expected? terminator frames).map Terminator.token ≠ some t := by
  intro h
  obtain ⟨expected, _, rfl⟩ := Option.map_eq_some_iff.mp h
  cases expected with
  | bracket b => exact hbracket b rfl
  | semicolon => exact hsemicolon rfl

/-- One step of the reader, whatever is open. -/
theorem readFrom_cons (t : Token) :
    readFrom terminator frames done fault (t :: ts) =
      if (expected? terminator frames).map Terminator.token = some t then
        match frames with
        | [] => { values := done.reverse, rest := ts, fault }
        | frame :: frames =>
          readFrom terminator frames
            (frame.opener.close done.reverse :: frame.before) fault ts
      else
        match Opener.ofToken? t with
        | some opener =>
          readFrom terminator (⟨opener, done⟩ :: frames) [] fault ts
        | none =>
          readFrom terminator frames (.token t :: done)
            (fault.or (strayFault? t)) ts := by
  cases frames <;> rfl

theorem readFrom_plain {t : Token} (hplain : t.isPlain = true)
    (hne : (expected? terminator frames).map Terminator.token ≠ some t) :
    readFrom terminator frames done fault (t :: ts) =
      readFrom terminator frames (.token t :: done) fault ts := by
  rcases plain_or_opens_or_closes t with ⟨_, hopens, hstray⟩ | ⟨o, ho⟩ |
    ⟨b, rfl⟩
  · rw [readFrom_cons, if_neg hne]
    simp only [hopens, hstray, Option.or_none]
  · cases t <;> cases hplain <;> cases ho
  · cases hplain

theorem readFrom_opens {t : Token} {opener : Opener}
    (h : Opener.ofToken? t = some opener) :
    readFrom terminator frames done fault (t :: ts) =
      readFrom terminator (⟨opener, done⟩ :: frames) [] fault ts := by
  have hne : (expected? terminator frames).map Terminator.token ≠ some t :=
    expected?_ne_of_not_closing (fun b hb => by subst hb; cases h)
      (fun hs => by subst hs; cases h)
  rw [readFrom_cons, if_neg hne]
  simp only [h]

theorem readFrom_closes (frame : Frame) :
    readFrom terminator (frame :: frames) done fault
        (.closing frame.opener.bracket :: ts) =
      readFrom terminator frames
        (frame.opener.close done.reverse :: frame.before) fault ts := by
  rw [readFrom_cons]
  exact if_pos rfl

theorem readFrom_terminator (expected : Terminator) :
    readFrom (some expected) [] done fault (expected.token :: ts) =
      ⟨done.reverse, ts, fault⟩ := by
  rw [readFrom_cons]
  exact if_pos rfl

end Steps

/-! ## Reading a flattened list -/

section Flattened

variable {terminator : Option Terminator}

mutual

theorem readFrom_flatten (hterminator : terminator ≠ some .semicolon)
    (value : Component) (hvalue : value.WellFormed) (frames : List Frame)
    (done : List Component) (fault : Option Error) (ts : List Token) :
    readFrom terminator frames done fault (flatten value ++ ts) =
      readFrom terminator frames (value :: done) fault ts := by
  cases value with
  | token t =>
    refine readFrom_plain hvalue ?_
    intro h
    obtain ⟨expected, hexpected, rfl⟩ := Option.map_eq_some_iff.mp h
    cases expected with
    | bracket b => cases hvalue
    | semicolon =>
      -- A semicolon is only ever awaited by the outermost list.
      cases frames with
      | nil => exact hterminator hexpected
      | cons frame frames => cases hexpected
  | function name body =>
    have hopens : Opener.ofToken? (.function name) = some (.function name) := rfl
    rw [flatten, List.cons_append, List.append_assoc, readFrom_opens hopens,
      readFrom_flattenAll hterminator body hvalue, List.append_nil]
    exact (readFrom_closes ⟨.function name, done⟩).trans
      (by rw [List.reverse_reverse]; rfl)
  | block bracket body =>
    have hopens : Opener.ofToken? (.opening bracket) = some (.block bracket) := rfl
    rw [flatten, List.cons_append, List.append_assoc, readFrom_opens hopens,
      readFrom_flattenAll hterminator body hvalue, List.append_nil]
    exact (readFrom_closes ⟨.block bracket, done⟩).trans
      (by rw [List.reverse_reverse]; rfl)

/-- The reader takes well-formed component values off the front, whatever is
open around them. -/
theorem readFrom_flattenAll (hterminator : terminator ≠ some .semicolon)
    (values : List Component) (hvalues : WellFormedAll values)
    (frames : List Frame) (done : List Component) (fault : Option Error)
    (ts : List Token) :
    readFrom terminator frames done fault (flattenAll values ++ ts) =
      readFrom terminator frames (values.reverse ++ done) fault ts := by
  cases values with
  | nil => rfl
  | cons value values =>
    rw [flattenAll, List.append_assoc,
      readFrom_flatten hterminator value hvalues.1,
      readFrom_flattenAll hterminator values hvalues.2, List.reverse_cons,
      List.append_assoc, List.singleton_append]

end

end Flattened

theorem read_flattenAll_closing (bracket : Bracket) {values : List Component}
    (hvalues : WellFormedAll values) (rest : List Token) :
    read (some (.bracket bracket))
        (flattenAll values ++ .closing bracket :: rest) =
      ⟨values, rest, none⟩ := by
  rw [read, readFrom_flattenAll (by simp) values hvalues, List.append_nil]
  refine (readFrom_terminator (.bracket bracket)).trans ?_
  rw [List.reverse_reverse]

theorem read_flattenAll {values : List Component}
    (hvalues : WellFormedAll values) :
    read none (flattenAll values) = ⟨values, [], none⟩ := by
  rw [← List.append_nil (flattenAll values), read,
    readFrom_flattenAll (by simp) values hvalues, List.append_nil, readFrom]
  simp [closeAll, expected?]

/-! ## Counting brackets -/

/-- Whether the tokens close the given open brackets, innermost first, and
whatever they open themselves, each by its own kind. -/
def closes : List Bracket → List Token → Bool
  | pending, [] => pending.isEmpty
  | pending, .closing bracket :: ts =>
    match pending with
    | [] => false
    | awaited :: pending => bracket == awaited && closes pending ts
  | pending, t :: ts =>
    match Opener.ofToken? t with
    | some opener => closes (opener.bracket :: pending) ts
    | none => closes pending ts

section Closes

variable {pending : List Bracket} {ts : List Token}

theorem closes_plain {t : Token} (hplain : t.isPlain = true) :
    closes pending (t :: ts) = closes pending ts := by
  cases t <;> first | rfl | cases hplain

theorem closes_opens {t : Token} {opener : Opener}
    (h : Opener.ofToken? t = some opener) :
    closes pending (t :: ts) = closes (opener.bracket :: pending) ts := by
  cases t <;> cases h <;> rfl

theorem closes_closing {bracket : Bracket}
    (h : closes pending (.closing bracket :: ts) = true) :
    ∃ rest, pending = bracket :: rest ∧ closes rest ts = true := by
  cases pending with
  | nil => cases h
  | cons awaited rest =>
    rw [closes, Bool.and_eq_true, beq_iff_eq] at h
    exact ⟨rest, by rw [h.1], h.2⟩

theorem closes_of_append (before : List Token)
    (h : closes pending (before ++ ts) = true) :
    ∃ pending', closes pending' ts = true := by
  induction before generalizing pending with
  | nil => exact ⟨pending, h⟩
  | cons t before ih =>
    rw [List.cons_append] at h
    rcases plain_or_opens_or_closes t with ⟨hplain, -⟩ | ⟨opener, ho⟩ |
      ⟨b, rfl⟩
    · rw [closes_plain hplain] at h
      exact ih h
    · rw [closes_opens ho] at h
      exact ih h
    · obtain ⟨outer, -, hrest⟩ := closes_closing h
      exact ih hrest

theorem closes_append {outer : List Bracket} {ts' : List Token}
    (h : closes pending ts = true) (h' : closes outer ts' = true) :
    closes (pending ++ outer) (ts ++ ts') = true := by
  induction ts generalizing pending with
  | nil =>
    obtain rfl := List.isEmpty_iff.mp h
    exact h'
  | cons t ts ih =>
    rw [List.cons_append]
    rcases plain_or_opens_or_closes t with ⟨hplain, -⟩ | ⟨opener, ho⟩ |
      ⟨b, rfl⟩
    · rw [closes_plain hplain] at h ⊢
      exact ih h
    · rw [closes_opens ho] at h ⊢
      exact ih h
    · obtain ⟨rest, rfl, hrest⟩ := closes_closing h
      rw [List.cons_append, closes, ih hrest]
      simp

/-- Every open bracket is closed by one of its kind. -/
theorem closing_mem_of_closes {bracket : Bracket}
    (h : closes pending ts = true) (hopen : bracket ∈ pending) :
    .closing bracket ∈ ts := by
  induction ts generalizing pending with
  | nil =>
    obtain rfl := List.isEmpty_iff.mp h
    cases hopen
  | cons t ts ih =>
    rcases plain_or_opens_or_closes t with ⟨hplain, -⟩ | ⟨opener, ho⟩ |
      ⟨b, rfl⟩
    · rw [closes_plain hplain] at h
      exact List.mem_cons_of_mem t (ih h hopen)
    · rw [closes_opens ho] at h
      exact List.mem_cons_of_mem t (ih h (List.mem_cons_of_mem _ hopen))
    · obtain ⟨rest, rfl, hrest⟩ := closes_closing h
      rcases List.mem_cons.mp hopen with rfl | hopen
      · exact List.mem_cons_self
      · exact List.mem_cons_of_mem _ (ih hrest hopen)

end Closes

mutual

theorem closes_flatten (value : Component) (hvalue : value.WellFormed)
    (pending : List Bracket) (ts : List Token) :
    closes pending (flatten value ++ ts) = closes pending ts := by
  cases value with
  | token t => exact closes_plain hvalue
  | function name body =>
    have hopens : Opener.ofToken? (.function name) = some (.function name) := rfl
    rw [flatten, List.cons_append, List.append_assoc, closes_opens hopens,
      closes_flattenAll body hvalue]
    simp [closes, Opener.bracket]
  | block bracket body =>
    have hopens : Opener.ofToken? (.opening bracket) = some (.block bracket) := rfl
    rw [flatten, List.cons_append, List.append_assoc, closes_opens hopens,
      closes_flattenAll body hvalue]
    simp [closes, Opener.bracket]

theorem closes_flattenAll (values : List Component)
    (hvalues : WellFormedAll values) (pending : List Bracket)
    (ts : List Token) :
    closes pending (flattenAll values ++ ts) = closes pending ts := by
  cases values with
  | nil => rfl
  | cons value values =>
    rw [flattenAll, List.append_assoc, closes_flatten value hvalues.1,
      closes_flattenAll values hvalues.2]

end

/-- Where a bracket is open, its contents come first, then the bracket that
closes it, and then what closes the brackets outside. -/
theorem exists_contents {bracket : Bracket} {pending : List Bracket}
    {ts : List Token} (h : closes (bracket :: pending) ts = true) :
    ∃ body rest, WellFormedAll body ∧
      ts = flattenAll body ++ .closing bracket :: rest ∧
      closes pending rest = true := by
  -- On the length: an inner block is cut off first, and what follows it is
  -- no tail of the list by structure.
  induction hn : ts.length using Nat.strongRecOn
    generalizing bracket pending ts with
  | _ n ih =>
  subst hn
  cases ts with
  | nil => cases h
  | cons t ts =>
    rcases plain_or_opens_or_closes t with ⟨hplain, -⟩ | ⟨opener, ho⟩ |
      ⟨b, rfl⟩
    · rw [closes_plain hplain] at h
      obtain ⟨body, rest, hbody, rfl, hrest⟩ := ih _ (by simp) h rfl
      exact ⟨.token t :: body, rest, ⟨hplain, hbody⟩, rfl, hrest⟩
    · rw [closes_opens ho] at h
      obtain ⟨inner, rest, hinner, rfl, hrest⟩ := ih _ (by simp) h rfl
      obtain ⟨body, after, hbody, rfl, hafter⟩ :=
        ih _ (by simp; omega) hrest rfl
      refine ⟨opener.close inner :: body, after,
        ⟨(wellFormed_close opener inner).mpr hinner, hbody⟩, ?_, hafter⟩
      simp [flattenAll, flatten_close ho]
    · obtain ⟨outer, heq, hrest⟩ := closes_closing h
      cases heq
      exact ⟨[], ts, trivial, rfl, hrest⟩

/-- Where no bracket is open, the tokens are a list of component values. -/
theorem exists_values {ts : List Token} (h : closes [] ts = true) :
    Balanced ts := by
  induction hn : ts.length using Nat.strongRecOn generalizing ts with
  | _ n ih =>
  subst hn
  cases ts with
  | nil => exact ⟨[], trivial, rfl⟩
  | cons t ts =>
    rcases plain_or_opens_or_closes t with ⟨hplain, -⟩ | ⟨opener, ho⟩ |
      ⟨b, rfl⟩
    · rw [closes_plain hplain] at h
      obtain ⟨values, hvalues, rfl⟩ := ih _ (by simp) h rfl
      exact ⟨.token t :: values, ⟨hplain, hvalues⟩, rfl⟩
    · rw [closes_opens ho] at h
      obtain ⟨inner, rest, hinner, rfl, hrest⟩ := exists_contents h
      obtain ⟨values, hvalues, rfl⟩ := ih _ (by simp; omega) hrest rfl
      refine ⟨opener.close inner :: values,
        ⟨(wellFormed_close opener inner).mpr hinner, hvalues⟩, ?_⟩
      simp [flattenAll, flatten_close ho]
    · obtain ⟨outer, heq, -⟩ := closes_closing h
      cases heq

/-- Counting brackets and building component values agree on which tokens
are balanced. -/
theorem balanced_iff_closes {ts : List Token} :
    Balanced ts ↔ closes [] ts = true := by
  constructor
  · rintro ⟨values, hvalues, rfl⟩
    rw [← List.append_nil (flattenAll values),
      closes_flattenAll values hvalues]
    rfl
  · exact exists_values

/-! ## Readings without a fault -/

theorem no_fault_before {terminator : Option Terminator}
    {frames : List Frame} {done : List Component} {fault : Option Error}
    {ts : List Token}
    (h : (readFrom terminator frames done fault ts).fault = none) :
    fault = none := by
  fun_induction readFrom terminator frames done fault ts with
  | case1 frames done fault => exact (Option.or_eq_none_iff.mp h).1
  | case2 => exact h
  | case3 _ _ _ _ _ _ _ ih => exact ih h
  | case4 _ _ _ _ _ _ _ _ ih => exact ih h
  | case5 _ _ _ _ _ _ _ ih => exact (Option.or_eq_none_iff.mp (ih h)).1

/-- Tokens read to their end without a fault close what is open. -/
theorem closes_of_no_fault {frames : List Frame} {done : List Component}
    {fault : Option Error} {ts : List Token}
    (h : (readFrom none frames done fault ts).fault = none) :
    closes (frames.map (·.opener.bracket)) ts = true := by
  induction ts generalizing frames done fault with
  | nil =>
    have hnone := (Option.or_eq_none_iff.mp h).2
    cases frames with
    | nil => rfl
    | cons frame frames => cases hnone
  | cons t ts ih =>
    by_cases hawaited :
        (expected? none frames).map Terminator.token = some t
    · cases frames with
      | nil => cases hawaited
      | cons frame frames =>
        cases hawaited
        have hrest :=
          ih ((congrArg Reading.fault (readFrom_closes frame)).symm.trans h)
        simpa [closes, Terminator.token] using hrest
    · rcases plain_or_opens_or_closes t with ⟨hplain, -⟩ | ⟨opener, ho⟩ |
        ⟨b, rfl⟩
      · rw [readFrom_plain hplain hawaited] at h
        rw [closes_plain hplain]
        exact ih h
      · rw [readFrom_opens ho] at h
        rw [closes_opens ho]
        exact ih h
      · rw [readFrom_cons, if_neg hawaited] at h
        have hstray := (Option.or_eq_none_iff.mp (no_fault_before h)).2
        cases hstray

/-- **A reading without a fault loses nothing**: its component values are
well-formed, and their flattening is the input. -/
theorem flattenAll_values_of_no_fault {ts : List Token}
    (h : (read none ts).fault = none) :
    WellFormedAll (read none ts).values ∧
      flattenAll (read none ts).values = ts := by
  obtain ⟨values, hvalues, rfl⟩ := exists_values (closes_of_no_fault h)
  rw [read_flattenAll hvalues]
  exact ⟨hvalues, rfl⟩

end Component

end StyleProbe.Css
