import StyleProbe.Proofs.Css.Component.Lossless
import StyleProbe.Proofs.Css.Token.Case

/-!
# Component values and letter case

Reading component values and writing them commute with lowering. The reader
looks at brackets and semicolons only, so it groups lowered tokens as it
groups the tokens, and meets the same faults. A component value is written in
small letters if it is lowered, as long as its tokens are like tokens that
were read from a text; the brackets that the reader invents are.

Main statements: `read_map_lowered`, `parseValue_lowerAscii` and
`serialize_loweredAll`.
-/

namespace StyleProbe.Css

namespace Component

mutual

/-- The component value with all its names written small. -/
def lowered : Component → Component
  | token t => token t.lowered
  | function name body => function (Text.lowerAscii name) (loweredAll body)
  | block bracket body => block bracket (loweredAll body)

/-- The component values with all their names written small. -/
def loweredAll : List Component → List Component
  | [] => []
  | value :: values => lowered value :: loweredAll values

end

theorem loweredAll_eq_map (values : List Component) :
    loweredAll values = values.map lowered := by
  induction values with
  | nil => rfl
  | cons value values ih => rw [loweredAll, ih, List.map_cons]

/-! ## Reading -/

/-- What opens the lowered component value. -/
def Opener.lowered : Opener → Opener
  | function name => function (Text.lowerAscii name)
  | block bracket => block bracket

/-- The frame with all its names written small. -/
def Frame.lowered (frame : Frame) : Frame :=
  ⟨frame.opener.lowered, loweredAll frame.before⟩

/-- The reading with all its names written small. No fault has a name. -/
def Reading.lowered (reading : Reading) : Reading where
  values := loweredAll reading.values
  rest := reading.rest.map Token.lowered
  fault := reading.fault

theorem Opener.bracket_lowered (opener : Opener) :
    opener.lowered.bracket = opener.bracket := by
  cases opener <;> rfl

theorem Opener.close_lowered (opener : Opener) (done : List Component) :
    opener.lowered.close (loweredAll done).reverse =
      (opener.close done.reverse).lowered := by
  cases opener <;>
    simp [close, Opener.lowered, Component.lowered, loweredAll_eq_map]

theorem ofToken?_lowered (t : Token) :
    Opener.ofToken? t.lowered = (Opener.ofToken? t).map Opener.lowered := by
  cases t <;> rfl

theorem strayFault?_lowered (t : Token) :
    strayFault? t.lowered = strayFault? t := by
  cases t <;> rfl

theorem terminator_eq_lowered_iff {terminator : Terminator} {t : Token} :
    terminator.token = t.lowered ↔ terminator.token = t := by
  have hnameless : terminator.token.Nameless := by cases terminator <;> trivial
  rw [eq_comm, Token.lowered_eq_iff hnameless, eq_comm]

theorem expected?_lowered (terminator : Option Terminator)
    (frames : List Frame) :
    expected? terminator (frames.map Frame.lowered) =
      expected? terminator frames := by
  cases frames with
  | nil => rfl
  | cons frame frames =>
    simp [expected?, Frame.lowered, Opener.bracket_lowered]

theorem closeAll_lowered (frames : List Frame) (done : List Component) :
    closeAll (frames.map Frame.lowered) (loweredAll done) =
      loweredAll (closeAll frames done) := by
  induction frames generalizing done with
  | nil => simp [closeAll, loweredAll_eq_map]
  | cons frame frames ih =>
    rw [List.map_cons, closeAll, closeAll, ← ih]
    simp only [Frame.lowered, Opener.close_lowered, loweredAll]

/-- **Lowered tokens are read alike**, whatever is open. -/
theorem readFrom_map_lowered (terminator : Option Terminator)
    (frames : List Frame) (done : List Component) (fault : Option Error)
    (ts : List Token) :
    readFrom terminator (frames.map Frame.lowered) (loweredAll done) fault
        (ts.map Token.lowered) =
      (readFrom terminator frames done fault ts).lowered := by
  induction ts generalizing frames done fault with
  | nil =>
    simp [readFrom, Reading.lowered, closeAll_lowered, expected?_lowered]
  | cons t ts ih =>
    have hawaited :
        (expected? terminator frames).map Terminator.token = some t.lowered ↔
          (expected? terminator frames).map Terminator.token = some t := by
      cases expected? terminator frames with
      | none => simp
      | some expected => simp [terminator_eq_lowered_iff]
    rw [List.map_cons, readFrom_cons, readFrom_cons, expected?_lowered]
    by_cases hends : (expected? terminator frames).map Terminator.token = some t
    · rw [if_pos (hawaited.mpr hends), if_pos hends]
      cases frames with
      | nil => simp [Reading.lowered, loweredAll_eq_map]
      | cons frame frames =>
        rw [← ih]
        simp only [List.map_cons, Frame.lowered, Opener.close_lowered,
          loweredAll]
    · rw [if_neg (fun h => hends (hawaited.mp h)), if_neg hends,
        ofToken?_lowered, strayFault?_lowered]
      cases Opener.ofToken? t with
      | some opener => exact ih (⟨opener, done⟩ :: frames) [] fault
      | none => exact ih frames (.token t :: done) _

theorem read_map_lowered (terminator : Option Terminator) (ts : List Token) :
    read terminator (ts.map Token.lowered) = (read terminator ts).lowered :=
  readFrom_map_lowered terminator [] [] none ts

theorem isWhitespace_lowered (value : Component) :
    value.lowered.isWhitespace = value.isWhitespace := by
  cases value with
  | token t => cases t <;> rfl
  | _ => rfl

theorem trim_loweredAll (values : List Component) :
    trim (loweredAll values) = loweredAll (trim values) := by
  rw [loweredAll_eq_map, trim, trimBy_map isWhitespace_lowered,
    loweredAll_eq_map, trim]

/-- **A declaration value in small letters** is the lowered one. -/
theorem parseValue_lowerAscii (value : String) :
    parseValue (Text.lowerAscii value) =
      (parseValue value).map loweredAll := by
  unfold parseValue
  rw [tokenize_lowerAscii]
  cases tokenize value with
  | error e => rfl
  | ok ts =>
    show ((read none (ts.map Token.lowered)).strict >>= fun reading =>
      .ok (trim reading.values)) =
        ((read none ts).strict >>= fun reading =>
          .ok (trim reading.values)).map loweredAll
    rw [read_map_lowered, Reading.strict, Reading.strict, Reading.lowered]
    dsimp only
    cases (read none ts).fault with
    | some e => rfl
    | none => exact congrArg Except.ok (trim_loweredAll _)

/-! ## Writing -/

theorem joinPieces_map_lowerAscii (pieces : List (Option String)) :
    joinPieces (pieces.map (Option.map Text.lowerAscii)) =
      Text.lowerAscii (joinPieces pieces) := by
  have hgap : Text.lowerAscii " " = " " := by decide
  have hnone : ∀ piece : Option String,
      (piece.map Text.lowerAscii).isNone = piece.isNone := by
    intro piece
    cases piece <;> rfl
  rw [joinPieces, trimBy_map hnone, joinPieces]
  induction trimBy Option.isNone pieces with
  | nil => rfl
  | cons piece pieces ih =>
    rw [List.map_cons, List.foldr_cons, List.foldr_cons, ih,
      Text.lowerAscii_append]
    cases piece with
    | none => rw [Option.map_none, Option.getD_none, hgap]
    | some piece => rfl

mutual

/-- A component value whose tokens were read is written in small letters if
it is lowered. -/
theorem text_lowered (value : Component) (h : ∀ t ∈ flatten value, t.Lexed) :
    value.lowered.text = Text.lowerAscii value.text := by
  have hopening : Text.lowerAscii "(" = "(" := by decide
  have hclosing : Text.lowerAscii ")" = ")" := by decide
  match value with
  | .token t =>
    exact (h t (by simp [flatten])).text_lowered
  | .function name body =>
    have hbody := pieces_loweredAll body fun t ht => h t (by
      simp [flatten, ht])
    rw [lowered, text, hbody, joinPieces_map_lowerAscii, text,
      Text.lowerAscii_append, Text.lowerAscii_append, Text.lowerAscii_append,
      hopening, hclosing]
  | .block bracket body =>
    have hbody := pieces_loweredAll body fun t ht => h t (by
      simp [flatten, ht])
    have hopening' : Text.lowerAscii bracket.openingText =
        bracket.openingText := by cases bracket <;> decide
    have hclosing' : Text.lowerAscii bracket.closingText =
        bracket.closingText := by cases bracket <;> decide
    rw [lowered, text, hbody, joinPieces_map_lowerAscii, text,
      Text.lowerAscii_append, Text.lowerAscii_append, hopening', hclosing']

theorem pieces_loweredAll (values : List Component)
    (h : ∀ t ∈ flattenAll values, t.Lexed) :
    pieces (loweredAll values) =
      (pieces values).map (Option.map Text.lowerAscii) := by
  match values with
  | [] => rfl
  | value :: values =>
    have hfirst := text_lowered value fun t ht => h t (by
      simp [flattenAll, ht])
    have hrest := pieces_loweredAll values fun t ht => h t (by
      simp [flattenAll, ht])
    rw [loweredAll, pieces, hrest, isWhitespace_lowered, hfirst, pieces,
      List.map_cons]
    split <;> rfl

end

/-- **Component values whose tokens were read are written in small letters**
if they are lowered. -/
theorem serialize_loweredAll {values : List Component}
    (h : ∀ t ∈ flattenAll values, t.Lexed) :
    serialize (loweredAll values) = Text.lowerAscii (serialize values) := by
  rw [serialize, pieces_loweredAll values h, joinPieces_map_lowerAscii,
    serialize]

end Component

end StyleProbe.Css
