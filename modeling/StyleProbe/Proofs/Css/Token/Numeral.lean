import StyleProbe.Proofs.Css.Token.Cursor

/-!
# Numerals

What a number is written like, and that a number is read as far as it goes:
the longest numeral at the front is taken, whatever follows it. A point
without a digit behind it is left, and so is an `e` without digits, with a
sign or none. A number starts where a numeral stands, and every numeral has a
value.

Main statements: `startsNumber_iff`, `isNumeric_tokenFrom` and
`number_longest`.
-/

namespace StyleProbe.Css

open Decimal (splitDigits)

/-! ## The grammar -/

/-- One digit or more. -/
def IsDigits (cs : List Char) : Prop :=
  cs ≠ [] ∧ ∀ c ∈ cs, c.isDigit = true

theorem IsDigits.exists_cons {digits : List Char} (h : IsDigits digits) :
    ∃ c rest, digits = c :: rest ∧ c.isDigit = true := by
  obtain ⟨c, rest, rfl⟩ := List.exists_cons_of_ne_nil h.1
  exact ⟨c, rest, rfl, h.2 c List.mem_cons_self⟩

/-- A sign or none. -/
inductive IsSign : List Char → Prop
  | absent : IsSign []
  | plus : IsSign ['+']
  | minus : IsSign ['-']

/-- Digits, digits with a point among them, or a point and digits. -/
inductive IsUnsigned : List Char → Prop
  | whole {whole : List Char} (h : IsDigits whole) : IsUnsigned whole
  | pointed {whole fraction : List Char} (h : IsDigits whole)
      (h' : IsDigits fraction) : IsUnsigned (whole ++ '.' :: fraction)
  | fraction {fraction : List Char} (h : IsDigits fraction) :
    IsUnsigned ('.' :: fraction)

/-- A mark with digits behind it and maybe a sign between, or nothing. -/
inductive IsExponent : List Char → Prop
  | absent : IsExponent []
  | marked {mark : Char} {sign digits : List Char}
      (hmark : mark = 'e' ∨ mark = 'E') (hsign : IsSign sign)
      (hdigits : IsDigits digits) : IsExponent (mark :: sign ++ digits)

/-- A number without a sign, behind a sign or none and before an exponent or
none. -/
inductive IsNumeral : List Char → Prop
  | mk {sign unsigned exponent : List Char} (hsign : IsSign sign)
      (hunsigned : IsUnsigned unsigned) (hexponent : IsExponent exponent) :
    IsNumeral (sign ++ unsigned ++ exponent)

/-- Of the texts of a kind that `cs` starts with, `front` is the longest. -/
structure IsLongest (kind : List Char → Prop) (cs front : List Char) :
    Prop where
  starts : front <+: cs
  of_kind : kind front
  longest : ∀ other, other <+: cs → kind other → other <+: front

/-! ## The parts of a numeral -/

/-- A fraction with the point in front of it, if it has digits. -/
def behindPoint (fraction : List Char) : List Char :=
  if fraction = [] then [] else '.' :: fraction

theorem behindPoint_of_isDigits {fraction : List Char}
    (h : IsDigits fraction) : behindPoint fraction = '.' :: fraction :=
  if_neg h.1

/-- The digits in front of the point and behind it: there are some. -/
structure Parts (unsigned whole fraction : List Char) : Prop where
  written : unsigned = whole ++ behindPoint fraction
  whole_digits : ∀ c ∈ whole, c.isDigit = true
  fraction_digits : ∀ c ∈ fraction, c.isDigit = true
  inhabited : whole ≠ [] ∨ fraction ≠ []

theorem IsUnsigned.exists_parts {unsigned : List Char}
    (h : IsUnsigned unsigned) :
    ∃ whole fraction, Parts unsigned whole fraction := by
  cases h with
  | whole h => exact ⟨_, [], (List.append_nil _).symm, h.2, by simp, .inl h.1⟩
  | pointed h h' =>
    exact ⟨_, _, by rw [behindPoint_of_isDigits h'], h.2, h'.2, .inl h.1⟩
  | fraction h =>
    exact ⟨[], _, by rw [behindPoint_of_isDigits h]; rfl, by simp, h.2,
      .inr h.1⟩

theorem Parts.isUnsigned {unsigned whole fraction : List Char}
    (h : Parts unsigned whole fraction) : IsUnsigned unsigned := by
  rw [h.written]
  by_cases hfraction : fraction = []
  · have hwhole := h.inhabited.resolve_right (not_not.mpr hfraction)
    rw [behindPoint, if_pos hfraction, List.append_nil]
    exact .whole ⟨hwhole, h.whole_digits⟩
  · rw [behindPoint, if_neg hfraction]
    by_cases hwhole : whole = []
    · rw [hwhole]
      exact .fraction ⟨hfraction, h.fraction_digits⟩
    · exact .pointed ⟨hwhole, h.whole_digits⟩ ⟨hfraction, h.fraction_digits⟩

/-- No exponent starts with a digit or a point. -/
theorem IsExponent.head? {exponent : List Char} (h : IsExponent exponent) :
    ∀ c ∈ exponent.head?, c.isDigit = false ∧ c ≠ '.' := by
  cases h with
  | absent => simp
  | marked hmark => rcases hmark with rfl | rfl <;> simp

/-- Nor does a fraction with its point and an exponent start with a digit. -/
theorem IsExponent.head?_behindPoint {exponent : List Char}
    (h : IsExponent exponent) (fraction : List Char) :
    ∀ c ∈ (behindPoint fraction ++ exponent).head?, c.isDigit = false := by
  intro c hc
  unfold behindPoint at hc
  split at hc
  · exact (h.head? c hc).1
  · cases hc
    rfl

/-- A number without a sign starts with a digit or a point. -/
theorem IsUnsigned.exists_cons {unsigned : List Char}
    (h : IsUnsigned unsigned) :
    ∃ c rest, unsigned = c :: rest ∧ (c.isDigit = true ∨ c = '.') := by
  cases h with
  | whole h =>
    obtain ⟨c, rest, rfl, hc⟩ := h.exists_cons
    exact ⟨c, rest, rfl, .inl hc⟩
  | pointed h _ =>
    obtain ⟨c, rest, rfl, hc⟩ := h.exists_cons
    exact ⟨c, _, rfl, .inl hc⟩
  | fraction h => exact ⟨'.', _, rfl, .inr rfl⟩

/-- So it does not start with a sign. -/
theorem IsUnsigned.exists_cons_ne {unsigned : List Char}
    (h : IsUnsigned unsigned) :
    ∃ c rest, unsigned = c :: rest ∧ c ≠ '+' ∧ c ≠ '-' := by
  obtain ⟨c, rest, rfl, hc⟩ := h.exists_cons
  refine ⟨c, rest, rfl, ?_, ?_⟩
  · rintro rfl
    rcases hc with hc | hc <;> cases hc
  · rintro rfl
    rcases hc with hc | hc <;> cases hc

/-! ## Taking a numeral -/

/-- What is taken of a number behind its sign. -/
def takeUnsigned (cs : List Char) : List Char :=
  let whole := splitDigits cs
  let fraction := takeFraction whole.2
  whole.1 ++ (fraction.1 ++ (takeExponent fraction.2).1)

theorem takeNumber_fst (cs : List Char) :
    (takeNumber cs).1 = (takeSign cs).1 ++ takeUnsigned (takeSign cs).2 := by
  simp [takeNumber, takeUnsigned]

theorem splitDigits_of_digits {digits : List Char}
    (h : ∀ c ∈ digits, c.isDigit = true) (more : List Char) :
    splitDigits (digits ++ more) =
      (digits ++ (splitDigits more).1, (splitDigits more).2) := by
  rw [splitDigits, List.takeWhile_append_of_pos h,
    List.dropWhile_append_of_pos h]
  rfl

theorem takeSign_of_isSign {sign unsigned : List Char} (hsign : IsSign sign)
    (hunsigned : IsUnsigned unsigned) (more : List Char) :
    takeSign (sign ++ (unsigned ++ more)) = (sign, unsigned ++ more) := by
  cases hsign with
  | plus => rfl
  | minus => rfl
  | absent =>
    obtain ⟨c, rest, rfl, hplus, hminus⟩ := hunsigned.exists_cons_ne
    simp [takeSign, hplus, hminus]

theorem takeExponent_of_isExponent {exponent : List Char}
    (h : IsExponent exponent) (more : List Char) :
    exponent <+: (takeExponent (exponent ++ more)).1 := by
  cases h with
  | absent => exact List.nil_prefix
  | @marked mark sign digits hmark hsign hdigits =>
    have hsplit := takeSign_of_isSign hsign (.whole hdigits) more
    have hstart : (mark == 'e' || mark == 'E') = true := by
      rcases hmark with rfl | rfl <;> rfl
    have hsome : digits ++ (splitDigits more).1 ≠ [] := by simp [hdigits.1]
    rw [List.cons_append, List.cons_append, List.append_assoc, takeExponent,
      hsplit]
    dsimp only
    rw [splitDigits_of_digits hdigits.2]
    dsimp only
    rw [if_pos (by simp [hstart, hsome]), ← List.append_assoc]
    exact List.prefix_append _ _

theorem takeFraction_of_isDigits {fraction : List Char}
    (h : IsDigits fraction) (more : List Char) :
    takeFraction ('.' :: fraction ++ more) =
      ('.' :: fraction ++ (splitDigits more).1, (splitDigits more).2) := by
  have hsome : fraction ++ (splitDigits more).1 ≠ [] := by simp [h.1]
  rw [List.cons_append, takeFraction, splitDigits_of_digits h.2]
  dsimp only
  rw [if_neg (by simp [hsome])]
  rfl

theorem takeFraction_of_parts {fraction exponent : List Char}
    (hfraction : ∀ c ∈ fraction, c.isDigit = true)
    (hexponent : IsExponent exponent) (more : List Char) :
    let taken := takeFraction (behindPoint fraction ++ (exponent ++ more))
    behindPoint fraction ++ exponent <+:
      taken.1 ++ (takeExponent taken.2).1 := by
  dsimp only
  by_cases habsent : exponent = []
  · -- What follows may be more digits of the fraction.
    subst habsent
    by_cases hnone : fraction = []
    · rw [behindPoint, if_pos hnone]
      exact List.nil_prefix
    · rw [behindPoint, if_neg hnone, List.nil_append, List.append_nil,
        takeFraction_of_isDigits ⟨hnone, hfraction⟩, List.append_assoc]
      exact List.prefix_append _ _
  · obtain ⟨mark, rest, hmark⟩ := List.exists_cons_of_ne_nil habsent
    have hhead := hexponent.head? mark (by simp [hmark])
    have hdigits : splitDigits (exponent ++ more) = ([], exponent ++ more) := by
      simp [hmark, splitDigits, hhead.1]
    have htaken : takeFraction (behindPoint fraction ++ (exponent ++ more)) =
        (behindPoint fraction, exponent ++ more) := by
      by_cases hnone : fraction = []
      · simp [behindPoint, hnone, hmark, takeFraction, hhead.2]
      · rw [behindPoint, if_neg hnone,
          takeFraction_of_isDigits ⟨hnone, hfraction⟩, hdigits,
          List.append_nil]
    rw [htaken]
    exact (List.prefix_append_right_inj _).mpr
      (takeExponent_of_isExponent hexponent more)

theorem takeUnsigned_of_parts {unsigned whole fraction exponent : List Char}
    (hparts : Parts unsigned whole fraction) (hexponent : IsExponent exponent)
    (more : List Char) :
    unsigned ++ exponent <+: takeUnsigned (unsigned ++ (exponent ++ more)) := by
  have hfollows := takeFraction_of_parts hparts.fraction_digits hexponent more
  have htaken := splitDigits_of_digits hparts.whole_digits
    (behindPoint fraction ++ (exponent ++ more))
  rw [hparts.written, List.append_assoc, List.append_assoc, takeUnsigned,
    htaken]
  dsimp only
  by_cases hnone : behindPoint fraction ++ exponent = []
  · rw [hnone, List.append_nil, List.append_assoc]
    exact List.prefix_append _ _
  · -- What follows the digits is no digit.
    have hhead := hexponent.head?_behindPoint fraction
    obtain ⟨c, rest, hc⟩ := List.exists_cons_of_ne_nil hnone
    have hstop : splitDigits (behindPoint fraction ++ (exponent ++ more)) =
        ([], behindPoint fraction ++ (exponent ++ more)) := by
      rw [← List.append_assoc, hc]
      simp [splitDigits, hhead c (by simp [hc])]
    rw [hstop, List.append_nil, List.prefix_append_right_inj]
    exact hfollows

/-- **A numeral in front is taken**, and maybe more than that. -/
theorem takeNumber_of_isNumeral {cs numeral : List Char}
    (hstarts : numeral <+: cs) (h : IsNumeral numeral) :
    numeral <+: (takeNumber cs).1 := by
  obtain ⟨more, rfl⟩ := hstarts
  cases h with
  | mk hsign hunsigned hexponent =>
    obtain ⟨whole, fraction, hparts⟩ := hunsigned.exists_parts
    rw [takeNumber_fst, List.append_assoc, List.append_assoc,
      List.append_assoc, takeSign_of_isSign hsign hunsigned,
      List.prefix_append_right_inj]
    exact takeUnsigned_of_parts hparts hexponent more

/-! ## What is taken -/

theorem isSign_takeSign (cs : List Char) : IsSign (takeSign cs).1 := by
  unfold takeSign
  split
  · exact .plus
  · exact .minus
  · exact .absent

theorem isDigit_of_mem_splitDigits {cs : List Char} :
    ∀ c ∈ (splitDigits cs).1, c.isDigit = true :=
  List.all_eq_true.mp List.all_takeWhile

theorem isExponent_takeExponent (cs : List Char) :
    IsExponent (takeExponent cs).1 := by
  unfold takeExponent
  split
  · exact .absent
  · rename_i mark rest
    dsimp only
    split
    · rename_i hstarts
      obtain ⟨hmark, hsome⟩ := Bool.and_eq_true_iff.mp hstarts
      exact .marked (by simpa using hmark) (isSign_takeSign rest)
        ⟨by simpa using hsome, isDigit_of_mem_splitDigits⟩
    · exact .absent

/-- A fraction with its point is taken, or nothing. -/
theorem exists_takeFraction_eq (cs : List Char) :
    ∃ fraction, (takeFraction cs).1 = behindPoint fraction ∧
      ∀ c ∈ fraction, c.isDigit = true := by
  unfold takeFraction
  split
  · rename_i rest
    dsimp only
    split
    · exact ⟨[], rfl, by simp⟩
    · rename_i hsome
      refine ⟨(splitDigits rest).1, ?_, isDigit_of_mem_splitDigits⟩
      rw [behindPoint, if_neg (by simpa using hsome)]
  · exact ⟨[], rfl, by simp⟩

/-- Where a number starts, there is a digit in front of the point or behind
it. -/
theorem exists_parts_of_startsUnsigned {cs : List Char}
    (h : startsUnsigned cs = true) :
    ∃ whole fraction,
      Parts ((splitDigits cs).1 ++ (takeFraction (splitDigits cs).2).1)
        whole fraction := by
  obtain ⟨fraction, hfraction, hdigits⟩ :=
    exists_takeFraction_eq (splitDigits cs).2
  refine ⟨(splitDigits cs).1, fraction, by rw [hfraction],
    isDigit_of_mem_splitDigits, hdigits, ?_⟩
  by_contra hnone
  rw [not_or, not_not, not_not] at hnone
  obtain ⟨hwhole, rfl⟩ := hnone
  unfold startsUnsigned at h
  split at h
  · rename_i c rest
    have hpoint : splitDigits ('.' :: c :: rest) = ([], '.' :: c :: rest) := by
      simp [splitDigits]
    rw [hpoint] at hfraction
    simp [takeFraction, splitDigits, h, behindPoint] at hfraction
  · simp [splitDigits, h] at hwhole
  · cases h

theorem takeSign_snd (cs : List Char) :
    (takeSign cs).2 = (Decimal.splitSign cs).2 := by
  unfold takeSign Decimal.splitSign
  split <;> simp_all

/-- **Where a number starts, a numeral is taken.** -/
theorem isNumeral_takeNumber {cs : List Char} (h : startsNumber cs = true) :
    IsNumeral (takeNumber cs).1 := by
  rw [startsNumber, ← takeSign_snd] at h
  obtain ⟨whole, fraction, hparts⟩ := exists_parts_of_startsUnsigned h
  rw [takeNumber_fst, takeUnsigned, ← List.append_assoc, ← List.append_assoc,
    List.append_assoc _ (splitDigits _).1]
  exact .mk (isSign_takeSign cs) hparts.isUnsigned (isExponent_takeExponent _)

theorem takeSign_append (cs : List Char) :
    (takeSign cs).1 ++ (takeSign cs).2 = cs := by
  unfold takeSign
  split <;> rfl

theorem splitDigits_append (cs : List Char) :
    (splitDigits cs).1 ++ (splitDigits cs).2 = cs :=
  List.takeWhile_append_dropWhile

theorem takeFraction_append (cs : List Char) :
    (takeFraction cs).1 ++ (takeFraction cs).2 = cs := by
  unfold takeFraction
  split
  · rename_i rest
    dsimp only
    split
    · rfl
    · rw [List.cons_append, splitDigits_append]
  · rfl

theorem takeExponent_append (cs : List Char) :
    (takeExponent cs).1 ++ (takeExponent cs).2 = cs := by
  unfold takeExponent
  split
  · rfl
  · rename_i mark rest
    dsimp only
    split
    · rw [List.append_assoc, splitDigits_append, List.cons_append,
        takeSign_append]
    · rfl

/-- What is taken of a number and what is left make up the text. -/
theorem takeNumber_append (cs : List Char) :
    (takeNumber cs).1 ++ (takeNumber cs).2 = cs := by
  unfold takeNumber
  dsimp only
  rw [List.append_assoc, takeExponent_append, List.append_assoc,
    takeFraction_append, List.append_assoc, splitDigits_append,
    takeSign_append]

theorem IsDigits.startsUnsigned {digits : List Char} (h : IsDigits digits)
    (more : List Char) : startsUnsigned (digits ++ more) = true := by
  obtain ⟨c, rest, rfl, hc⟩ := h.exists_cons
  have hpoint : c ≠ '.' := by
    rintro rfl
    cases hc
  rw [List.cons_append, startsUnsigned_cons hpoint, hc]

theorem IsUnsigned.startsUnsigned {unsigned : List Char}
    (h : IsUnsigned unsigned) (more : List Char) :
    startsUnsigned (unsigned ++ more) = true := by
  cases h with
  | whole h => exact h.startsUnsigned more
  | pointed h _ =>
    rw [List.append_assoc]
    exact h.startsUnsigned _
  | fraction h =>
    obtain ⟨c, rest, rfl, hc⟩ := h.exists_cons
    exact hc

theorem startsNumber_of_isNumeral {cs numeral : List Char}
    (hstarts : numeral <+: cs) (h : IsNumeral numeral) :
    startsNumber cs = true := by
  obtain ⟨more, rfl⟩ := hstarts
  cases h with
  | @mk sign unsigned exponent hsign hunsigned hexponent =>
    rw [startsNumber, ← takeSign_snd, List.append_assoc, List.append_assoc,
      takeSign_of_isSign hsign hunsigned]
    exact hunsigned.startsUnsigned _

/-- **A number starts where a numeral stands.** -/
theorem startsNumber_iff (cs : List Char) :
    startsNumber cs = true ↔ ∃ numeral, numeral <+: cs ∧ IsNumeral numeral := by
  constructor
  · intro h
    exact ⟨(takeNumber cs).1, ⟨_, takeNumber_append cs⟩,
      isNumeral_takeNumber h⟩
  · rintro ⟨numeral, hstarts, h⟩
    exact startsNumber_of_isNumeral hstarts h

/-! ## The value of a numeral -/

theorem exists_splitSign_eq {sign unsigned : List Char} (hsign : IsSign sign)
    (hunsigned : IsUnsigned unsigned) (more : List Char) :
    ∃ negative, Decimal.splitSign (sign ++ (unsigned ++ more)) =
      (negative, unsigned ++ more) := by
  refine ⟨_, Prod.ext rfl ?_⟩
  rw [← takeSign_snd, takeSign_of_isSign hsign hunsigned]

theorem IsExponent.exists_readExponent?_eq {exponent : List Char}
    (h : IsExponent exponent) :
    ∃ power, Decimal.readExponent? exponent = some power := by
  cases h with
  | absent => exact ⟨0, rfl⟩
  | @marked mark sign digits hmark hsign hdigits =>
    obtain ⟨negative, hsplit⟩ := exists_splitSign_eq hsign (.whole hdigits) []
    rw [List.append_nil] at hsplit
    have hstart : (mark == 'e' || mark == 'E') = true := by
      rcases hmark with rfl | rfl <;> rfl
    have hsome : digits.isEmpty = false := by simp [hdigits.1]
    have hall : digits.all Char.isDigit = true :=
      List.all_eq_true.mpr hdigits.2
    rw [List.cons_append, Decimal.readExponent?, hsplit]
    dsimp only
    rw [hstart, hsome, hall]
    exact ⟨_, rfl⟩

theorem splitFraction_behindPoint {fraction exponent : List Char}
    (hfraction : ∀ c ∈ fraction, c.isDigit = true)
    (hexponent : IsExponent exponent) :
    Decimal.splitFraction (behindPoint fraction ++ exponent) =
      (fraction, exponent) := by
  unfold behindPoint
  split
  · rename_i hnone
    subst hnone
    cases hexponent with
    | absent => rfl
    | marked hmark => rcases hmark with rfl | rfl <;> rfl
  · exact Decimal.splitDigits_append hfraction fun c hc =>
      (hexponent.head? c hc).1

/-- **Every numeral has a value.** -/
theorem IsNumeral.exists_read?_eq {numeral : List Char}
    (h : IsNumeral numeral) : ∃ value, Decimal.read? numeral = some value := by
  cases h with
  | @mk sign unsigned exponent hsign hunsigned hexponent =>
    obtain ⟨whole, fraction, hparts⟩ := hunsigned.exists_parts
    obtain ⟨negative, hsplit⟩ := exists_splitSign_eq hsign hunsigned exponent
    obtain ⟨power, hpower⟩ := hexponent.exists_readExponent?_eq
    have hwhole := Decimal.splitDigits_append hparts.whole_digits
      (hexponent.head?_behindPoint fraction)
    have hfraction := splitFraction_behindPoint hparts.fraction_digits hexponent
    have hsome : ¬ (whole.isEmpty && fraction.isEmpty) = true := by
      simpa [imp_iff_not_or] using hparts.inhabited
    rw [List.append_assoc, Decimal.read?, hsplit, hparts.written,
      List.append_assoc]
    dsimp only
    rw [hwhole]
    dsimp only
    rw [hfraction]
    dsimp only
    rw [if_neg hsome, hpower]
    exact ⟨_, rfl⟩

/-! ## Reading a number -/

/-- The token has a number. -/
def Token.isNumeric : Token → Bool
  | .number _ => true
  | .percentage _ => true
  | .dimension _ _ => true
  | _ => false

theorem isNumeric_scanNumeric (cs : List Char) :
    (scanNumeric cs).1.isNumeric = true := by
  rw [scanNumeric_eq]
  split
  · rfl
  split <;> rfl

theorem isNumeric_scan (c : Char) (rest : List Char) :
    (scan c rest).1.isNumeric = startsNumber (c :: rest) := by
  cases hnumber : startsNumber (c :: rest) with
  | true => rw [scan_of_startsNumber hnumber, isNumeric_scanNumeric]
  | false =>
    unfold scan
    split
    · rename_i t hpunctuation
      unfold punctuation? at hpunctuation
      split at hpunctuation <;> cases hpunctuation <;> rfl
    split
    · rfl
    split
    · unfold scanString
      split <;> rfl
    rw [if_neg (by simp [hnumber])]
    split
    · unfold scanNameLike
      split <;> rfl
    split
    · rfl
    split <;> rfl

/-- **A number is read only where one starts**: by then the cursor has tested
three characters, or stands at a digit. -/
theorem isNumeric_tokenFrom {start : Cursor} {c : Char}
    (hpeek : start.peek = some c) :
    (start.next.2.tokenFrom c).1.isNumeric =
      Cursor.startsNumber (start.peekChunk 3) := by
  rw [(Cursor.reads_tokenFrom hpeek).value, isNumeric_scan,
    Cursor.startsNumber_peekChunk, Cursor.ahead_of_peek_eq_some hpeek]

/-- **A number is read as far as it goes.** Where one starts, the longest
numeral at the front is read, with a small `e` for its mark, and the cursor is
left behind it. The text that is read has a value, so that is the value of
the number. -/
theorem number_longest {cursor : Cursor}
    (h : Cursor.startsNumber (cursor.peekChunk 3) = true) :
    ∃ numeral value,
      IsLongest IsNumeral cursor.ahead numeral ∧
        cursor.ahead = numeral ++ cursor.number.2.ahead ∧
        cursor.number.1 = numeral.map Char.toLower ∧
        takeNumber cursor.ahead = (numeral, cursor.number.2.ahead) ∧
        Decimal.read? cursor.number.1 = some value ∧
        numberValue cursor.number.1 = Binary32.ofDecimal value := by
  rw [Cursor.startsNumber_peekChunk] at h
  have hread := cursor.reads_number
  have hnumeral := isNumeral_takeNumber h
  have hahead := takeNumber_append cursor.ahead
  obtain ⟨value, hvalue⟩ := hnumeral.exists_read?_eq
  refine ⟨(takeNumber cursor.ahead).1, value, ⟨⟨_, hahead⟩, hnumeral, ?_⟩, ?_,
    hread.value, ?_, ?_, ?_⟩
  · intro other hstarts hother
    exact takeNumber_of_isNumeral hstarts hother
  · rw [hread.ahead, hahead]
  · rw [hread.ahead]
  · rw [hread.value, read?_map_toLower, hvalue]
  · rw [hread.value, numberValue_map_toLower, numberValue, hvalue]
    rfl

/-- A number without digits in front of the point, and an `e` behind it that
marks no exponent. -/
theorem number_longest_mark :
    let cursor : Cursor := ⟨"a+.5E-2e-px".toList, 1, []⟩
    Cursor.startsNumber (cursor.peekChunk 3) = true ∧
      cursor.number.1 = "+.5e-2".toList ∧
      cursor.number.2.ahead = "e-px".toList ∧
      ∃ numeral value,
        IsLongest IsNumeral cursor.ahead numeral ∧
          cursor.ahead = numeral ++ cursor.number.2.ahead ∧
          cursor.number.1 = numeral.map Char.toLower ∧
          takeNumber cursor.ahead = (numeral, cursor.number.2.ahead) ∧
          Decimal.read? cursor.number.1 = some value ∧
          numberValue cursor.number.1 = Binary32.ofDecimal value :=
  ⟨by decide, by decide +kernel, by decide +kernel,
    number_longest (by decide)⟩

end StyleProbe.Css
