import StyleProbe.Css.Token.Cursor
import StyleProbe.Proofs.Css.Token.Case
import StyleProbe.Proofs.Css.Token.Legible
import StyleProbe.Proofs.Css.Token.Slash

/-!
# Readers and scanners

A reader of a cursor reads what the scanner of the same name takes from the
characters ahead, and leaves the cursor where the scanner leaves off. On its
way it moves back only over the character that it has just moved on over.

Main statement: `reads_tokenFrom`.
-/

namespace StyleProbe.Css

open Decimal (splitDigits)

/-! ## Scanners by their first characters -/

theorem startsUnsigned_eq (cs : List Char) :
    startsUnsigned cs =
      (cs[0]?.any Char.isDigit ||
        cs[0]?.any (· == '.') && cs[1]?.any Char.isDigit) := by
  rcases cs with - | ⟨a, rest⟩
  · rfl
  · by_cases ha : a = '.'
    · subst ha
      cases rest with
      | nil => rfl
      | cons b rest => rfl
    · rw [startsUnsigned_cons ha]
      simp [ha]

theorem isEmpty_splitDigits (cs : List Char) :
    (splitDigits cs).1.isEmpty = !cs.head?.any Char.isDigit := by
  cases cs with
  | nil => rfl
  | cons c rest => cases hc : c.isDigit <;> simp [splitDigits, hc]

theorem takeFraction_eq (cs : List Char) :
    takeFraction cs =
      if cs.head?.any (· == '.') && cs.tail.head?.any Char.isDigit then
        ('.' :: (splitDigits cs.tail).1, (splitDigits cs.tail).2)
      else ([], cs) := by
  cases cs with
  | nil => rfl
  | cons c rest =>
    by_cases hpoint : c = '.'
    · subst hpoint
      have hempty := isEmpty_splitDigits rest
      cases hdigit : rest.head?.any Char.isDigit <;>
        simp_all [takeFraction]
    · simp [takeFraction, hpoint]

theorem scanNumeric_eq (cs : List Char) :
    scanNumeric cs =
      if startsName (takeNumber cs).2 then
        (.dimension (numberValue (takeNumber cs).1)
            (String.ofList (takeName (takeNumber cs).2).1),
          (takeName (takeNumber cs).2).2)
      else if (takeNumber cs).2.head? = some '%' then
        (.percentage (numberValue (takeNumber cs).1), (takeNumber cs).2.tail)
      else (.number (numberValue (takeNumber cs).1), (takeNumber cs).2) := by
  unfold scanNumeric
  dsimp only
  split
  · rfl
  split
  · rename_i after hafter
    rw [hafter]
    rfl
  · rename_i hnone
    refine (if_neg fun hhead => ?_).symm
    obtain ⟨after, hafter⟩ := List.head?_eq_some_iff.mp hhead
    exact hnone after hafter

theorem scanNameLike_eq (cs : List Char) :
    scanNameLike cs =
      if (takeName cs).2.head? = some '(' then
        (.function (String.ofList (takeName cs).1), (takeName cs).2.tail)
      else (.ident (String.ofList (takeName cs).1), (takeName cs).2) := by
  unfold scanNameLike
  split
  · rename_i htaken
    rw [htaken]
    rfl
  · rename_i name after hnone htaken
    rw [htaken]
    refine (if_neg fun hhead => ?_).symm
    obtain ⟨rest, hafter⟩ := List.head?_eq_some_iff.mp hhead
    exact hnone rest hafter

theorem scan_eq_delim {c : Char} {rest : List Char}
    (hpunctuation : punctuation? c = none)
    (hspace : ¬ isSpace c = true) (hquote : ¬ (c = '"' ∨ c = '\x27'))
    (hnumber : ¬ startsNumber (c :: rest) = true)
    (hname : ¬ startsName (c :: rest) = true) (hhash : c ≠ '#')
    (hat : c ≠ '@') : scan c rest = (.delim c, rest) := by
  rw [scan_eq_scanMark hpunctuation hspace hquote hnumber hname, scanMark,
    if_neg (by simp [hhash]), if_neg (by simp [hat])]

namespace Cursor

/-! ## Where a cursor leads -/

/-- The characters that the cursor has not passed. -/
def ahead (cursor : Cursor) : List Char := cursor.chars.drop cursor.place

/-- Every move back in the record is one step back over the character that
the move right before it found. -/
def Tidy (cursor : Cursor) : Prop :=
  ∀ later steps place earlier,
    cursor.moves = later ++ .rewind steps place :: earlier →
      steps = 1 ∧ ∃ c before, earlier = .next place (some c) :: before ∧
        cursor.chars[place]? = some c

/-- From the one cursor to the other in the same text, where `rest` is
ahead then. No untidy move is made. -/
structure LeadsTo (cursor : Cursor) (rest : List Char) (after : Cursor) :
    Prop where
  chars : after.chars = cursor.chars
  ahead : after.ahead = rest
  tidy : cursor.Tidy → after.Tidy

/-- A reader has read what a scanner takes from the characters ahead, and
leads to what the scanner leaves. -/
structure Reads {α : Type} (cursor : Cursor) (scanned : α × List Char)
    (read : α × Cursor) : Prop extends LeadsTo cursor scanned.2 read.2 where
  value : read.1 = scanned.1

section Moves

variable {cursor after last : Cursor} {rest rest' : List Char} {c : Char}

theorem leadsTo_self (cursor : Cursor) : cursor.LeadsTo cursor.ahead cursor :=
  ⟨rfl, rfl, id⟩

theorem LeadsTo.trans (h : cursor.LeadsTo rest after)
    (h' : after.LeadsTo rest' last) : cursor.LeadsTo rest' last where
  chars := h'.chars.trans h.chars
  ahead := h'.ahead
  tidy := h'.tidy ∘ h.tidy

theorem ahead_of_peek_eq_none (h : cursor.peek = none) : cursor.ahead = [] :=
  List.drop_eq_nil_of_le (List.getElem?_eq_none_iff.mp h)

theorem ahead_of_peek_eq_some (h : cursor.peek = some c) :
    cursor.ahead = c :: cursor.next.2.ahead := by
  obtain ⟨hplace, rfl⟩ := List.getElem?_eq_some_iff.mp h
  exact List.drop_eq_getElem_cons hplace

theorem peek_eq (cursor : Cursor) : cursor.peek = cursor.ahead.head? :=
  List.head?_drop.symm

theorem peekChunk_two (cursor : Cursor) :
    cursor.peekChunk 2 = [cursor.ahead[0]?, cursor.ahead[1]?] := by
  simp [peekChunk, ahead, List.range_succ]

theorem peekChunk_three (cursor : Cursor) :
    cursor.peekChunk 3 =
      [cursor.ahead[0]?, cursor.ahead[1]?, cursor.ahead[2]?] := by
  simp [peekChunk, ahead, List.range_succ]

theorem leadsTo_next (cursor : Cursor) :
    cursor.LeadsTo cursor.ahead.tail cursor.next.2 where
  chars := rfl
  ahead := by simp [ahead, next]
  tidy := by
    intro h later steps place earlier hmoves
    cases later with
    | nil => cases (List.cons.inj hmoves).1
    | cons move later =>
      exact h later steps place earlier (List.cons.inj hmoves).2

/-- Moving on and back over a character leads nowhere. -/
theorem leadsTo_rewind (h : cursor.peek = some c) :
    cursor.LeadsTo cursor.ahead (cursor.next.2.rewind 1) where
  chars := rfl
  ahead := by simp [ahead, next, rewind]
  tidy := by
    intro htidy later steps place earlier hmoves
    cases later with
    | nil =>
      obtain ⟨hmove, hearlier⟩ := List.cons.inj hmoves
      cases hmove
      refine ⟨rfl, c, cursor.moves, ?_, h⟩
      rw [← hearlier, ← h]
      rfl
    | cons move later =>
      exact cursor.leadsTo_next.tidy htidy later steps place earlier
        (List.cons.inj hmoves).2

theorem ahead_rewind (h : cursor.peek = some c) :
    (cursor.next.2.rewind 1).ahead = c :: cursor.next.2.ahead :=
  (leadsTo_rewind h).ahead.trans (ahead_of_peek_eq_some h)

theorem leadsTo_next_of_ahead (h : cursor.ahead = c :: rest) :
    cursor.LeadsTo rest cursor.next.2 := by
  have hnext := cursor.leadsTo_next
  rwa [h] at hnext

end Moves

/-! ## What was read -/

section Reads

variable {α β : Type} {cursor after : Cursor} {rest : List Char}
  {scanned : α × List Char} {read : α × Cursor}

theorem reads_of_eq {a : α} (h : scanned = (a, cursor.ahead)) :
    cursor.Reads scanned (a, cursor) := by
  rw [h]
  exact ⟨cursor.leadsTo_self, rfl⟩

theorem LeadsTo.reads (h : cursor.LeadsTo rest after)
    (hread : after.Reads scanned read) (f : α → β) :
    cursor.Reads (f scanned.1, scanned.2) (f read.1, read.2) :=
  ⟨h.trans hread.toLeadsTo, congrArg f hread.value⟩

theorem Reads.map (h : cursor.Reads scanned read) (f : α → β) :
    cursor.Reads (f scanned.1, scanned.2) (f read.1, read.2) :=
  cursor.leadsTo_self.reads h f

end Reads

/-! ## What starts here -/

theorem startsName_peekChunk (cursor : Cursor) :
    startsName (cursor.peekChunk 2) = Css.startsName cursor.ahead := by
  rw [peekChunk_two]
  rcases cursor.ahead with - | ⟨a, - | ⟨b, rest⟩⟩
  · rfl
  · by_cases ha : a = '-'
    · subst ha
      rfl
    · simp [startsName, Css.startsName]
  · by_cases ha : a = '-'
    · subst ha
      rfl
    · simp [startsName, Css.startsName, ha]

theorem startsNumber_peekChunk (cursor : Cursor) :
    startsNumber (cursor.peekChunk 3) = Css.startsNumber cursor.ahead := by
  rw [peekChunk_three, Css.startsNumber]
  rcases cursor.ahead with - | ⟨a, rest⟩
  · rfl
  · by_cases hplus : a = '+'
    · subst hplus
      rw [Decimal.splitSign, startsUnsigned_eq]
      simp [startsNumber, isSign]
    by_cases hminus : a = '-'
    · subst hminus
      rw [Decimal.splitSign, startsUnsigned_eq]
      simp [startsNumber, isSign]
    · have hplus' : (a == '+') = false := by simpa using hplus
      have hminus' : (a == '-') = false := by simpa using hminus
      simp [startsUnsigned_eq, startsNumber, isSign, hplus, hminus, hplus',
        hminus', Decimal.splitSign]

/-- A backslash escapes the character behind it, unless there is none or it is
a line feed. -/
theorem escapes_peekChunk (cursor : Cursor) :
    escapes (cursor.peekChunk 2) =
      cursor.next.2.peek.any fun c => c != '\n' := by
  have hchunk : cursor.peekChunk 2 = [cursor.peek, cursor.next.2.peek] := rfl
  rw [hchunk]
  cases cursor.next.2.peek <;> rfl

theorem startsFraction_peekChunk (cursor : Cursor) :
    startsFraction (cursor.peekChunk 2) =
      (cursor.peek.any (· == '.') && cursor.next.2.peek.any Char.isDigit) :=
  rfl

theorem startsExponent_peekChunk (cursor : Cursor) :
    startsExponent (cursor.peekChunk 2) =
      (cursor.peek.any isExponentMark &&
        cursor.next.2.peek.any Char.isDigit) :=
  rfl

theorem startsSignedExponent_peekChunk (cursor : Cursor) :
    startsSignedExponent (cursor.peekChunk 3) =
      (cursor.peek.any isExponentMark && cursor.next.2.peek.any isSign &&
        cursor.next.2.next.2.peek.any Char.isDigit) :=
  rfl

/-! ## Readers -/

theorem reads_digits (cursor : Cursor) :
    cursor.Reads (splitDigits cursor.ahead) cursor.digits := by
  fun_induction digits cursor with
  | case1 cursor hpeek =>
    refine reads_of_eq ?_
    rw [ahead_of_peek_eq_none hpeek]
    rfl
  | case2 cursor c hpeek hdigit more ih =>
    have hscan : splitDigits cursor.ahead =
        (c :: (splitDigits cursor.next.2.ahead).1,
          (splitDigits cursor.next.2.ahead).2) := by
      rw [ahead_of_peek_eq_some hpeek]
      simp [splitDigits, hdigit]
    rw [hscan]
    exact cursor.leadsTo_next.reads ih (c :: ·)
  | case3 cursor c hpeek hdigit =>
    refine reads_of_eq ?_
    rw [ahead_of_peek_eq_some hpeek]
    simp [splitDigits, hdigit]

theorem leadsTo_spaces (cursor : Cursor) :
    cursor.LeadsTo (cursor.ahead.dropWhile isSpace) cursor.spaces := by
  fun_induction spaces cursor with
  | case1 cursor hspace ih =>
    obtain ⟨c, hpeek, hc⟩ := (Option.any_eq_true ..).mp hspace
    rw [ahead_of_peek_eq_some hpeek, List.dropWhile_cons_of_pos hc]
    exact cursor.leadsTo_next.trans ih
  | case2 cursor hspace =>
    have hself : cursor.ahead.dropWhile isSpace = cursor.ahead := by
      rw [peek_eq] at hspace
      cases hahead : cursor.ahead with
      | nil => rfl
      | cons c rest =>
        rw [hahead, List.head?_cons] at hspace
        exact List.dropWhile_cons_of_neg hspace
    rw [hself]
    exact cursor.leadsTo_self

theorem reads_name (cursor : Cursor) :
    cursor.Reads (takeName cursor.ahead) cursor.name := by
  fun_induction name cursor with
  | case1 cursor hpeek =>
    refine reads_of_eq ?_
    rw [ahead_of_peek_eq_none hpeek]
    rfl
  | case2 cursor c hpeek hc more ih =>
    rw [ahead_of_peek_eq_some hpeek, takeName_cons hc]
    exact cursor.leadsTo_next.reads ih (c :: ·)
  | case3 cursor c hpeek hc hescape escaped more ih =>
    obtain ⟨rfl, hescapes⟩ := hescape
    rw [escapes_peekChunk] at hescapes
    obtain ⟨d, hnext, hd⟩ := (Option.any_eq_true ..).mp hescapes
    have hline : d ≠ '\n' := by simpa using hd
    have hescaped : escaped.1 = some d := hnext
    rw [ahead_of_peek_eq_some hpeek, ahead_of_peek_eq_some hnext, takeName,
      if_neg hline, hescaped]
    exact (cursor.leadsTo_next.trans cursor.next.2.leadsTo_next).reads ih
      (d :: ·)
  | case4 cursor c hpeek hc hescape =>
    refine reads_of_eq ?_
    rw [ahead_of_peek_eq_some hpeek]
    by_cases hbackslash : c = '\\'
    · subst hbackslash
      rw [escapes_peekChunk, peek_eq] at hescape
      cases hnext : cursor.next.2.ahead with
      | nil => rfl
      | cons d rest =>
        have hline : d = '\n' := by simpa [hnext] using hescape
        rw [takeName, if_pos hline]
    · refine takeName_of_not_isNameChar (by simpa using hc) ?_
      intro d tail heq
      exact hbackslash (List.cons.inj heq).1

theorem reads_string {quote : Char} (hquote : quote ≠ '\\')
    (cursor : Cursor) :
    cursor.Reads (takeString quote cursor.ahead) (cursor.string quote) := by
  fun_induction string quote cursor with
  | case1 cursor hpeek =>
    have hend := ahead_of_peek_eq_none hpeek
    have hnext := cursor.leadsTo_next
    rw [hend] at hnext ⊢
    exact ⟨hnext, rfl⟩
  | case2 cursor hpeek =>
    rw [ahead_of_peek_eq_some hpeek, takeString_cons hquote, if_pos rfl]
    exact ⟨cursor.leadsTo_next_of_ahead (ahead_of_peek_eq_some hpeek), rfl⟩
  | case3 cursor hpeek hother =>
    have hahead := ahead_of_peek_eq_some hpeek
    have hscan : takeString quote cursor.ahead = (none, cursor.ahead) := by
      rw [hahead, takeString_cons (by decide), if_neg hother, if_pos rfl]
    rw [hscan]
    exact ⟨leadsTo_rewind hpeek, rfl⟩
  | case4 cursor escaped more hnone hpeek _ _ ih =>
    -- The backslash was the last character: the end closes the string.
    have hend := ahead_of_peek_eq_none hnone
    have hafter : escaped.2.ahead = [] := by
      have hnext := cursor.next.2.leadsTo_next.ahead
      rwa [hend] at hnext
    rw [hafter] at ih
    rw [ahead_of_peek_eq_some hpeek, hend]
    exact (cursor.leadsTo_next.trans cursor.next.2.leadsTo_next).reads ih id
  | case5 cursor escaped more hline hpeek _ _ ih =>
    rw [ahead_of_peek_eq_some hpeek, ahead_of_peek_eq_some hline, takeString,
      if_pos rfl]
    exact (cursor.leadsTo_next.trans cursor.next.2.leadsTo_next).reads ih id
  | case6 cursor escaped more c hc hescaped hpeek _ _ ih =>
    rw [ahead_of_peek_eq_some hpeek, ahead_of_peek_eq_some hescaped,
      takeString_escape quote hc]
    exact (cursor.leadsTo_next.trans cursor.next.2.leadsTo_next).reads ih
      (Option.map (c :: ·))
  | case7 cursor c hpeek hother hline hbackslash more ih =>
    rw [ahead_of_peek_eq_some hpeek, takeString_cons hbackslash,
      if_neg hother, if_neg hline]
    exact cursor.leadsTo_next.reads ih (Option.map (c :: ·))

/-! ## Numbers -/

theorem takeSign_cons (c : Char) (rest : List Char) :
    takeSign (c :: rest) =
      if isSign c then ([c], rest) else ([], c :: rest) := by
  by_cases hplus : c = '+'
  · subst hplus
    rfl
  by_cases hminus : c = '-'
  · subst hminus
    rfl
  · simp [takeSign, isSign, hplus, hminus]

theorem reads_sign (cursor : Cursor) :
    cursor.Reads (takeSign cursor.ahead) cursor.sign := by
  unfold sign
  split
  · rename_i hpeek
    refine reads_of_eq ?_
    rw [ahead_of_peek_eq_none hpeek]
    rfl
  · rename_i c hpeek
    have hahead := ahead_of_peek_eq_some hpeek
    split
    · rename_i hsign
      rw [hahead, takeSign_cons, if_pos hsign]
      exact ⟨cursor.leadsTo_next_of_ahead hahead, rfl⟩
    · rename_i hsign
      refine reads_of_eq ?_
      rw [hahead, takeSign_cons, if_neg hsign]

/-- An exponent is taken where a mark and a digit stand, or a mark, a sign and
a digit. -/
theorem takeExponent_cons (mark : Char) (rest : List Char) :
    takeExponent (mark :: rest) =
      if isExponentMark mark && rest.head?.any Char.isDigit then
        (mark :: (splitDigits rest).1, (splitDigits rest).2)
      else if isExponentMark mark && rest.head?.any isSign &&
          rest.tail.head?.any Char.isDigit then
        (mark :: (takeSign rest).1 ++ (splitDigits rest.tail).1,
          (splitDigits rest.tail).2)
      else ([], mark :: rest) := by
  rw [takeExponent]
  cases rest with
  | nil => simp [takeSign, splitDigits]
  | cons c rest =>
    rw [takeSign_cons]
    cases hsign : isSign c with
    | true =>
      have hdigit : c.isDigit = false := by
        rcases (by simpa [isSign] using hsign : c = '+' ∨ c = '-') with
          rfl | rfl <;> rfl
      simp [isEmpty_splitDigits, isExponentMark, hsign, hdigit]
    | false => simp [isEmpty_splitDigits, isExponentMark, hsign]

theorem reads_fraction (cursor : Cursor) :
    cursor.Reads (takeFraction cursor.ahead) cursor.fraction := by
  have hnext := cursor.leadsTo_next.ahead
  rw [takeFraction_eq, fraction, startsFraction_peekChunk, peek_eq, peek_eq,
    hnext]
  split
  · rw [← hnext]
    exact cursor.leadsTo_next.reads cursor.next.2.reads_digits ('.' :: ·)
  · exact reads_of_eq rfl

theorem toLower_of_isExponentMark {c : Char} (h : isExponentMark c = true) :
    c.toLower = 'e' := by
  rcases (by simpa [isExponentMark] using h : c = 'e' ∨ c = 'E') with
    rfl | rfl <;> rfl

theorem reads_exponent (cursor : Cursor) :
    cursor.Reads ((takeExponent cursor.ahead).1.map Char.toLower,
      (takeExponent cursor.ahead).2) cursor.exponent := by
  unfold exponent
  rw [startsExponent_peekChunk, startsSignedExponent_peekChunk]
  cases hpeek : cursor.peek with
  | none =>
    rw [ahead_of_peek_eq_none hpeek]
    exact reads_of_eq (by rw [ahead_of_peek_eq_none hpeek]; rfl)
  | some mark =>
    have hahead := ahead_of_peek_eq_some hpeek
    have hnext := cursor.leadsTo_next_of_ahead hahead
    have hbehind := cursor.next.2.leadsTo_next.ahead
    rw [hahead, takeExponent_cons, ← hbehind, ← peek_eq, ← peek_eq,
      Option.any_some]
    split
    · rename_i hbare
      have hmark := toLower_of_isExponentMark (Bool.and_eq_true_iff.mp hbare).1
      rw [List.map_cons, hmark, map_toLower_splitDigits]
      exact hnext.reads cursor.next.2.reads_digits ('e' :: ·)
    split
    · rename_i hstarts
      obtain ⟨hmarks, -⟩ := Bool.and_eq_true_iff.mp hstarts
      obtain ⟨hmark, hsign⟩ := Bool.and_eq_true_iff.mp hmarks
      obtain ⟨c, hpeek', hc⟩ := (Option.any_eq_true ..).mp hsign
      have htaken : (takeSign cursor.next.2.ahead).2 =
          cursor.next.2.next.2.ahead := by
        rw [ahead_of_peek_eq_some hpeek', takeSign_cons, if_pos hc]
      have hsigned := cursor.next.2.reads_sign
      have hdigits := cursor.next.2.sign.2.reads_digits
      rw [hsigned.ahead, htaken] at hdigits
      rw [List.cons_append, List.map_cons, List.map_append,
        toLower_of_isExponentMark hmark, map_toLower_takeSign,
        map_toLower_splitDigits, ← hsigned.value]
      exact (hnext.trans hsigned.toLeadsTo).reads hdigits
        ('e' :: cursor.next.2.sign.1 ++ ·)
    · exact reads_of_eq (by rw [hahead]; rfl)

/-- A number is read in small letters. -/
theorem reads_number (cursor : Cursor) :
    cursor.Reads ((takeNumber cursor.ahead).1.map Char.toLower,
      (takeNumber cursor.ahead).2) cursor.number := by
  have hsign := cursor.reads_sign
  have hwhole := cursor.sign.2.reads_digits
  have hfraction := cursor.sign.2.digits.2.reads_fraction
  have hexponent := cursor.sign.2.digits.2.fraction.2.reads_exponent
  rw [hsign.ahead] at hwhole
  rw [hwhole.ahead] at hfraction
  rw [hfraction.ahead] at hexponent
  refine ⟨((hsign.toLeadsTo.trans hwhole.toLeadsTo).trans
    hfraction.toLeadsTo).trans hexponent.toLeadsTo, ?_⟩
  show cursor.sign.1 ++ _ ++ _ ++ _ = _
  rw [hsign.value, hwhole.value, hfraction.value, hexponent.value]
  simp only [takeNumber, List.map_append, map_toLower_takeSign,
    map_toLower_splitDigits, map_toLower_takeFraction]

/-! ## One token -/

theorem reads_stringToken {quote : Char} (hquote : quote ≠ '\\')
    (cursor : Cursor) :
    cursor.Reads (scanString quote cursor.ahead)
      (cursor.stringToken quote) := by
  have hread : cursor.stringToken quote =
      ((cursor.string quote).1.elim .badString (.string ∘ String.ofList),
        (cursor.string quote).2) := by
    unfold stringToken
    split <;> simp_all
  rw [scanString_eq, hread]
  exact (reads_string hquote cursor).map fun contents =>
    contents.elim Token.badString (Token.string ∘ String.ofList)

/-- What is read depends on the mark behind it, which is read too. -/
theorem reads_mark {α : Type} (cursor : Cursor) (mark : Char) (a b : α) :
    cursor.Reads
      (if cursor.ahead.head? = some mark then (a, cursor.ahead.tail)
        else (b, cursor.ahead))
      (if cursor.peek = some mark then (a, cursor.next.2)
        else (b, cursor)) := by
  rw [peek_eq]
  split
  · exact ⟨cursor.leadsTo_next, rfl⟩
  · exact reads_of_eq rfl

theorem reads_numeric (cursor : Cursor) :
    cursor.Reads (scanNumeric cursor.ahead) cursor.numeric := by
  have hnumber := cursor.reads_number
  have hunit := cursor.number.2.reads_name
  have hmark := fun value => cursor.number.2.reads_mark '%'
    (Token.percentage value) (Token.number value)
  rw [hnumber.ahead] at hunit hmark
  unfold numeric
  dsimp only
  rw [scanNumeric_eq, startsName_peekChunk, hnumber.value, hnumber.ahead,
    numberValue_map_toLower]
  split
  · exact hnumber.toLeadsTo.reads hunit fun unit =>
      Token.dimension _ (String.ofList unit)
  · exact hnumber.toLeadsTo.reads (hmark _) id

theorem reads_nameLike (cursor : Cursor) :
    cursor.Reads (scanNameLike cursor.ahead) cursor.nameLike := by
  have hname := cursor.reads_name
  have hmark := fun name => cursor.name.2.reads_mark '('
    (Token.function (String.ofList name)) (Token.ident (String.ofList name))
  rw [hname.ahead] at hmark
  unfold nameLike
  dsimp only
  rw [scanNameLike_eq, hname.value]
  exact hname.toLeadsTo.reads (hmark _) id

section TokenFrom

variable {start : Cursor} {c : Char}

/-- Behind a character that is not kept, a mark of its own is read. -/
theorem reads_delim (hpeek : start.peek = some c)
    (hscan : scan c start.next.2.ahead = (.delim c, start.next.2.ahead)) :
    start.Reads (scan c start.next.2.ahead) (.delim c, start.next.2) := by
  rw [hscan]
  exact ⟨start.leadsTo_next_of_ahead (ahead_of_peek_eq_some hpeek), rfl⟩

/-- The character is read again, as a mark of its own. -/
theorem reads_delim_rewind (hpeek : start.peek = some c)
    (hscan : scan c start.next.2.ahead = (.delim c, start.next.2.ahead)) :
    start.Reads (scan c start.next.2.ahead)
      (.delim c, (start.next.2.rewind 1).next.2) := by
  have hnext := leadsTo_next_of_ahead (ahead_rewind hpeek)
  rw [hscan]
  exact ⟨(leadsTo_rewind hpeek).trans hnext, rfl⟩

theorem reads_numeric_rewind (hpeek : start.peek = some c)
    (hnumber : Css.startsNumber (c :: start.next.2.ahead) = true) :
    start.Reads (scan c start.next.2.ahead)
      (start.next.2.rewind 1).numeric := by
  have hread := (start.next.2.rewind 1).reads_numeric
  rw [ahead_rewind hpeek] at hread
  rw [scan_of_startsNumber hnumber]
  exact (leadsTo_rewind hpeek).reads hread id

theorem reads_nameLike_rewind (hpeek : start.peek = some c)
    (hname : Css.startsName (c :: start.next.2.ahead) = true) :
    start.Reads (scan c start.next.2.ahead)
      (start.next.2.rewind 1).nameLike := by
  have hread := (start.next.2.rewind 1).reads_nameLike
  rw [ahead_rewind hpeek] at hread
  rw [scan_of_startsName hname]
  exact (leadsTo_rewind hpeek).reads hread id

theorem reads_hash (hpeek : start.peek = some '#') :
    start.Reads (scan '#' start.next.2.ahead) start.next.2.hash := by
  have hscan : scan '#' start.next.2.ahead =
      scanMark '#' start.next.2.ahead :=
    scan_eq_scanMark rfl (by decide) (by decide) Bool.false_ne_true
      Bool.false_ne_true
  unfold hash
  rw [peek_eq]
  split
  · rename_i hname
    rw [hscan, scanMark, if_pos ⟨rfl, hname⟩]
    exact (leadsTo_next_of_ahead (ahead_of_peek_eq_some hpeek)).reads
      start.next.2.reads_name fun name => Token.hash (String.ofList name)
  · rename_i hname
    refine reads_delim hpeek (hscan.trans ?_)
    rw [scanMark, if_neg (by simp [hname]), if_neg (by simp)]

theorem reads_atKeyword (hpeek : start.peek = some '@') :
    start.Reads (scan '@' start.next.2.ahead) start.next.2.atKeyword := by
  have hscan : scan '@' start.next.2.ahead =
      scanMark '@' start.next.2.ahead :=
    scan_eq_scanMark rfl (by decide) (by decide) Bool.false_ne_true
      Bool.false_ne_true
  unfold atKeyword
  rw [startsName_peekChunk]
  split
  · rename_i hname
    rw [hscan, scanMark, if_neg (by simp), if_pos ⟨rfl, hname⟩]
    exact (leadsTo_next_of_ahead (ahead_of_peek_eq_some hpeek)).reads
      start.next.2.reads_name fun name => Token.atKeyword (String.ofList name)
  · rename_i hname
    refine reads_delim hpeek (hscan.trans ?_)
    rw [scanMark, if_neg (by simp), if_neg (by simp [hname])]

theorem reads_plusOrPoint (hpeek : start.peek = some c)
    (hc : c = '+' ∨ c = '.') :
    start.Reads (scan c start.next.2.ahead) (start.next.2.plusOrPoint c) := by
  have hahead := ahead_rewind hpeek
  unfold plusOrPoint
  dsimp only
  rw [startsNumber_peekChunk, hahead]
  split
  · rename_i hnumber
    exact reads_numeric_rewind hpeek hnumber
  · rename_i hnumber
    refine reads_delim_rewind hpeek ?_
    rcases hc with rfl | rfl
    · exact scan_eq_delim rfl (by decide) (by decide) hnumber
        Bool.false_ne_true (by decide) (by decide)
    · exact scan_eq_delim rfl (by decide) (by decide) hnumber
        Bool.false_ne_true (by decide) (by decide)

theorem reads_hyphen (hpeek : start.peek = some '-') :
    start.Reads (scan '-' start.next.2.ahead) start.next.2.hyphen := by
  have hahead := ahead_rewind hpeek
  unfold hyphen
  dsimp only
  rw [startsNumber_peekChunk, startsName_peekChunk, hahead]
  split
  · rename_i hnumber
    exact reads_numeric_rewind hpeek hnumber
  split
  · rename_i hname
    exact reads_nameLike_rewind hpeek hname
  · rename_i hnumber hname
    exact reads_delim_rewind hpeek (scan_eq_delim rfl (by decide) (by decide)
      hnumber hname (by decide) (by decide))

/-- **A token is read as it is scanned**, from its first character on. -/
theorem reads_tokenFrom (hpeek : start.peek = some c) :
    start.Reads (scan c start.next.2.ahead) (start.next.2.tokenFrom c) := by
  have hnext := leadsTo_next_of_ahead (ahead_of_peek_eq_some hpeek)
  unfold tokenFrom
  split
  · rename_i hspace
    rw [scan_isSpace hspace]
    exact ⟨hnext.trans start.next.2.leadsTo_spaces, rfl⟩
  split
  · rename_i hquote
    have hscan : scan c start.next.2.ahead =
        scanString c start.next.2.ahead := by
      rcases hquote with rfl | rfl <;> rfl
    have hbackslash : c ≠ '\\' := by
      rcases hquote with rfl | rfl <;> decide
    rw [hscan]
    exact hnext.reads (start.next.2.reads_stringToken hbackslash) id
  split
  · rename_i hhash
    subst hhash
    exact reads_hash hpeek
  split
  · rename_i t hpunctuation
    have hscan : scan c start.next.2.ahead = (t, start.next.2.ahead) := by
      simp only [scan, hpunctuation]
    rw [hscan]
    exact ⟨hnext, rfl⟩
  split
  · rename_i hc
    exact reads_plusOrPoint hpeek hc
  split
  · rename_i hhyphen
    subst hhyphen
    exact reads_hyphen hpeek
  split
  · rename_i hat
    subst hat
    exact reads_atKeyword hpeek
  rename_i hspace hquote hhash _ hpunctuation hc hhyphen hat
  have hname : Css.startsName (c :: start.next.2.ahead) = isNameStart c := by
    rw [startsName_cons, if_neg hhyphen]
  split
  · rename_i hdigit
    exact reads_numeric_rewind hpeek (startsNumber_of_isDigit hdigit _)
  split
  · rename_i hletter
    exact reads_nameLike_rewind hpeek (hname.trans hletter)
  · rename_i hdigit hletter
    have hnumber : Css.startsNumber (c :: start.next.2.ahead) = c.isDigit := by
      rw [not_or] at hc
      rw [Css.startsNumber, Decimal.splitSign, startsUnsigned_cons hc.2]
      · simp [hc.1]
      · simp [hhyphen]
    exact reads_delim hpeek (scan_eq_delim hpunctuation hspace hquote
      (by rwa [hnumber]) (by rwa [hname]) hhash hat)

end TokenFrom

end Cursor

end StyleProbe.Css
