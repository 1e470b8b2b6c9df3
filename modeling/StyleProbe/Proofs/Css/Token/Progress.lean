import StyleProbe.Proofs.Css.Token.Comment
import StyleProbe.Proofs.Css.Token.Cursor

/-!
# Progress of a cursor

Reading a token moves the cursor on: every token takes at least one of the
characters ahead, whatever the reader moves back on its way. So the loop over
all tokens ends. It gives the tokens of the text, and it stops at the end of
the text only.

Main statements: `tokenStep` (what reading one token does) and
`tokenize_progress`.
-/

namespace StyleProbe.Css.Cursor

/-! ## Comments -/

/-- Takes the inside of a comment and its end, and tells whether it has
one. -/
def takeComment (cs : List Char) : Bool × List Char :=
  ((afterComment? cs).isSome, (afterComment? cs).getD [])

theorem takeComment_cons {c : Char} {rest : List Char}
    (h : ¬ ['*', '/'] <+: c :: rest) :
    takeComment (c :: rest) = takeComment rest := by
  rw [takeComment, afterComment?_cons h, takeComment]

/-- The end of a comment is read where it stands. The asterisk of it may have
been passed. -/
theorem reads_commentEnd (asterisk : Bool) (cursor : Cursor) :
    cursor.Reads
      (takeComment (if asterisk then '*' :: cursor.ahead else cursor.ahead))
      (cursor.commentEnd asterisk) := by
  fun_induction commentEnd asterisk cursor with
  | case1 asterisk cursor hpeek =>
    have hend := ahead_of_peek_eq_none hpeek
    have hnext := cursor.leadsTo_next
    rw [hend] at hnext ⊢
    cases asterisk
    · exact ⟨hnext, rfl⟩
    · exact ⟨hnext, rfl⟩
  | case2 asterisk cursor hpeek ih =>
    have hscan : takeComment (if asterisk then '*' :: cursor.ahead
        else cursor.ahead) = takeComment ('*' :: cursor.next.2.ahead) := by
      rw [ahead_of_peek_eq_some hpeek]
      cases asterisk with
      | false => rfl
      | true => exact takeComment_cons (by simp [List.cons_prefix_cons])
    rw [hscan]
    exact cursor.leadsTo_next.reads ih id
  | case3 asterisk cursor c hpeek _ hslash =>
    obtain ⟨rfl, rfl⟩ := hslash
    have hahead := ahead_of_peek_eq_some hpeek
    rw [hahead]
    exact ⟨cursor.leadsTo_next_of_ahead hahead, rfl⟩
  | case4 asterisk cursor c hpeek hc hslash ih =>
    have hbody : takeComment (c :: cursor.next.2.ahead) =
        takeComment cursor.next.2.ahead :=
      takeComment_cons (by simp [List.cons_prefix_cons, Ne.symm hc])
    have hscan : takeComment (if asterisk then '*' :: cursor.ahead
        else cursor.ahead) = takeComment cursor.next.2.ahead := by
      rw [ahead_of_peek_eq_some hpeek]
      cases asterisk with
      | false => exact hbody
      | true =>
        have hc' : c ≠ '/' := fun hc => hslash ⟨hc, rfl⟩
        refine (takeComment_cons ?_).trans hbody
        simp [List.cons_prefix_cons, hc'.symm]
    rw [hscan]
    exact cursor.leadsTo_next.reads ih id

/-- Where a comment starts, it is passed, with the same tokens behind it, or
it goes on to the end of the text. -/
theorem commentEnd_cases {cursor : Cursor}
    (h : cursor.peekChunk 2 = [some '/', some '*']) :
    let inside := cursor.next.2.next.2.commentEnd false
    (inside.1 = true ∧
        tokenizeChars cursor.ahead = tokenizeChars inside.2.ahead ∧
        inside.2.ahead.length < cursor.ahead.length ∧
        cursor.LeadsTo inside.2.ahead inside.2) ∨
      (inside.1 = false ∧
        tokenizeChars cursor.ahead = .error .unterminatedComment ∧
        cursor.LeadsTo [] inside.2) := by
  have hchunk : [cursor.peek, cursor.next.2.peek] = [some '/', some '*'] := h
  obtain ⟨hslash, hrest⟩ := List.cons.inj hchunk
  have hbody := ahead_of_peek_eq_some (List.cons.inj hrest).1
  have hstart := cursor.leadsTo_next.trans (leadsTo_next_of_ahead hbody)
  have hread := reads_commentEnd false cursor.next.2.next.2
  rw [if_neg Bool.false_ne_true, takeComment] at hread
  have htokens := tokenizeChars_comment cursor.next.2.next.2.ahead
  have hleads := hstart.trans hread.toLeadsTo
  rw [ahead_of_peek_eq_some hslash, hbody]
  dsimp only
  cases hend : afterComment? cursor.next.2.next.2.ahead with
  | none =>
    rw [hend] at hread htokens hleads
    exact .inr ⟨hread.value, htokens, hleads⟩
  | some after =>
    have hlength := length_afterComment?_lt hend
    rw [hend] at hread htokens hleads
    have hafter : (cursor.next.2.next.2.commentEnd false).2.ahead = after :=
      hread.ahead
    rw [hafter]
    refine .inl ⟨hread.value, htokens, ?_, hleads⟩
    rw [List.length_cons, List.length_cons]
    omega

/-- What reading comments does: it stops where no comment starts, with the
same tokens ahead, or fails at the end of the text. -/
inductive CommentStep (cursor : Cursor) : Except Error Unit × Cursor → Prop
  | failed {after : Cursor}
      (tokens : tokenizeChars cursor.ahead = .error .unterminatedComment)
      (leads : cursor.LeadsTo [] after) :
    CommentStep cursor (.error .unterminatedComment, after)
  | ended {after : Cursor}
      (tokens : tokenizeChars cursor.ahead = tokenizeChars after.ahead)
      (starts : ∀ rest, after.ahead ≠ '/' :: '*' :: rest)
      (length : after.ahead.length ≤ cursor.ahead.length)
      (leads : cursor.LeadsTo after.ahead after) :
    CommentStep cursor (.ok (), after)

theorem commentStep (cursor : Cursor) : cursor.CommentStep cursor.comments := by
  fun_induction comments cursor with
  | case1 cursor hchunk inside hclosed ih =>
    obtain ⟨-, htokens, hlength, hleads⟩ | ⟨hopen, -⟩ :=
      commentEnd_cases hchunk
    · generalize inside.2.comments = read at ih
      cases ih with
      | failed tokens leads =>
        exact .failed (htokens.trans tokens) (hleads.trans leads)
      | ended tokens starts length leads =>
        exact .ended (htokens.trans tokens) starts
          (length.trans (Nat.le_of_lt hlength)) (hleads.trans leads)
    · exact absurd (hopen.symm.trans hclosed) Bool.false_ne_true
  | case2 cursor hchunk inside hopen =>
    obtain ⟨hclosed, -⟩ | ⟨-, htokens, hleads⟩ := commentEnd_cases hchunk
    · exact absurd hclosed hopen
    · exact .failed htokens hleads
  | case3 cursor hchunk =>
    refine .ended rfl ?_ (Nat.le_refl _) cursor.leadsTo_self
    intro rest hahead
    rw [peekChunk_two, hahead] at hchunk
    exact hchunk rfl

/-! ## One token -/

/-- What reading a token does: it fails or finds nothing at the end of the
text, or it gives the first token of what was ahead, which has taken some of
it. -/
inductive TokenStep (cursor : Cursor) :
    Except Error (Option Token) × Cursor → Prop
  | failed {after : Cursor}
      (tokens : tokenizeChars cursor.ahead = .error .unterminatedComment)
      (leads : cursor.LeadsTo [] after) :
    TokenStep cursor (.error .unterminatedComment, after)
  | ended {after : Cursor} (tokens : tokenizeChars cursor.ahead = .ok [])
      (leads : cursor.LeadsTo [] after) : TokenStep cursor (.ok none, after)
  | read {after : Cursor} {t : Token}
      (tokens : tokenizeChars cursor.ahead =
        (tokenizeChars after.ahead).map (t :: ·))
      (named : t.Named) (length : after.ahead.length < cursor.ahead.length)
      (leads : cursor.LeadsTo after.ahead after) :
    TokenStep cursor (.ok (some t), after)

/-- **Reading a token moves the cursor on.** -/
theorem tokenStep (cursor : Cursor) : cursor.TokenStep cursor.token := by
  have hcomments := cursor.commentStep
  unfold token
  generalize cursor.comments = comments at hcomments
  cases hcomments with
  | failed tokens leads => exact .failed tokens leads
  | @ended start tokens starts length leads =>
    dsimp only
    cases hpeek : start.next.1 with
    | none =>
      have hend := ahead_of_peek_eq_none hpeek
      have hnext := start.leadsTo_next
      rw [hend] at hnext tokens
      exact .ended (tokens.trans (by rw [tokenizeChars])) (leads.trans hnext)
    | some c =>
      have hahead := ahead_of_peek_eq_some hpeek
      have hread := reads_tokenFrom hpeek
      have hlength := length_scan_le c start.next.2.ahead
      dsimp only
      rw [hahead] at tokens starts length
      rw [tokenizeChars_cons starts, ← hread.ahead, ← hread.value] at tokens
      refine .read tokens ?_ ?_ ?_
      · rw [hread.value]
        exact named_scan c _
      · rw [hread.ahead]
        exact Nat.lt_of_lt_of_le (Nat.lt_succ_of_le hlength) length
      · rw [hread.ahead]
        exact leads.trans hread.toLeadsTo

section TokenStep

variable {cursor : Cursor} {read : Except Error (Option Token) × Cursor}

theorem TokenStep.tidy (h : cursor.TokenStep read) (htidy : cursor.Tidy) :
    read.2.Tidy := by
  cases h with
  | failed _ leads => exact leads.tidy htidy
  | ended _ leads => exact leads.tidy htidy
  | read _ _ _ leads => exact leads.tidy htidy

theorem TokenStep.place_lt {t : Token} (h : cursor.TokenStep read)
    (ht : read.1 = .ok (some t)) : cursor.place < read.2.place := by
  cases h with
  | failed => cases ht
  | ended => cases ht
  | @read after _ _ _ shorter leads =>
    have hchars := leads.chars
    simp only [ahead, List.length_drop, hchars] at shorter
    show cursor.place < after.place
    omega

theorem TokenStep.named {t : Token} (h : cursor.TokenStep read)
    (ht : read.1 = .ok (some t)) : t.Named := by
  cases h with
  | failed => cases ht
  | ended => cases ht
  | read _ named =>
    cases ht
    exact named

end TokenStep

/-! ## All tokens -/

variable {cursor last : Cursor} {result : Except Error (List Token)}

/-- **The loop over all tokens ends**, and it gives the tokens of what is
ahead. -/
theorem exists_runs (cursor : Cursor) :
    ∃ last, Runs cursor (tokenizeChars cursor.ahead) last := by
  induction hlength : cursor.ahead.length using Nat.strongRecOn
    generalizing cursor with
  | ind length ih =>
    have hstep := cursor.tokenStep
    generalize htoken : cursor.token = read at hstep
    cases hstep with
    | failed tokens =>
      rw [tokens]
      exact ⟨_, .fail htoken⟩
    | ended tokens =>
      rw [tokens]
      exact ⟨_, .stop htoken⟩
    | @read after t tokens named shorter =>
      obtain ⟨last, hrun⟩ := ih _ (hlength ▸ shorter) after rfl
      rw [tokens]
      exact ⟨last, .more htoken hrun⟩

/-- However the loop ends, it ends at the end of the text with the tokens of
what was ahead, and has taken a character for each. -/
theorem Runs.ends (h : Runs cursor result last) :
    result = tokenizeChars cursor.ahead ∧ cursor.LeadsTo [] last ∧
      ∀ ts, result = .ok ts → ts.length ≤ cursor.ahead.length := by
  induction h with
  | @stop cursor last htoken =>
    have hstep := cursor.tokenStep
    rw [htoken] at hstep
    cases hstep with
    | ended tokens leads =>
      refine ⟨tokens.symm, leads, ?_⟩
      intro ts hts
      cases hts
      exact Nat.zero_le _
  | @fail cursor last e htoken =>
    have hstep := cursor.tokenStep
    rw [htoken] at hstep
    cases hstep with
    | failed tokens leads =>
      refine ⟨tokens.symm, leads, ?_⟩
      intro ts hts
      cases hts
  | @more cursor after last t rest htoken hrun ih =>
    have hstep := cursor.tokenStep
    rw [htoken] at hstep
    obtain ⟨hrest, hlast, hlength⟩ := ih
    cases hstep with
    | read tokens named shorter leads =>
      refine ⟨by rw [hrest, tokens], leads.trans hlast, ?_⟩
      intro ts hts
      cases rest with
      | error e => cases hts
      | ok us =>
        cases hts
        have := hlength us rfl
        rw [List.length_cons]
        omega

theorem tidy_of_moves_eq_nil (h : cursor.moves = []) : cursor.Tidy := by
  intro later steps place earlier hmoves
  rw [h] at hmoves
  cases later <;> cases hmoves

/-- **The cursor makes progress.** From every place in every text, a token
that is read leaves the cursor behind that place, and every move back on the
way is one step back over the character that the move before it found. The
loop over all tokens ends, always with the tokens of the text, of which there
are no more than characters, and only when every character has been
passed. -/
theorem tokenize_progress (css : String) :
    (∀ place : Nat,
      let start : Cursor := ⟨css.toList, place, []⟩
      start.token.2.Tidy ∧
        ∀ t, start.token.1 = .ok (some t) →
          place < start.token.2.place ∧ t.Named) ∧
      let start : Cursor := ⟨css.toList, 0, []⟩
      (∃ last, Runs start (tokenize css) last) ∧
        ∀ result last, Runs start result last →
          result = tokenize css ∧ last.Tidy ∧ css.length ≤ last.place ∧
            ∀ ts, result = .ok ts → ts.length ≤ css.length := by
  refine ⟨fun place => ?_, ?_, ?_⟩
  · have hstep := tokenStep ⟨css.toList, place, []⟩
    exact ⟨hstep.tidy (tidy_of_moves_eq_nil rfl),
      fun t ht => ⟨hstep.place_lt ht, hstep.named ht⟩⟩
  · exact exists_runs ⟨css.toList, 0, []⟩
  · intro result last hrun
    obtain ⟨hresult, hleads, hlength⟩ := hrun.ends
    refine ⟨hresult, hleads.tidy (tidy_of_moves_eq_nil rfl), ?_, ?_⟩
    · have hlast := List.drop_eq_nil_iff.mp hleads.ahead
      rwa [hleads.chars, String.length_toList] at hlast
    · intro ts hts
      have := hlength ts hts
      rwa [ahead, List.drop_zero, String.length_toList] at this

/-- A string that is not closed in its line moves back over the line feed. -/
example : (⟨"\"a\n".toList, 0, []⟩ : Cursor).token.2.moves =
    [.rewind 1 2, .next 2 '\n', .next 1 'a', .next 0 '"'] := by
  decide +kernel

end StyleProbe.Css.Cursor
