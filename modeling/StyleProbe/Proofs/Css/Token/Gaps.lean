import StyleProbe.Proofs.Css.Token.Comment
import StyleProbe.Proofs.Css.Token.Legible
import StyleProbe.Trim

/-!
# Whitespace next to whitespace

A whitespace token takes all the whitespace there is, so two of them stand
next to each other only where a comment stood between them. Each is written as
a space of its own: tokens are written like the same tokens with each run of
whitespace as one exactly when no two whitespace tokens are neighbours.

Main statements: `texts_collapse_eq_iff` and `no_double_gap_of_tokenizeChars`.
-/

namespace StyleProbe.Css

/-- Two whitespace tokens stand next to each other. -/
def HasDoubleGap (ts : List Token) : Prop :=
  [.whitespace, .whitespace] <:+: ts

instance (ts : List Token) : Decidable (HasDoubleGap ts) :=
  inferInstanceAs (Decidable (_ <:+: _))

/-! ## Writing -/

theorem double_gap_prefix_iff {t : Token} {ts : List Token} :
    [.whitespace, .whitespace] <+: t :: ts ↔
      t = .whitespace ∧ ts.head? = some .whitespace := by
  cases ts with
  | nil => simp
  | cons u ts => simp [List.cons_prefix_cons, eq_comm]

theorem hasDoubleGap_cons {t : Token} {ts : List Token} :
    HasDoubleGap (t :: ts) ↔
      (t = .whitespace ∧ ts.head? = some .whitespace) ∨ HasDoubleGap ts := by
  rw [HasDoubleGap, List.infix_cons_iff, double_gap_prefix_iff, HasDoubleGap]

/-- Neighbours of a joined list are neighbours in one of the parts, or stand at
the joint. -/
theorem hasDoubleGap_append {ts us : List Token} :
    HasDoubleGap (ts ++ us) ↔ HasDoubleGap ts ∨ HasDoubleGap us ∨
      (ts.getLast? = some .whitespace ∧ us.head? = some .whitespace) := by
  induction ts with
  | nil => simp [HasDoubleGap]
  | cons t ts ih =>
    rw [List.cons_append, hasDoubleGap_cons, hasDoubleGap_cons, or_assoc]
    cases ts with
    | nil => simp [HasDoubleGap, or_comm]
    | cons u ts =>
      rw [List.getLast?_cons_cons]
      exact or_congr_right ih

theorem collapse_sublist (ts : List Token) : (collapse ts).Sublist ts := by
  fun_induction collapse ts with
  | case1 => exact List.Sublist.refl _
  | case2 t ts _ ih => exact ih.cons t
  | case3 t ts _ ih => exact ih.cons_cons t

/-- Each whitespace token that is left out was written as a space. -/
theorem length_texts_collapse (ts : List Token) :
    (texts (collapse ts)).length + ts.length =
      (texts ts).length + (collapse ts).length := by
  fun_induction collapse ts with
  | case1 => rfl
  | case2 t ts hgap ih =>
    rw [texts_cons, hgap.1]
    simp [Token.text]
    omega
  | case3 t ts _ ih =>
    rw [texts_cons, texts_cons]
    simp
    omega

theorem collapse_eq_self_iff {ts : List Token} :
    collapse ts = ts ↔ ¬ HasDoubleGap ts := by
  induction ts with
  | nil => simp [collapse, HasDoubleGap]
  | cons t ts ih =>
    rw [hasDoubleGap_cons, not_or, ← ih, collapse]
    split
    · rename_i hgap
      have hlength := (collapse_sublist ts).length_le
      refine iff_of_false (fun heq => ?_) fun h => h.1 hgap
      rw [heq, List.length_cons] at hlength
      omega
    · rename_i hgap
      rw [List.cons.injEq, and_iff_right rfl, and_iff_right hgap]

/-- Tokens are collapsed apart where no run of whitespace goes on from one part
to the other. -/
theorem collapse_append {ts us : List Token}
    (h : ts.getLast? = some .whitespace → us.head? ≠ some .whitespace) :
    collapse (ts ++ us) = collapse ts ++ collapse us := by
  induction ts with
  | nil => rfl
  | cons t ts ih =>
    cases ts with
    | nil =>
      have hlone : collapse [t] = [t] := by simp [collapse]
      rw [List.singleton_append, collapse, if_neg, hlone,
        List.singleton_append]
      rintro ⟨rfl, hfirst⟩
      exact h rfl hfirst
    | cons u ts =>
      have htail := ih fun hlast => h (List.getLast?_cons_cons.trans hlast)
      have hfirst : (u :: ts ++ us).head? = (u :: ts).head? := rfl
      rw [List.cons_append, collapse, htail, hfirst,
        collapse.eq_2 t (u :: ts)]
      split <;> rfl

/-- **Tokens are written like the collapsed ones** exactly when no two
whitespace tokens are neighbours. -/
theorem texts_collapse_eq_iff {ts : List Token} :
    texts (collapse ts) = texts ts ↔ ¬ HasDoubleGap ts := by
  rw [← collapse_eq_self_iff]
  refine ⟨fun h => ?_, fun h => by rw [h]⟩
  have hlength := length_texts_collapse ts
  rw [h] at hlength
  exact (collapse_sublist ts).eq_of_length (by omega)

/-! ## Reading -/

theorem isSpace_of_scan {c : Char} {rest : List Char}
    (h : (scan c rest).1 = .whitespace) : isSpace c = true := by
  apply Classical.byContradiction
  intro hspace
  unfold scan at h
  split at h
  · rename_i hpunctuation
    unfold punctuation? at hpunctuation
    split at hpunctuation <;> simp_all
  rw [if_neg hspace] at h
  split at h
  · unfold scanString at h
    split at h <;> cases h
  split at h
  · unfold scanNumeric at h
    dsimp only at h
    split at h
    · cases h
    split at h <;> cases h
  split at h
  · unfold scanNameLike at h
    split at h <;> cases h
  split at h
  · cases h
  split at h <;> cases h

/-- A slash and an asterisk stand right behind whitespace, as they do where a
comment separates it from what follows. -/
def HasGapBeforeComment (cs : List Char) : Prop :=
  ∃ s, isSpace s = true ∧ [s, '/', '*'] <:+: cs

theorem HasGapBeforeComment.of_suffix {cs cs' : List Char} (hsuffix : cs' <:+ cs)
    (h : HasGapBeforeComment cs') : HasGapBeforeComment cs := by
  obtain ⟨s, hs, hinfix⟩ := h
  exact ⟨s, hs, hinfix.trans hsuffix.isInfix⟩

theorem hasGapBeforeComment_append {c : Char} {run : List Char}
    (hrun : ∀ s ∈ c :: run, isSpace s = true) (after : List Char) :
    HasGapBeforeComment (c :: run ++ '/' :: '*' :: after) := by
  obtain ⟨front, s, heq⟩ :=
    (List.eq_nil_or_concat (c :: run)).resolve_left (List.cons_ne_nil c run)
  rw [heq] at hrun ⊢
  exact ⟨s, hrun s (by simp), front, after, by simp⟩

theorem head?_ne_whitespace {c : Char} {rest : List Char} {ts : List Token}
    (hc : isSpace c = true) (h : ¬ HasGapBeforeComment (c :: rest))
    (hts : tokenizeChars (rest.dropWhile isSpace) = .ok ts) :
    ts.head? ≠ some .whitespace := by
  have hsplit := List.takeWhile_append_dropWhile (p := isSpace) (l := rest)
  have hfirst := head?_dropWhile_eq_false isSpace rest
  cases hleft : rest.dropWhile isSpace with
  | nil =>
    rw [hleft, tokenizeChars] at hts
    cases hts
    simp
  | cons d left =>
    rw [hleft] at hts hsplit hfirst
    have hcomment : ∀ after, d :: left ≠ '/' :: '*' :: after := by
      intro after heq
      rw [← hsplit, heq] at h
      refine h (hasGapBeforeComment_append ?_ after)
      exact List.forall_mem_cons.mpr
        ⟨hc, List.all_eq_true.mp List.all_takeWhile⟩
    rw [tokenizeChars_cons hcomment] at hts
    obtain ⟨tail, -, rfl⟩ := exists_of_map_cons_eq_ok hts
    intro hhead
    have hspace := isSpace_of_scan (Option.some.inj hhead)
    rw [hfirst d rfl] at hspace
    cases hspace

/-- **No two whitespace tokens are neighbours** in a text that has no comment
right behind whitespace. -/
theorem no_double_gap_of_tokenizeChars {cs : List Char} {ts : List Token}
    (h : tokenizeChars cs = .ok ts) :
    ¬ HasGapBeforeComment cs → ¬ HasDoubleGap ts := by
  refine tokenized_induction
    (P := fun cs ts => ¬ HasGapBeforeComment cs → ¬ HasDoubleGap ts)
    ?_ ?_ ?_ h
  · simp [HasDoubleGap]
  · intro rest after ts hafter ih hgap
    obtain ⟨body, rfl, -⟩ := afterComment?_eq_some_iff.mp hafter
    refine ih fun h => hgap (h.of_suffix ?_)
    exact ⟨'/' :: '*' :: (body ++ ['*', '/']), by simp⟩
  · intro c rest ts _ hts ih hgap
    rw [hasDoubleGap_cons, not_or]
    constructor
    · rintro ⟨hwhitespace, hhead⟩
      have hc := isSpace_of_scan hwhitespace
      rw [scan_isSpace hc] at hts
      exact head?_ne_whitespace hc hgap hts hhead
    · refine ih fun h => hgap (h.of_suffix ?_)
      exact suffix_cons_of_suffix (scan_suffix c rest) c

end StyleProbe.Css
