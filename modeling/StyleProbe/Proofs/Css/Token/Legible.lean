import StyleProbe.Proofs.Css.Token.Scanners

/-!
# Texts that are read back

The text of a list of tokens is their texts in a row. Reading it gives the
tokens back where each of them is legible: its own text has nothing in it that
would need an escape, and what follows is not read with it. A run of
whitespace comes back as one token.

What follows matters to names, which go on with name characters and escapes
and become functions before a parenthesis, to numbers, which go on with digits,
exponents and units, and to single characters that start something longer.

Main statements: `scanned_of_legible` (one token) and `tokenizeChars_texts`
(a list).
-/

namespace StyleProbe.Css

/-! ## Legible tokens -/

/-- The texts of the tokens in a row. -/
def texts (ts : List Token) : List Char :=
  ts.flatMap fun t => t.text.toList

theorem texts_cons (t : Token) (ts : List Token) :
    texts (t :: ts) = t.text.toList ++ texts ts := List.flatMap_cons

theorem texts_nil : texts [] = [] := rfl

theorem texts_append (ts us : List Token) :
    texts (ts ++ us) = texts ts ++ texts us := List.flatMap_append

/-- The token is read back from its text where `after` follows. -/
def Token.legible (after : List Char) : Token → Bool
  | .ident name => isName name && endsName after && after.head? != some '('
  | .function name => isName name
  | .atKeyword name => isName name && endsName after
  | .hash name => isName name && endsName after
  | .string contents => contents.toList.all fun c => c != '"' && c != '\\'
  | .badString => false
  | .delim char =>
    !startsNumber (char :: after) && !startsName (char :: after) &&
      !(char == '#' && after.head?.any isNameChar) &&
      !(char == '@' && startsName after) &&
      !(char == '/' && after.head? == some '*')
  | .number value =>
    value.isFinite && !startsUnsigned after && !startsName after &&
      after.head? != some '%'
  | .percentage value => value.isFinite
  | .dimension value unit =>
    value.isFinite && isName unit && endsName after &&
      (takeExponent (unit.toList ++ after)).1.isEmpty
  | _ => true

namespace Token

variable {after : List Char} {name : String}

theorem legible_ident_iff : (ident name).legible after = true ↔
    isName name = true ∧ endsName after = true ∧
      after.head? ≠ some '(' := by
  show (isName name && endsName after && after.head? != some '(') = true ↔ _
  simp only [Bool.and_eq_true, bne_iff_ne, and_assoc]

theorem legible_atKeyword_iff : (atKeyword name).legible after = true ↔
    isName name = true ∧ endsName after = true := Bool.and_eq_true_iff

theorem legible_hash_iff : (hash name).legible after = true ↔
    isName name = true ∧ endsName after = true := Bool.and_eq_true_iff

theorem legible_string_iff {contents : String} :
    (string contents).legible after = true ↔
      ∀ c ∈ contents.toList, c ≠ '"' ∧ c ≠ '\\' := by
  show (contents.toList.all fun c => c != '"' && c != '\\') = true ↔ _
  simp only [List.all_eq_true, Bool.and_eq_true, bne_iff_ne]

theorem legible_delim_iff {char : Char} :
    (delim char).legible after = true ↔
      startsNumber (char :: after) = false ∧
      startsName (char :: after) = false ∧
      ¬ (char = '#' ∧ after.head?.any isNameChar = true) ∧
      ¬ (char = '@' ∧ startsName after = true) ∧
      ¬ (char = '/' ∧ after.head? = some '*') := by
  show (!startsNumber (char :: after) && !startsName (char :: after) &&
    !(char == '#' && after.head?.any isNameChar) &&
    !(char == '@' && startsName after) &&
    !(char == '/' && after.head? == some '*')) = true ↔ _
  simp only [← Bool.not_eq_true, Bool.and_eq_true, Bool.not_eq_true',
    beq_iff_eq, and_assoc]

theorem legible_number_iff {value : Binary32} :
    (number value).legible after = true ↔
      value.isFinite = true ∧ startsUnsigned after = false ∧
      startsName after = false ∧ after.head? ≠ some '%' := by
  show (value.isFinite && !startsUnsigned after && !startsName after &&
    after.head? != some '%') = true ↔ _
  simp only [Bool.and_eq_true, Bool.not_eq_true', bne_iff_ne, and_assoc]

theorem legible_dimension_iff {value : Binary32} :
    (dimension value name).legible after = true ↔
      value.isFinite = true ∧ isName name = true ∧ endsName after = true ∧
      (takeExponent (name.toList ++ after)).1 = [] := by
  show (value.isFinite && isName name && endsName after &&
    (takeExponent (name.toList ++ after)).1.isEmpty) = true ↔ _
  simp only [Bool.and_eq_true, List.isEmpty_iff, and_assoc]

end Token

/-- Each of the tokens is read back from its text where the others follow. -/
def legible : List Token → Bool
  | [] => true
  | t :: ts => t.legible (texts ts) && legible ts

/-- The tokens with each run of whitespace as one token. -/
def collapse : List Token → List Token
  | [] => []
  | t :: ts =>
    if t = .whitespace ∧ ts.head? = some .whitespace then collapse ts
    else t :: collapse ts

/-! ## One token -/

/-- The token is scanned where its text stands before `after`, and no comment
starts there. -/
def ScannedBefore (after : List Char) (t : Token) : Prop :=
  ∃ c rest, t.text.toList ++ after = c :: rest ∧ scan c rest = (t, after) ∧
    ∀ tail, c :: rest ≠ '/' :: '*' :: tail

section Scanned

variable {after : List Char}

theorem scanned_punctuation {c : Char} {t : Token}
    (h : punctuation? c = some t) (htext : t.text.toList = [c])
    (hslash : c ≠ '/') : ScannedBefore after t := by
  refine ⟨c, after, by rw [htext]; rfl, ?_, ?_⟩
  · unfold scan
    rw [h]
  · intro tail heq
    exact hslash (List.cons.inj heq).1

theorem scanned_nameLike {t : Token}
    (hname : startsName (t.text.toList ++ after) = true)
    (hscan : scanNameLike (t.text.toList ++ after) = (t, after)) :
    ScannedBefore after t := by
  cases htext : t.text.toList ++ after with
  | nil =>
    rw [htext] at hname
    cases hname
  | cons c rest =>
    rw [htext] at hname hscan
    refine ⟨c, rest, htext, (scan_of_startsName hname).trans hscan, ?_⟩
    intro tail heq
    cases heq
    cases hname

theorem scanned_numeric {t : Token}
    (hnumber : startsNumber (t.text.toList ++ after) = true)
    (hscan : scanNumeric (t.text.toList ++ after) = (t, after)) :
    ScannedBefore after t := by
  cases htext : t.text.toList ++ after with
  | nil =>
    rw [htext] at hnumber
    cases hnumber
  | cons c rest =>
    rw [htext] at hnumber hscan
    refine ⟨c, rest, htext, (scan_of_startsNumber hnumber).trans hscan, ?_⟩
    intro tail heq
    cases heq
    cases hnumber

theorem scanned_ident {name : String} (hstart : startsName name.toList = true)
    (h : (Token.ident name).legible after = true) :
    ScannedBefore after (.ident name) := by
  obtain ⟨hname, hafter, hcall⟩ := Token.legible_ident_iff.mp h
  apply scanned_nameLike
  · exact startsName_append hstart after
  · rw [Token.text, scanNameLike_name (takeName_text hname hafter) hcall,
      String.ofList_toList]

theorem scanned_function {name : String}
    (hstart : startsName name.toList = true)
    (h : (Token.function name).legible after = true) :
    ScannedBefore after (.function name) := by
  have htext : (Token.function name).text.toList ++ after =
      name.toList ++ '(' :: after := by
    simp [Token.text]
  have hends : endsName ('(' :: after) = true := endsName_cons rfl (by decide) _
  apply scanned_nameLike
  · rw [htext]
    exact startsName_append hstart _
  · rw [htext, scanNameLike, takeName_text h hends]
    simp

theorem scanned_atKeyword {name : String}
    (hstart : startsName name.toList = true)
    (h : (Token.atKeyword name).legible after = true) :
    ScannedBefore after (.atKeyword name) := by
  obtain ⟨hname, hafter⟩ := Token.legible_atKeyword_iff.mp h
  have hstart' := startsName_append hstart after
  refine ⟨'@', name.toList ++ after, by simp [Token.text], ?_, by simp⟩
  have hnumber : startsNumber ('@' :: (name.toList ++ after)) = false := rfl
  have hnone : startsName ('@' :: (name.toList ++ after)) = false := by
    rw [startsName_cons]
    rfl
  have hpunctuation : punctuation? '@' = none := rfl
  simp [scan, hpunctuation, isSpace, hnumber, hnone, hstart',
    takeName_text hname hafter]

theorem scanned_hash {name : String} (hne : name ≠ "")
    (h : (Token.hash name).legible after = true) :
    ScannedBefore after (.hash name) := by
  obtain ⟨hname, hafter⟩ := Token.legible_hash_iff.mp h
  have hfirst : (name.toList ++ after).head?.any isNameChar = true := by
    cases hchars : name.toList with
    | nil => exact absurd (String.toList_inj.mp hchars) hne
    | cons c rest =>
      have hall := List.all_eq_true.mp hname c (by simp [hchars])
      simp [hall]
  refine ⟨'#', name.toList ++ after, by simp [Token.text], ?_, by simp⟩
  have hnumber : startsNumber ('#' :: (name.toList ++ after)) = false := rfl
  have hnone : startsName ('#' :: (name.toList ++ after)) = false := by
    rw [startsName_cons]
    rfl
  have hpunctuation : punctuation? '#' = none := rfl
  have htaken := takeName_text hname hafter
  generalize name.toList ++ after = chars at *
  simp [scan, hpunctuation, isSpace, hnumber, hnone, hfirst, htaken]

theorem scanned_string {contents : String} (hline : '\n' ∉ contents.toList)
    (h : (Token.string contents).legible after = true) :
    ScannedBefore after (.string contents) := by
  have htaken :=
    takeString_text (Token.legible_string_iff.mp h) hline after
  have hpunctuation : punctuation? '"' = none := rfl
  refine ⟨'"', contents.toList ++ '"' :: after, by simp [Token.text], ?_,
    by simp⟩
  simp [scan, hpunctuation, isSpace, scanString, htaken]

theorem scanned_delim {char : Char} (hlexed : (Token.delim char).Lexed)
    (h : (Token.delim char).legible after = true) :
    ScannedBefore after (.delim char) := by
  obtain ⟨hpunctuation, hspace, hquote, hapostrophe, -, -⟩ := hlexed
  obtain ⟨hnumber, hname, hhash, hat, hcomment⟩ :=
    Token.legible_delim_iff.mp h
  refine ⟨char, after, by simp [Token.text], ?_, ?_⟩
  · unfold scan
    rw [hpunctuation]
    dsimp only
    rw [if_neg (by simp [hspace]), if_neg (not_or.mpr ⟨hquote, hapostrophe⟩),
      if_neg (by simp [hnumber]), if_neg (by simp [hname]), if_neg hhash,
      if_neg hat]
  · intro tail heq
    cases heq
    exact hcomment ⟨rfl, rfl⟩

theorem scanned_number {value : Binary32}
    (h : (Token.number value).legible after = true) :
    ScannedBefore after (.number value) := by
  obtain ⟨hfinite, hunsigned, hname, hpercent⟩ :=
    Token.legible_number_iff.mp h
  obtain ⟨htaken, hvalue⟩ := takeNumber_text hfinite hunsigned
    (takeExponent_of_not_startsName hname)
  apply scanned_numeric
  · exact startsNumber_text hfinite after
  · rw [Token.text, scanNumeric, htaken]
    dsimp only
    rw [hvalue, if_neg (by simp [hname])]
    split
    · exact absurd rfl hpercent
    · rfl

theorem scanned_percentage {value : Binary32}
    (h : (Token.percentage value).legible after = true) :
    ScannedBefore after (.percentage value) := by
  have htext : (Token.percentage value).text.toList ++ after =
      value.text.toList ++ '%' :: after := by
    simp [Token.text]
  have hunsigned : startsUnsigned ('%' :: after) = false := rfl
  obtain ⟨htaken, hvalue⟩ := takeNumber_text h hunsigned rfl
  apply scanned_numeric
  · rw [htext]
    exact startsNumber_text h _
  · rw [htext, scanNumeric, htaken]
    dsimp only
    rw [hvalue]
    rfl

theorem scanned_dimension {value : Binary32} {unit : String}
    (hstart : startsName unit.toList = true)
    (h : (Token.dimension value unit).legible after = true) :
    ScannedBefore after (.dimension value unit) := by
  obtain ⟨hfinite, hname, hafter, hexponent⟩ :=
    Token.legible_dimension_iff.mp h
  have htext : (Token.dimension value unit).text.toList ++ after =
      value.text.toList ++ (unit.toList ++ after) := by
    simp [Token.text]
  have hstart' := startsName_append hstart after
  obtain ⟨htaken, hvalue⟩ := takeNumber_text hfinite
    (startsUnsigned_of_startsName hstart') hexponent
  apply scanned_numeric
  · rw [htext]
    exact startsNumber_text hfinite _
  · rw [htext, scanNumeric, htaken]
    dsimp only
    rw [hvalue, if_pos hstart', takeName_text hname hafter,
      String.ofList_toList]

/-- **A legible token is scanned** from its own text, whatever follows in the
way it says; whitespace takes more than its own. -/
theorem scanned_of_legible {t : Token} (hlexed : t.Lexed)
    (h : t.legible after = true) (hspace : t ≠ .whitespace) :
    ScannedBefore after t := by
  cases t with
  | ident name => exact scanned_ident hlexed h
  | function name => exact scanned_function hlexed h
  | atKeyword name => exact scanned_atKeyword hlexed h
  | hash name => exact scanned_hash hlexed h
  | string contents => exact scanned_string hlexed h
  | badString => cases h
  | delim char => exact scanned_delim hlexed h
  | number value => exact scanned_number h
  | percentage value => exact scanned_percentage h
  | dimension value unit => exact scanned_dimension hlexed.2 h
  | whitespace => exact absurd rfl hspace
  | colon => exact scanned_punctuation (c := ':') rfl rfl (by decide)
  | semicolon => exact scanned_punctuation (c := ';') rfl rfl (by decide)
  | comma => exact scanned_punctuation (c := ',') rfl rfl (by decide)
  | opening bracket =>
    cases bracket with
    | round => exact scanned_punctuation (c := '(') rfl rfl (by decide)
    | square => exact scanned_punctuation (c := '[') rfl rfl (by decide)
    | curly => exact scanned_punctuation (c := '\x7b') rfl rfl (by decide)
  | closing bracket =>
    cases bracket with
    | round => exact scanned_punctuation (c := ')') rfl rfl (by decide)
    | square => exact scanned_punctuation (c := ']') rfl rfl (by decide)
    | curly => exact scanned_punctuation (c := '\x7d') rfl rfl (by decide)

end Scanned

/-! ## All tokens -/

/-- Whitespace takes up all the whitespace that follows. -/
theorem collapse_whitespace_cons (ts : List Token) :
    collapse (.whitespace :: ts) =
      .whitespace :: collapse (ts.dropWhile (· == .whitespace)) := by
  induction ts with
  | nil => rfl
  | cons t ts ih =>
    by_cases hspace : t = .whitespace
    · subst hspace
      rw [collapse, if_pos ⟨rfl, rfl⟩, ih]
      rfl
    · rw [collapse, if_neg (by simp [hspace])]
      simp [hspace]

theorem scan_isSpace {c : Char} (h : isSpace c = true) (rest : List Char) :
    scan c rest = (.whitespace, rest.dropWhile isSpace) := by
  simp only [isSpace, Bool.or_eq_true, beq_iff_eq] at h
  rcases h with (((rfl | rfl) | rfl) | rfl) | rfl <;> rfl

/-- **Legible tokens are read back** from their texts in a row, each run of
whitespace as one token; and so are they behind more whitespace. -/
theorem tokenizeChars_texts_and_behind {ts : List Token}
    (hlexed : ∀ t ∈ ts, t.Lexed) (h : legible ts = true) :
    tokenizeChars (texts ts) = .ok (collapse ts) ∧
      tokenizeChars ((texts ts).dropWhile isSpace) =
        .ok (collapse (ts.dropWhile (· == .whitespace))) := by
  -- Both at once, since whitespace is scanned together with what follows.
  induction ts with
  | nil =>
    have hempty : tokenizeChars [] = .ok [] := by rw [tokenizeChars]
    exact ⟨hempty, hempty⟩
  | cons t ts ih =>
    simp only [legible, Bool.and_eq_true] at h
    obtain ⟨hread, hbehind⟩ :=
      ih (fun u hu => hlexed u (List.mem_cons_of_mem t hu)) h.2
    by_cases hspace : t = .whitespace
    · subst hspace
      have htext : texts (.whitespace :: ts) = ' ' :: texts ts := texts_cons ..
      rw [htext]
      refine ⟨?_, hbehind⟩
      rw [tokenizeChars_cons (by simp), scan_isSpace (by rfl)]
      dsimp only
      rw [hbehind, collapse_whitespace_cons]
      rfl
    · obtain ⟨c, rest, htext, hscan, hcomment⟩ :=
        scanned_of_legible (hlexed t List.mem_cons_self) h.1 hspace
      have hc : isSpace c = false := by
        apply Bool.eq_false_iff.mpr
        intro hc
        rw [scan_isSpace hc] at hscan
        exact hspace (Prod.mk.inj hscan).1.symm
      have hsolid : tokenizeChars (c :: rest) = .ok (collapse (t :: ts)) := by
        rw [tokenizeChars_cons hcomment, hscan]
        dsimp only
        rw [hread, collapse, if_neg (by simp [hspace])]
        rfl
      rw [texts_cons, htext]
      simp [hc, hspace, hsolid]

/-- **Legible tokens are read back** from their texts in a row, each run of
whitespace as one token. -/
theorem tokenizeChars_texts {ts : List Token} (hlexed : ∀ t ∈ ts, t.Lexed)
    (h : legible ts = true) :
    tokenizeChars (texts ts) = .ok (collapse ts) :=
  (tokenizeChars_texts_and_behind hlexed h).1

end StyleProbe.Css
