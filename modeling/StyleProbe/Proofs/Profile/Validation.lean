import Mathlib.Data.List.Induction
import StyleProbe.Proofs.Profile.Declared
import StyleProbe.Proofs.Profile.Recognition
import StyleProbe.Proofs.Text.ByteOrder

/-!
# What is checked in a source

A source is turned down for a blank title, or else for the first of its
entries that offends: one with a blank name, one that accepts nothing, or one
whose normal name an entry before it has. What offends depends on the entries
before, so the invariant of the loop is that the table has the normal names
of the entries that were added; the rest follows from one step.

Main statement: `Profile.ofSource_validates`.
-/

namespace StyleProbe

/-! ## Names and grammars -/

/-- Whether a text has nothing but blanks. -/
def Text.Blank (s : String) : Prop :=
  ∀ c ∈ s.toList, Text.isBlank c = true

theorem Text.blank_iff {s : String} : Text.trim s = "" ↔ Text.Blank s :=
  Text.trim_eq_empty_iff

theorem normalName_eq_empty_iff {name : String} :
    normalName name = "" ↔ Text.Blank name := by
  have hlower : ∀ s : String, Text.lowerAscii s = "" ↔ s = "" := by
    intro s
    rw [← String.toList_inj, ← String.toList_inj, Text.toList_lowerAscii]
    exact List.map_eq_nil_iff
  rw [normalName, hlower, Text.blank_iff]

theorem Text.isUpper_of_mem_lowerAscii {s : String} {c : Char}
    (h : c ∈ (lowerAscii s).toList) : c.isUpper = false := by
  rw [toList_lowerAscii, List.mem_map] at h
  obtain ⟨d, -, rfl⟩ := h
  refine Bool.eq_false_iff.mpr fun hupper => ?_
  rw [isUpper_iff_toNat, toNat_toLower] at hupper
  split at hupper <;> omega

namespace PropertyEntry

/-- Whether an entry lists nothing that the property accepts. -/
def AcceptsNothing (entry : PropertyEntry) : Prop :=
  entry.keywords = [] ∧ entry.functions = [] ∧ entry.types = []

theorem isEmpty_grammar_iff {entry : PropertyEntry} :
    entry.grammar.isEmpty = true ↔ entry.AcceptsNothing := by
  simp [grammar, Grammar.ofLists, Grammar.isEmpty, AcceptsNothing, and_assoc]

/-- What is wrong with an entry after others. A blank name comes first, then
empty lists, then a name that was declared before. -/
inductive Offends (before : List PropertyEntry) (entry : PropertyEntry) :
    PropertyTable.Refusal → Prop
  | unnamed (hblank : Text.Blank entry.name) : Offends before entry .unnamed
  | acceptsNothing (hnamed : ¬ Text.Blank entry.name)
      (hnothing : entry.AcceptsNothing) :
      Offends before entry .acceptsNothing
  | alreadyDeclared (hnamed : ¬ Text.Blank entry.name)
      (hsome : ¬ entry.AcceptsNothing)
      (hdeclared : normalName entry.name ∈
        before.map fun earlier => normalName earlier.name) :
      Offends before entry .alreadyDeclared

/-- Whether no entry of a list offends after those before it. -/
def AllFit (entries : List PropertyEntry) : Prop :=
  ∀ before entry after, entries = before ++ entry :: after →
    ∀ cause, ¬ Offends before entry cause

theorem fit_iff {before : List PropertyEntry} {entry : PropertyEntry} :
    (∀ cause, ¬ Offends before entry cause) ↔
      ¬ Text.Blank entry.name ∧ ¬ entry.AcceptsNothing ∧
        normalName entry.name ∉
          before.map fun earlier => normalName earlier.name := by
  constructor
  · intro hfit
    have hnamed := fun hblank => hfit _ (.unnamed hblank)
    have hsome := fun hnothing => hfit _ (.acceptsNothing hnamed hnothing)
    exact ⟨hnamed, hsome, fun h => hfit _ (.alreadyDeclared hnamed hsome h)⟩
  · rintro ⟨hnamed, hsome, hnew⟩ cause hoffends
    cases hoffends with
    | unnamed hblank => exact hnamed hblank
    | acceptsNothing _ hnothing => exact hsome hnothing
    | alreadyDeclared _ _ hdeclared => exact hnew hdeclared

theorem allFit_concat_iff {entries : List PropertyEntry}
    {entry : PropertyEntry} :
    AllFit (entries ++ [entry]) ↔
      AllFit entries ∧ ∀ cause, ¬ Offends entries entry cause := by
  constructor
  · intro hfit
    refine ⟨?_, hfit entries entry [] rfl⟩
    rintro before other after rfl
    exact hfit before other (after ++ [entry]) (by simp)
  · rintro ⟨hentries, hentry⟩ before other after hsplit
    rcases List.eq_nil_or_concat after with rfl | ⟨after, last, rfl⟩
    · obtain ⟨rfl, hother⟩ := List.append_inj' hsplit rfl
      cases hother
      exact hentry
    · rw [List.concat_eq_append, ← List.cons_append, ← List.append_assoc]
        at hsplit
      obtain ⟨rfl, -⟩ := List.append_inj' hsplit rfl
      exact hentries before other after rfl

/-- All entries are fit when all have names, all list something and the
normal names are distinct. -/
theorem allFit_iff {entries : List PropertyEntry} :
    AllFit entries ↔
      (∀ entry ∈ entries, ¬ Text.Blank entry.name) ∧
        (∀ entry ∈ entries, ¬ entry.AcceptsNothing) ∧
        (entries.map fun entry => normalName entry.name).Nodup := by
  induction entries using List.reverseRecOn with
  | nil => simp [AllFit]
  | append_singleton entries entry ih =>
    rw [allFit_concat_iff, ih, fit_iff, List.map_append, List.map_singleton,
      (List.perm_append_singleton _ _).nodup_iff, List.nodup_cons]
    simp only [List.forall_mem_append, List.forall_mem_singleton]
    constructor
    · rintro ⟨⟨hnamed, hsome, hnew⟩, hname, hlists, hother⟩
      exact ⟨⟨hnamed, hname⟩, ⟨hsome, hlists⟩, hother, hnew⟩
    · rintro ⟨⟨hnamed, hname⟩, ⟨hsome, hlists⟩, hother, hnew⟩
      exact ⟨⟨hnamed, hsome, hnew⟩, hname, hlists, hother⟩

end PropertyEntry

/-! ## One step -/

namespace PropertyTable

theorem mem_names_iff {table : PropertyTable} {name : String} :
    name ∈ table.names ↔ ∃ grammar, table.grammar? name = some grammar := by
  have hnone : table.grammar? name = none ↔ name ∉ table.names :=
    table.grammar?_eq_none_iff
  cases hgrammar : table.grammar? name with
  | none => simpa using hnone.mp hgrammar
  | some grammar =>
    rw [hgrammar] at hnone
    simpa using hnone

/-- The three refusals, each with what was not refused before it. -/
theorem insert?_eq_error_iff {table : PropertyTable} {name : String}
    {grammar : Grammar} {cause : Refusal} :
    table.insert? name grammar = .error cause ↔
      normalName name = "" ∧ cause = .unnamed ∨
      normalName name ≠ "" ∧ grammar.isEmpty = true ∧
        cause = .acceptsNothing ∨
      normalName name ≠ "" ∧ ¬ grammar.isEmpty = true ∧
        normalName name ∈ table.names ∧ cause = .alreadyDeclared := by
  unfold insert?
  by_cases hname : normalName name = ""
  · grind
  by_cases hgrammar : grammar.isEmpty = true
  · grind
  by_cases hnew : normalName name ∈ table.names
  · grind
  · grind

end PropertyTable

namespace Profile

variable {title : String} {table : PropertyTable}
  {before : List PropertyEntry} {entry : PropertyEntry}

/-- Whether the names of a table are the normal names of the entries. -/
def HasNamesOf (table : PropertyTable) (entries : List PropertyEntry) : Prop :=
  ∀ name, name ∈ table.names ↔
    name ∈ entries.map fun entry => normalName entry.name

/-- **The refusal of an entry**: it offends after the entries whose names the
table has, and the error names it. -/
theorem addEntry_eq_error_iff (hnames : HasNamesOf table before)
    {error : ProfileError} :
    addEntry title table entry = .error error ↔
      ∃ cause, entry.Offends before cause ∧
        error = .refused title (normalName entry.name) cause := by
  have hrefused : ∀ cause, table.insert? entry.name entry.grammar =
      .error cause ↔ entry.Offends before cause := by
    intro cause
    rw [PropertyTable.insert?_eq_error_iff, ne_eq, normalName_eq_empty_iff,
      PropertyEntry.isEmpty_grammar_iff, hnames]
    constructor
    · rintro (⟨hblank, rfl⟩ | ⟨hnamed, hnothing, rfl⟩ |
        ⟨hnamed, hsome, hdeclared, rfl⟩)
      · exact .unnamed hblank
      · exact .acceptsNothing hnamed hnothing
      · exact .alreadyDeclared hnamed hsome hdeclared
    · rintro (hblank | ⟨hnamed, hnothing⟩ | ⟨hnamed, hsome, hdeclared⟩)
      · exact .inl ⟨hblank, rfl⟩
      · exact .inr (.inl ⟨hnamed, hnothing, rfl⟩)
      · exact .inr (.inr ⟨hnamed, hsome, hdeclared, rfl⟩)
  simp only [← hrefused, PropertyEntry.grammar, addEntry]
  split <;> simp [*, eq_comm]

/-- Entries that were added have left their names. -/
theorem hasNamesOf_of_addEntries
    (h : addEntries title .empty before = .ok table) :
    HasNamesOf table before := by
  intro name
  have hempty : ∀ grammar, PropertyTable.empty.grammar? name ≠ some grammar :=
    nofun
  simp only [PropertyTable.mem_names_iff, grammar?_of_addEntries h, hempty,
    or_false, List.mem_map]
  constructor
  · rintro ⟨_, earlier, hearlier, hname, -⟩
    exact ⟨earlier, hearlier, hname⟩
  · rintro ⟨earlier, hearlier, hname⟩
    exact ⟨_, earlier, hearlier, hname, rfl⟩

/-! ## The whole list -/

theorem addEntries_append {after : List PropertyEntry} :
    addEntries title table (before ++ after) =
      addEntries title table before >>= (addEntries title · after) := by
  induction before generalizing table with
  | nil => rfl
  | cons first rest ih =>
    rw [List.cons_append, addEntries, addEntries]
    cases addEntry title table first with
    | error e => rfl
    | ok next => exact ih

theorem addEntries_concat :
    addEntries title table (before ++ [entry]) =
      addEntries title table before >>= (addEntry title · entry) := by
  rw [addEntries_append]
  refine congrArg _ (funext fun next => ?_)
  unfold addEntries
  cases addEntry title next entry with
  | error e => rfl
  | ok last => rfl

/-- Entries are added exactly when none of them offends. -/
theorem exists_addEntries_iff {entries : List PropertyEntry} :
    (∃ table, addEntries title .empty entries = .ok table) ↔
      PropertyEntry.AllFit entries := by
  induction entries using List.reverseRecOn with
  | nil => simp [addEntries, PropertyEntry.AllFit]
  | append_singleton entries entry ih =>
    rw [PropertyEntry.allFit_concat_iff, ← ih, addEntries_concat]
    cases hentries : addEntries title .empty entries with
    | error e => simp [bind, Except.bind]
    | ok table =>
      have herror : ∀ error, addEntry title table entry = .error error ↔ _ :=
        fun error => addEntry_eq_error_iff (hasNamesOf_of_addEntries hentries)
      cases hentry : addEntry title table entry with
      | error e =>
        obtain ⟨cause, hoffends, -⟩ := (herror e).mp hentry
        simpa [bind, Except.bind, hentry] using ⟨cause, hoffends⟩
      | ok next =>
        have hfit : ∀ cause, ¬ entry.Offends entries cause := by
          intro cause hoffends
          have := (herror _).mpr ⟨cause, hoffends, rfl⟩
          rw [hentry] at this
          cases this
        simpa [bind, Except.bind, hentry] using hfit

/-- **The entry that ends the loop** is the first one that offends. -/
theorem addEntries_eq_error_iff {entries : List PropertyEntry}
    {error : ProfileError} :
    addEntries title .empty entries = .error error ↔
      ∃ before entry after cause, entries = before ++ entry :: after ∧
        PropertyEntry.AllFit before ∧ entry.Offends before cause ∧
        error = .refused title (normalName entry.name) cause := by
  constructor
  · intro herror
    induction entries using List.reverseRecOn with
    | nil => cases herror
    | append_singleton entries entry ih =>
      rw [addEntries_concat] at herror
      cases hentries : addEntries title .empty entries with
      | error e =>
        simp only [hentries, bind, Except.bind, Except.error.injEq] at herror
        subst herror
        obtain ⟨before, other, after, cause, rfl, hoffends⟩ := ih hentries
        exact ⟨before, other, after ++ [entry], cause, by simp, hoffends⟩
      | ok table =>
        simp only [hentries, bind, Except.bind] at herror
        obtain ⟨cause, hoffends, hcause⟩ :=
          (addEntry_eq_error_iff (hasNamesOf_of_addEntries hentries)).mp herror
        exact ⟨entries, entry, [], cause, rfl,
          exists_addEntries_iff.mp ⟨table, hentries⟩, hoffends, hcause⟩
  · rintro ⟨before, entry, after, cause, rfl, hbefore, hoffends, rfl⟩
    obtain ⟨table, htable⟩ : ∃ table, addEntries title .empty before =
        .ok table := exists_addEntries_iff.mpr hbefore
    have hentry : addEntry title table entry = .error _ :=
      (addEntry_eq_error_iff (hasNamesOf_of_addEntries htable)).mpr
        ⟨cause, hoffends, rfl⟩
    simp only [addEntries_append, htable, addEntries, hentry, bind,
      Except.bind]

end Profile

/-! ## Sources -/

namespace ProfileSource

/-- What a source must be like: every name is there, every entry accepts
something and the normal names are distinct. -/
structure Valid (source : ProfileSource) : Prop where
  titled : ¬ Text.Blank source.name
  named : ∀ entry ∈ source.properties, ¬ Text.Blank entry.name
  accepting : ∀ entry ∈ source.properties, ¬ entry.AcceptsNothing
  distinct :
    (source.properties.map fun entry => normalName entry.name).Nodup

theorem valid_iff {source : ProfileSource} :
    source.Valid ↔
      ¬ Text.Blank source.name ∧ PropertyEntry.AllFit source.properties := by
  rw [PropertyEntry.allFit_iff]
  constructor
  · intro h
    exact ⟨h.titled, h.named, h.accepting, h.distinct⟩
  · rintro ⟨htitled, hnamed, haccepting, hdistinct⟩
    exact ⟨htitled, hnamed, haccepting, hdistinct⟩

/-- The error of a source: for its blank title, or else for the first of its
entries that offends. -/
inductive RefusedWith (source : ProfileSource) : ProfileError → Prop
  | untitled (hblank : Text.Blank source.name) : RefusedWith source .unnamed
  | entry {before after : List PropertyEntry} {entry : PropertyEntry}
      {cause : PropertyTable.Refusal} (htitled : ¬ Text.Blank source.name)
      (hsplit : source.properties = before ++ entry :: after)
      (hbefore : PropertyEntry.AllFit before)
      (hoffends : entry.Offends before cause) :
      RefusedWith source
        (.refused (Text.trim source.name) (normalName entry.name) cause)

end ProfileSource

namespace Profile

/-- What a profile has from its source: its properties are the normal names
in byte order, each with a grammar that is not empty and has no capitals, and
its keys are their style keys. -/
structure Describes (profile : Profile) (source : ProfileSource) : Prop where
  title : profile.name = Text.trim source.name
  description : profile.description = source.description
  declared : ∀ property, property ∈ profile.properties ↔
    ∃ entry ∈ source.properties, normalName entry.name = property
  ordered : profile.properties.Pairwise
    fun earlier later => Text.bytes earlier < Text.bytes later
  grammars : ∀ entry ∈ source.properties,
    profile.table.grammar? (normalName entry.name) = some entry.grammar
  inhabited : ∀ property ∈ profile.properties, ∃ grammar,
    profile.table.grammar? property = some grammar ∧
      grammar.isEmpty = false ∧
      ∀ word ∈ grammar.keywords ++ grammar.functions,
        ∀ c ∈ word.toList, c.isUpper = false
  keys : ∀ key, profile.recognizes key = true ↔
    ∃ property ∈ profile.properties, styleKey property = key

theorem ofSource_of_blank {source : ProfileSource}
    (h : Text.Blank source.name) : ofSource source = .error .unnamed := by
  rw [ofSource, if_pos (Text.blank_iff.mpr h)]

theorem ofSource_of_titled {source : ProfileSource}
    (h : ¬ Text.Blank source.name) :
    ofSource source =
      (addEntries (Text.trim source.name) .empty source.properties).map
        (ofTable (Text.trim source.name) source.description) := by
  rw [ofSource, if_neg (Text.blank_iff.not.mpr h)]
  cases addEntries (Text.trim source.name) .empty source.properties with
  | error e => rfl
  | ok table => rfl

theorem ofSource_eq_ok_iff {source : ProfileSource} {profile : Profile} :
    ofSource source = .ok profile ↔
      ¬ Text.Blank source.name ∧ profile.name = Text.trim source.name ∧
        profile.description = source.description ∧
        addEntries (Text.trim source.name) .empty source.properties =
          .ok profile.table := by
  by_cases hblank : Text.Blank source.name
  · simp [ofSource_of_blank hblank, hblank]
  rw [ofSource_of_titled hblank]
  cases addEntries (Text.trim source.name) .empty source.properties with
  | error e => simp [Except.map]
  | ok table =>
    simp only [Except.map, Except.ok.injEq, hblank, not_false_eq_true, true_and]
    constructor
    · rintro rfl
      exact ⟨rfl, rfl, rfl⟩
    · rintro ⟨htitle, hdescription, rfl⟩
      rw [← htitle, ← hdescription, ofTable_table]

theorem ofSource_eq_error_iff {source : ProfileSource} {error : ProfileError} :
    ofSource source = .error error ↔ source.RefusedWith error := by
  by_cases hblank : Text.Blank source.name
  · rw [ofSource_of_blank hblank]
    constructor
    · rintro ⟨⟩
      exact .untitled hblank
    · rintro (- | ⟨htitled, -, -, -⟩)
      · rfl
      · exact absurd hblank htitled
  · have hmap : ofSource source = .error error ↔
        addEntries (Text.trim source.name) .empty source.properties =
          .error error := by
      rw [ofSource_of_titled hblank]
      cases addEntries (Text.trim source.name) .empty source.properties <;>
        simp [Except.map]
    rw [hmap, addEntries_eq_error_iff]
    constructor
    · rintro ⟨before, entry, after, cause, hsplit, hbefore, hoffends, rfl⟩
      exact .entry hblank hsplit hbefore hoffends
    · rintro (htitle | ⟨-, hsplit, hbefore, hoffends⟩)
      · exact absurd htitle hblank
      · exact ⟨_, _, _, _, hsplit, hbefore, hoffends, rfl⟩

/-- The profile that is made from a source describes it. -/
theorem describes_of_ofSource {source : ProfileSource} {profile : Profile}
    (h : ofSource source = .ok profile) : profile.Describes source := by
  obtain ⟨-, htitle, hdescription, hentries⟩ := ofSource_eq_ok_iff.mp h
  have hgrammar : ∀ entry ∈ source.properties,
      profile.table.grammar? (normalName entry.name) = some entry.grammar :=
    fun entry hentry =>
      (grammar?_eq_some_iff_of_source h).mpr ⟨entry, hentry, rfl, rfl⟩
  have hdeclared : ∀ property, property ∈ profile.properties ↔
      ∃ entry ∈ source.properties, normalName entry.name = property := by
    intro property
    rw [properties, hasNamesOf_of_addEntries hentries, List.mem_map]
  refine ⟨htitle, hdescription, hdeclared, ?_, hgrammar, ?_,
    fun key => recognizes_iff⟩
  · refine List.pairwise_map.mpr (profile.table.sorted.imp ?_)
    exact fun hlt => Text.lt_iff_bytes_lt.mp hlt
  · intro property hproperty
    obtain ⟨entry, hentry, rfl⟩ := (hdeclared property).mp hproperty
    have hfiled := mem_of_lookup_eq_some (hgrammar entry hentry)
    refine ⟨_, hgrammar entry hentry, profile.table.inhabited _ hfiled, ?_⟩
    -- Both lists are lowered when the grammar is made.
    intro word hword c hc
    rw [PropertyEntry.grammar, Grammar.ofLists, ← List.map_append,
      List.mem_map] at hword
    obtain ⟨written, -, rfl⟩ := hword
    exact Text.isUpper_of_mem_lowerAscii hc

/-- **A source is checked exactly**: it makes a profile when it is valid, it
is turned down with the error of its title or of its first offending entry,
and the profile that is made describes it. -/
theorem ofSource_validates (source : ProfileSource) :
    ((∃ profile, ofSource source = .ok profile) ↔ source.Valid) ∧
      (∀ error, ofSource source = .error error ↔ source.RefusedWith error) ∧
      ∀ profile, ofSource source = .ok profile → profile.Describes source := by
  refine ⟨?_, fun error => ofSource_eq_error_iff,
    fun profile => describes_of_ofSource⟩
  have hadded : (∃ table, addEntries (Text.trim source.name) .empty
      source.properties = .ok table) ↔
      PropertyEntry.AllFit source.properties := exists_addEntries_iff
  rw [ProfileSource.valid_iff, ← hadded]
  constructor
  · rintro ⟨profile, hprofile⟩
    obtain ⟨htitled, -, -, hentries⟩ := ofSource_eq_ok_iff.mp hprofile
    exact ⟨htitled, _, hentries⟩
  · rintro ⟨htitled, table, hentries⟩
    exact ⟨ofTable _ _ table,
      ofSource_eq_ok_iff.mpr ⟨htitled, rfl, rfl, hentries⟩⟩

/-- Two properties as an author might write them. -/
def looseSource : ProfileSource where
  name := " loose "
  properties := [
    { name := "Transition", types := [.any] },
    { name := " -O-Größe", keywords := ["AUTO"], functions := ["Calc"] }]

/-- They make a profile that has them in order. -/
theorem ofSource_validates_loose :
    ∃ profile, ofSource looseSource = .ok profile ∧ looseSource.Valid ∧
      profile.Describes looseSource ∧
      profile.properties = ["-o-größe", "transition"] := by
  obtain ⟨profile, hprofile, hproperties⟩ :
      ∃ profile, ofSource looseSource = .ok profile ∧
        profile.properties = ["-o-größe", "transition"] := by
    refine ⟨_, rfl, by decide +kernel⟩
  obtain ⟨hvalid, -, hdescribes⟩ := ofSource_validates looseSource
  exact ⟨profile, hprofile, hvalid.mp ⟨profile, hprofile⟩,
    hdescribes profile hprofile, hproperties⟩

end Profile

end StyleProbe
