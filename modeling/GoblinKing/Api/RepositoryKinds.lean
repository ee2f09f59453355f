import GoblinKing.Kubernetes.Names

/-!
# Kinds of repository versions

A version of a repository entry has a kind that is made of the project, the name of the entry
and the number of the version. The name and the number can be read back from the kind. Of the
project only its words are left: the runs of alphanumeric characters in lower case.
-/

namespace GoblinKing

open Labels

/-- A version of an entry of a project. -/
structure VersionIdentity where
  projectId : Option Id
  name : GoblinKind
  version : ℕ
  deriving DecidableEq

/-- The kind of a version of an entry. -/
def VersionIdentity.kind (settings : ApiSettings) (identity : VersionIdentity) : String :=
  repositoryVersionKind settings identity.projectId identity.name.text identity.version

/-- The project of which a kind is made, in lower case. -/
def loweredProject (settings : ApiSettings) (projectId : Option Id) : List Char :=
  (settings.lower ((truthy projectId).getD "global")).toList

/-- The words of a project: the runs of alphanumeric characters in lower case. -/
def projectWords (settings : ApiSettings) (projectId : Option Id) : List (List Char) :=
  let found := ((loweredProject settings projectId).splitOnP (fun c => !settings.isalnum c)).filter
    (fun word => !word.isEmpty)
  if found.isEmpty then ["global".toList] else found

/-- The words of the project and the name of a version are those of a kind: the alphanumeric
characters of the project are ASCII characters, and no newline follows the name. -/
def VersionIdentity.Plain (settings : ApiSettings) (identity : VersionIdentity) : Prop :=
  (∀ c ∈ loweredProject settings identity.projectId,
      settings.isalnum c = true → isKindChar c = true)
    ∧ identity.name.text.toList.getLast? ≠ some '\n'

instance (settings : ApiSettings) (identity : VersionIdentity) :
    Decidable (identity.Plain settings) :=
  @instDecidableAnd _ _ (List.decidableBAll _ _) inferInstance

/-- Two versions differ in the words of their projects, in their names or in their numbers. -/
def VersionIdentity.ToldApart (settings : ApiSettings) (a b : VersionIdentity) : Prop :=
  projectWords settings a.projectId ≠ projectWords settings b.projectId
    ∨ a.name.text ≠ b.name.text ∨ a.version ≠ b.version

instance VersionIdentity.decidableToldApart (settings : ApiSettings) (a b : VersionIdentity) :
    Decidable (a.ToldApart settings b) :=
  inferInstanceAs (Decidable (_ ∨ _))

/-! ### Projects -/

/-- The words of a project in the code: what is not alphanumeric is read as a dash. -/
theorem words_lowered {settings : ApiSettings} (hascii : settings.AsciiText)
    (projectId : Option Id) :
  words '-' ((loweredProject settings projectId).map
      (fun c => if settings.isalnum c then c else '-'))
    = ((loweredProject settings projectId).splitOnP (fun c => !settings.isalnum c)).filter
      (fun word => !word.isEmpty)
  := by
  have hdash : (fun c => decide ((if settings.isalnum c then c else '-') = '-'))
      = fun c => !settings.isalnum c := by
    funext c
    cases hc : settings.isalnum c with
    | false => simp
    | true =>
        have hne : c ≠ '-' := by
          rintro rfl
          rw [hascii.isalnum '-' (by decide)] at hc
          cases hc
        simp [hne]
  rw [words, splitOn_map, hdash]
  congr 1
  conv_rhs => rw [← List.map_id (List.splitOnP _ _)]
  apply List.map_congr_left
  intro word hword
  conv_rhs => rw [id, ← List.map_id word]
  apply List.map_congr_left
  intro c hc
  have halnum := (of_mem_splitOnP hword hc).1
  rw [Bool.not_eq_false'] at halnum
  rw [if_pos halnum, id]

/-- The part of a kind that stands for the project is made of its words. -/
theorem toList_repositoryKindPart {settings : ApiSettings} (hascii : settings.AsciiText)
    (projectId : Option Id) :
  (repositoryKindPart settings projectId).toList
    = ['-'].intercalate (projectWords settings projectId)
  := by
  have hwords := words_lowered hascii projectId
  have hcollapse : ∀ chars : List Char, collapseDashes chars = collapse '-' chars :=
    fun _ => rfl
  unfold projectWords
  rw [← hwords]
  simp only [repositoryKindPart, hcollapse]
  change (if (collapse '-' ((loweredProject settings projectId).map _)).isEmpty then _
    else _ : String).toList = _
  by_cases hnil : words '-' ((loweredProject settings projectId).map
      (fun c => if settings.isalnum c then c else '-')) = []
  · rw [collapse, hnil, List.intercalate_nil, if_pos List.isEmpty_nil, if_pos List.isEmpty_nil,
      List.intercalate_singleton]
  · have hne := (tidy_collapse hnil).ne_nil
    rw [if_neg (by simpa using hne), if_neg (by simpa using hnil), String.toList_ofList]
    rfl

/-- A word of a project is a run of alphanumeric characters of the project, or `global`. -/
theorem mem_projectWords {settings : ApiSettings} {projectId : Option Id} {word : List Char}
    (h : word ∈ projectWords settings projectId) :
  word = "global".toList ∨ (word ≠ [] ∧ ∀ c ∈ word, settings.isalnum c = true
    ∧ c ∈ loweredProject settings projectId)
  := by
  unfold projectWords at h
  dsimp only at h
  split at h
  · exact .inl (List.mem_singleton.mp h)
  · right
    obtain ⟨hpiece, hne⟩ := List.mem_filter.mp h
    use by simpa using hne
    intro c hc
    obtain ⟨halnum, hmem⟩ := of_mem_splitOnP hpiece hc
    use by simpa using halnum, hmem

/-- A word of a project has neither dots nor dashes. -/
theorem not_mem_projectWords {settings : ApiSettings} (hascii : settings.AsciiText)
    {projectId : Option Id} {word : List Char} (h : word ∈ projectWords settings projectId) :
  '-' ∉ word ∧ '.' ∉ word
  := by
  rcases mem_projectWords h with rfl | ⟨-, hchars⟩
  · decide
  · constructor
    · intro hc
      have halnum := (hchars '-' hc).1
      rw [hascii.isalnum '-' (by decide)] at halnum
      cases halnum
    · intro hc
      have halnum := (hchars '.' hc).1
      rw [hascii.isalnum '.' (by decide)] at halnum
      cases halnum

/-- A project has a word. -/
theorem projectWords_ne_nil (settings : ApiSettings) (projectId : Option Id) :
  projectWords settings projectId ≠ []
  := by
  unfold projectWords
  dsimp only
  split
  · apply List.cons_ne_nil
  case isFalse h => simpa using h

/-- The words of a project are read back from the part of a kind. -/
theorem splitOn_repositoryKindPart {settings : ApiSettings} (hascii : settings.AsciiText)
    (projectId : Option Id) :
  (repositoryKindPart settings projectId).toList.splitOn '-' = projectWords settings projectId
  := by
  rw [toList_repositoryKindPart hascii]
  apply List.splitOn_intercalate '-' _ (projectWords_ne_nil settings projectId)
  intro word hword
  apply (not_mem_projectWords hascii hword).1

/-- The part of a kind that stands for the project has no dots. -/
theorem dot_not_mem_repositoryKindPart {settings : ApiSettings} (hascii : settings.AsciiText)
    (projectId : Option Id) :
  '.' ∉ (repositoryKindPart settings projectId).toList
  := by
  rw [toList_repositoryKindPart hascii]
  intro hdot
  rcases mem_intercalate _ hdot with hdash | ⟨word, hword, hmem⟩
  · revert hdash
    decide
  · apply (not_mem_projectWords hascii hword).2 hmem

/-! ### Reading a kind -/

/-- The kind of a version, in its parts. -/
theorem VersionIdentity.toList_kind (settings : ApiSettings) (identity : VersionIdentity) :
  (identity.kind settings).toList
    = "repository".toList ++ '.' :: ((repositoryKindPart settings identity.projectId).toList
      ++ '.' :: (identity.name.text.toList ++ '.' :: ('v' :: Nat.toDigits 10 identity.version)))
  := by
  rw [kind, repositoryVersionKind, repositoryEntryKind]
  simp [String.toList_append, Nat.toString_eq_repr]

/-- The number of a version has neither dots nor dashes, and consists of digits. -/
theorem version_chars (version : ℕ) :
  ∀ c ∈ 'v' :: Nat.toDigits 10 version, isKindChar c = true
  := by
  intro c hc
  rcases List.mem_cons.mp hc with rfl | hc
  · decide
  · rw [isKindChar, Nat.isDigit_of_mem_toDigits (by decide) (by decide) hc, Bool.or_true]

/-- The words of the project, the name and the number are read back from a kind. -/
theorem kind_eq_iff {settings : ApiSettings} (hascii : settings.AsciiText)
    {a b : VersionIdentity} :
  a.kind settings = b.kind settings
    ↔ projectWords settings a.projectId = projectWords settings b.projectId
      ∧ a.name.text = b.name.text ∧ a.version = b.version
  := by
  constructor
  · intro h
    have hchars := congrArg String.toList h
    rw [a.toList_kind, b.toList_kind] at hchars
    have hrest := List.tail_eq_of_cons_eq (List.append_cancel_left hchars)
    obtain ⟨hpart, hrest⟩ := append_cons_inj_first
      (dot_not_mem_repositoryKindPart hascii a.projectId)
      (dot_not_mem_repositoryKindPart hascii b.projectId) hrest
    have hdot : ∀ version : ℕ, '.' ∉ 'v' :: Nat.toDigits 10 version := by
      intro version hmem
      have hkind := version_chars version '.' hmem
      revert hkind
      decide
    obtain ⟨hname, hversion⟩ := append_cons_inj_last (hdot a.version) (hdot b.version) hrest
    refine ⟨?_, String.toList_inj.mp hname, ?_⟩
    · rw [← splitOn_repositoryKindPart hascii, ← splitOn_repositoryKindPart hascii, hpart]
    · rw [← Nat.ofDigitChars_ten_toDigits (n := a.version),
        ← Nat.ofDigitChars_ten_toDigits (n := b.version), List.tail_eq_of_cons_eq hversion]
  · rintro ⟨hwords, hname, hversion⟩
    rw [← String.toList_inj, a.toList_kind, b.toList_kind, toList_repositoryKindPart hascii,
      toList_repositoryKindPart hascii, hwords, hname, hversion]

/-! ### The pattern of kinds -/

/-- The segments of a text are words of lower case letters and digits. -/
def kindSegments (chars : List Char) : Bool :=
  (chars.splitOnP (fun c => c = '.' || c = '-')).all
    (fun segment => !segment.isEmpty && segment.all isKindChar)

/-- The segments on both sides of a dot. -/
theorem kindSegments_append (a b : List Char) :
  kindSegments (a ++ '.' :: b) = (kindSegments a && kindSegments b)
  := by
  rw [kindSegments, List.splitOnP_append_cons _ _ (by decide), List.all_append]
  rfl

/-- A text that does not end with a newline matches the pattern when its segments are words. -/
theorem matchesKindPattern_eq {text : String} (h : text.toList.getLast? ≠ some '\n') :
  matchesKindPattern text = kindSegments text.toList
  := by
  simp only [matchesKindPattern, if_neg h]
  rfl

/-- The characters of a text whose segments are words. -/
theorem kindSegments_chars {chars : List Char} (h : kindSegments chars = true) :
  ∀ c ∈ chars, (c = '.' || c = '-') = true ∨ isKindChar c = true
  := by
  intro c hc
  rcases mem_splitOnP (p := fun c => c = '.' || c = '-') hc with hsep | ⟨piece, hpiece, hmem⟩
  · exact .inl hsep
  · right
    have hword := List.all_eq_true.mp h piece hpiece
    rw [Bool.and_eq_true, List.all_eq_true] at hword
    apply hword.2 c hmem

/-- The name of a version has words for segments when no newline follows it. -/
theorem kindSegments_name (name : GoblinKind) :
  kindSegments name.text.toList = true ↔ name.text.toList.getLast? ≠ some '\n'
  := by
  constructor
  · intro h hlast
    have hmem := List.mem_of_getLast? hlast
    rcases kindSegments_chars h '\n' hmem with hc | hc
    · revert hc
      decide
    · revert hc
      decide
  · intro h
    rw [← matchesKindPattern_eq h]
    apply name.accepted

/-- The part of a kind that stands for the project has words for segments when the
alphanumeric characters of the project are ASCII characters. -/
theorem kindSegments_project {settings : ApiSettings} (hascii : settings.AsciiText)
    (projectId : Option Id) :
  kindSegments (repositoryKindPart settings projectId).toList = true
    ↔ ∀ c ∈ loweredProject settings projectId, settings.isalnum c = true → isKindChar c = true
  := by
  have hsplit := splitOn_repositoryKindPart hascii projectId
  constructor
  · intro h c hc halnum
    -- the character is one of a word, and so of the part
    have hmem : c ∈ (repositoryKindPart settings projectId).toList := by
      rcases mem_splitOnP (p := fun c => !settings.isalnum c) hc with hnot | ⟨word, hword, hmem⟩
      · rw [halnum] at hnot
        cases hnot
      · have hpiece : word ∈ projectWords settings projectId := by
          have hfound : word ∈ ((loweredProject settings projectId).splitOnP
              (fun c => !settings.isalnum c)).filter (fun word => !word.isEmpty) := by
            apply List.mem_filter.mpr
            use hword
            simpa using List.ne_nil_of_mem hmem
          unfold projectWords
          dsimp only
          rw [if_neg]
          · apply hfound
          · simpa using List.ne_nil_of_mem hfound
        rw [← hsplit, List.splitOn_eq_splitOnP] at hpiece
        apply (of_mem_splitOnP hpiece hmem).2
    rcases kindSegments_chars h c hmem with hsep | hkind
    · -- neither separator is alphanumeric
      simp only [Bool.or_eq_true, decide_eq_true_eq] at hsep
      rcases hsep with rfl | rfl
      · rw [hascii.isalnum '.' (by decide)] at halnum
        cases halnum
      · rw [hascii.isalnum '-' (by decide)] at halnum
        cases halnum
    · apply hkind
  · intro h
    have hsame : ∀ c ∈ (repositoryKindPart settings projectId).toList,
        (decide (c = '.') || decide (c = '-')) = (c == '-') := by
      intro c hc
      have hdot : c ≠ '.' := by
        rintro rfl
        apply dot_not_mem_repositoryKindPart hascii projectId hc
      rw [decide_eq_false hdot, Bool.false_or]
      rfl
    rw [kindSegments, splitOnP_congr hsame, ← List.splitOn_eq_splitOnP, hsplit, List.all_eq_true]
    intro word hword
    rcases mem_projectWords hword with rfl | ⟨hne, hchars⟩
    · decide
    · rw [Bool.and_eq_true, List.all_eq_true]
      use by simpa using hne
      intro c hc
      obtain ⟨halnum, hmem⟩ := hchars c hc
      apply h c hmem halnum

/-- The kind of a version matches the pattern when the version is plain. -/
theorem matchesKindPattern_kind {settings : ApiSettings} (hascii : settings.AsciiText)
    (identity : VersionIdentity) :
  matchesKindPattern (identity.kind settings) = true ↔ identity.Plain settings
  := by
  have hversion : kindSegments ('v' :: Nat.toDigits 10 identity.version) = true := by
    rw [kindSegments, List.splitOnP_eq_singleton, List.all_cons, List.all_nil, Bool.and_true,
      Bool.and_eq_true, List.all_eq_true]
    · exact ⟨rfl, version_chars identity.version⟩
    · intro c hc
      have hkind := isKindChar_spec (version_chars identity.version c hc)
      have hdot : c ≠ '.' := by
        rintro rfl
        exact absurd hkind.2.1 (by decide)
      simp [hdot, hkind.2.2.2]
  have hlast : (identity.kind settings).toList.getLast? ≠ some '\n' := by
    intro h
    have hmem : '\n' ∈ 'v' :: Nat.toDigits 10 identity.version := by
      have hsplit : (identity.kind settings).toList = ("repository".toList
          ++ '.' :: ((repositoryKindPart settings identity.projectId).toList
            ++ '.' :: (identity.name.text.toList ++ ['.'])))
          ++ 'v' :: Nat.toDigits 10 identity.version := by
        rw [identity.toList_kind]
        simp
      rw [hsplit, List.getLast?_append, List.getLast?_eq_some_getLast (List.cons_ne_nil _ _),
        Option.some_or, Option.some.injEq] at h
      rw [← h]
      apply List.getLast_mem
    exact absurd (version_chars identity.version _ hmem) (by decide)
  have hfront : kindSegments "repository".toList = true := by decide
  rw [matchesKindPattern_eq hlast, identity.toList_kind, kindSegments_append, kindSegments_append,
    kindSegments_append, hversion, hfront, Bool.true_and, Bool.and_true, Bool.and_eq_true,
    kindSegments_project hascii, kindSegments_name]
  rfl

/-- The kinds of two versions differ and match the pattern of kinds when the versions are told
apart and both are plain, and only then. -/
theorem repositoryKinds_unambiguous {settings : ApiSettings} (hascii : settings.AsciiText)
    (a b : VersionIdentity) :
  (a.kind settings ≠ b.kind settings
    ∧ matchesKindPattern (a.kind settings) = true ∧ matchesKindPattern (b.kind settings) = true)
  ↔ a.ToldApart settings b ∧ a.Plain settings ∧ b.Plain settings
  := by
  rw [matchesKindPattern_kind hascii, matchesKindPattern_kind hascii, ne_eq, kind_eq_iff hascii,
    VersionIdentity.ToldApart, not_and_or, not_and_or]

/-- The first version of an entry of a project. -/
def firstReport : VersionIdentity :=
  ⟨some "team-a", ⟨"report", by decide⟩, 1⟩

/-- The second version of the entry. -/
def secondReport : VersionIdentity :=
  ⟨some "team-a", ⟨"report", by decide⟩, 2⟩

/-- The kinds of two versions of an entry differ and match the pattern of kinds. -/
theorem kinds_of_reports :
  firstReport.kind asciiSettings ≠ secondReport.kind asciiSettings
    ∧ matchesKindPattern (firstReport.kind asciiSettings) = true
    ∧ matchesKindPattern (secondReport.kind asciiSettings) = true
  := by
  apply (repositoryKinds_unambiguous asciiText_asciiSettings firstReport secondReport).mpr
  decide

/-- The first version of an entry of another project, under the same name. -/
def otherReport : VersionIdentity :=
  ⟨some "Team A", ⟨"report", by decide⟩, 1⟩

/-- Two versions of entries of different projects have one kind. -/
theorem kinds_of_two_projects :
  firstReport ≠ otherReport ∧ firstReport.kind asciiSettings = otherReport.kind asciiSettings
  := by
  use by decide
  apply (kind_eq_iff asciiText_asciiSettings).mpr
  decide

end GoblinKing
