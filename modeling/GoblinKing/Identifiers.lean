import GoblinKing.Api.Repository
import GoblinKing.Library.Labels
import GoblinKing.Library.Regex
import Mathlib.Data.List.DropRight

/-!
# Identifiers and placement labels

The validators of kinds and names, and of the keys and values of placement labels. Their patterns are
matched between `^` and `$`, and a dollar sign matches in front of a newline at the end as well. Each of
them accepts the texts of its grammar, and some texts of the grammar with newlines in them.
-/

namespace GoblinKing

open Labels Regex

/-! ### Kinds and names -/

/-- A character that separates two groups of an identifier. -/
def isSeparatorChar (c : Char) : Bool :=
  c = '.' || c = '-'

/-- `GOBLIN_KIND_PATTERN` between its anchors -/
def goblinKindPattern : Regex Char :=
  .seq (.cls isKindChar) (.seq (.many (.cls isKindChar))
    (.many (.seq (.cls isSeparatorChar) (.seq (.cls isKindChar) (.many (.cls isKindChar))))))

/-- The validator of an identifier, which returns what it accepts. -/
def validateIdentifier (message value : String) : Except String String :=
  if goblinKindPattern.matchesLine '\n' value.toList then .ok value else .error message

/-- `GoblinDefinition.validate_kind` -/
def GoblinDefinition.validateKind : String → Except String String :=
  validateIdentifier "kind must use lowercase letters, digits, dots, or dashes"

/-- `NotebookGoblinRecord.validate_kind` -/
def NotebookGoblinRecord.validateKind : String → Except String String :=
  validateIdentifier "kind must use lowercase letters, digits, dots, or dashes"

/-- `NotebookServiceRecord.validate_kind` -/
def NotebookServiceRecord.validateKind : String → Except String String :=
  validateIdentifier "kind must use lowercase letters, digits, dots, or dashes"

/-- `RepositoryEntryRecord.validate_identifier`, of the name and of the kind -/
def RepositoryEntryRecord.validateIdentifier : String → Except String String :=
  GoblinKing.validateIdentifier "value must use lowercase letters, digits, dots, or dashes"

/-- `RepositoryVersionRecord.validate_kind` -/
def RepositoryVersionRecord.validateKind : String → Except String String :=
  validateIdentifier "kind must use lowercase letters, digits, dots, or dashes"

/-- `RepositorySubmitRequest.validate_name` -/
def RepositorySubmitRequest.validateName : String → Except String String :=
  validateIdentifier "name must use lowercase letters, digits, dots, or dashes"

/-- `DirectoryBundleManifest.validate_name` -/
def DirectoryBundleManifest.validateName : String → Except String String :=
  validateIdentifier "name must use lowercase letters, digits, dots, or dashes"

/-- The validators of kinds and names. -/
def identifierValidators : List (String → Except String String) :=
  [GoblinDefinition.validateKind, NotebookGoblinRecord.validateKind,
    NotebookServiceRecord.validateKind, RepositoryEntryRecord.validateIdentifier,
    RepositoryVersionRecord.validateKind, RepositorySubmitRequest.validateName,
    DirectoryBundleManifest.validateName]

/-! ### Placement labels -/

/-- A letter or a digit, as `[A-Za-z0-9]` has them. -/
def isLabelEnd (c : Char) : Bool :=
  c.isAlphanum

/-- `[A-Za-z0-9_.-]` -/
def isLabelChar (c : Char) : Bool :=
  c.isAlphanum || c = '_' || c = '.' || c = '-'

/-- `[a-z0-9-]` -/
def isDnsChar (c : Char) : Bool :=
  isKindChar c || c = '-'

/-- A pattern of one to 63 characters, with those at the ends in a class of their own. -/
def labelPattern (outer inner : Char → Bool) : Regex Char :=
  .seq (.cls outer) (.opt (.seq (.upTo 61 (.cls inner)) (.cls outer)))

/-- `_LABEL_NAME_RE` between its anchors -/
def labelNamePattern : Regex Char :=
  labelPattern isLabelEnd isLabelChar

/-- `_DNS_LABEL_RE` between its anchors -/
def dnsLabelPattern : Regex Char :=
  labelPattern isKindChar isDnsChar

/-- The text in front of the last slash, and the text behind it. -/
def rsplitSlash (chars : List Char) : List Char × List Char :=
  ((chars.rdropWhile (· ≠ '/')).dropLast, chars.rtakeWhile (· ≠ '/'))

/-- The check of the name in a label key, with the `repr` of the key. -/
def validateLabelName (shown : String) (name : List Char) : Except String Unit :=
  raiseIf (decide (63 < name.length) || !labelNamePattern.matchesLine '\n' name)
    ("invalid placement label key name: " ++ shown)

/-- `_validate_label_key` -/
def validateLabelKey (repr : String → String) (value : String) : Except String Unit := do
  raiseIf (decide (value = "")) "placement label keys must not be empty"
  if '/' ∈ value.toList then
    let (domain, name) := rsplitSlash value.toList
    raiseIf (domain.isEmpty || name.isEmpty || domain.contains '/')
      ("invalid placement label key: " ++ repr value)
    raiseIf (decide (253 < domain.length))
      ("placement label key prefix is too long: " ++ repr value)
    raiseIf ((domain.splitOn '.').any
        (fun part => part.isEmpty || !dnsLabelPattern.matchesLine '\n' part))
      ("invalid placement label key prefix: " ++ repr value)
    validateLabelName (repr value) name
  else
    validateLabelName (repr value) value.toList

/-- `_validate_label_value` -/
def validateLabelValue (repr : String → String) (value : String) : Except String Unit := do
  raiseIf (decide (value = "")) "placement label values must not be empty"
  raiseIf (decide (63 < value.toList.length) || !labelNamePattern.matchesLine '\n' value.toList)
    ("invalid placement label value: " ++ repr value)

/-! ### Grammars -/

/-- A group of an identifier: lower case letters and digits, at least one. -/
def IsGroup (chars : List Char) : Prop :=
  chars ≠ [] ∧ ∀ c ∈ chars, isKindChar c = true

/-- Groups, with one dot or dash between two of them. -/
def IsIdentifier (chars : List Char) : Prop :=
  ∃ group, ∃ rest : List (Char × List Char), IsGroup group
    ∧ (∀ part ∈ rest, isSeparatorChar part.1 = true ∧ IsGroup part.2)
    ∧ chars = group ++ rest.flatMap (fun part => part.1 :: part.2)

/-- One to 63 characters, with those at the ends in a class of their own. -/
structure IsLabel (outer inner : Char → Bool) (chars : List Char) : Prop where
  nonempty : chars ≠ []
  short : chars.length ≤ 63
  inside : ∀ c ∈ chars, inner c = true
  first : ∀ c ∈ chars.head?, outer c = true
  last : ∀ c ∈ chars.getLast?, outer c = true

/-- The name of a label, or its value. -/
abbrev IsLabelName : List Char → Prop :=
  IsLabel isLabelEnd isLabelChar

/-- A label of a DNS subdomain. -/
abbrev IsDnsLabel : List Char → Prop :=
  IsLabel isKindChar isDnsChar

/-- A name, and perhaps a subdomain of at most 253 characters and a slash in front of it. -/
def IsKey (IsName IsPart : List Char → Prop) (chars : List Char) : Prop :=
  IsName chars ∨ ∃ domain name, chars = domain ++ '/' :: name ∧ domain.length ≤ 253
    ∧ (∀ part ∈ domain.splitOn '.', IsPart part) ∧ IsName name

/-- The key of a label. -/
abbrev IsLabelKey : List Char → Prop :=
  IsKey IsLabelName IsDnsLabel

/-- A validator accepts a text exactly when a grammar has it, and nothing but letters, digits and
the characters of the grammars that are no whitespace. -/
def AcceptsExactly (Accepted : Prop) (Grammar : List Char → Prop) (chars : List Char) : Prop :=
  (Accepted ↔ Grammar chars) ∧ (Accepted → ∀ c ∈ chars, isLabelChar c = true ∨ c = '/')

/-- A name of at most 63 characters, perhaps with a newline behind it that is one of them. -/
def IsNameLine (chars : List Char) : Prop :=
  Line '\n' IsLabelName chars ∧ chars.length ≤ 63

/-! ### Patterns and grammars -/

/-- Classes of characters have no newline in them. -/
theorem isLabelChar_of_isKindChar {c : Char} (h : isKindChar c = true) :
  isLabelChar c = true
  := by
  have halphanum : c.isAlphanum = ((c.isUpper || c.isLower) || c.isDigit) := rfl
  rw [isKindChar, Bool.or_eq_true] at h
  rw [isLabelChar, halphanum]
  rcases h with h | h <;> simp [h]

/-- A text whose characters are in a class without newlines has no newline. -/
theorem newline_notMem {p : Char → Bool} (hp : p '\n' = false) {chars : List Char}
    (h : ∀ c ∈ chars, p c = true) :
  '\n' ∉ chars
  := by
  intro hmem
  have hnewline := h _ hmem
  rw [hp] at hnewline
  cases hnewline

/-- A group is a character, and any number of characters. -/
theorem mem_group_language {w : List Char} :
  w ∈ (seq (cls isKindChar) (many (cls isKindChar))).language ↔ IsGroup w
  := by
  rw [mem_language_seq]
  constructor
  · rintro ⟨_, ⟨c, hc, rfl⟩, v, hv, rfl⟩
    constructor
    · simp
    · exact List.forall_mem_cons.mpr ⟨hc, mem_language_many_cls.mp hv⟩
  · rintro ⟨hne, hall⟩
    cases w with
    | nil => exact absurd rfl hne
    | cons c w =>
        obtain ⟨hc, hall⟩ := List.forall_mem_cons.mp hall
        use [c], ⟨c, hc, rfl⟩, w, mem_language_many_cls.mpr hall
        rfl

/-- What follows the first group: separators with groups behind them. -/
theorem mem_groups_language {w : List Char} :
  w ∈ (many (seq (cls isSeparatorChar) (seq (cls isKindChar) (many (cls isKindChar))))).language
    ↔ ∃ rest : List (Char × List Char),
      (∀ part ∈ rest, isSeparatorChar part.1 = true ∧ IsGroup part.2)
      ∧ w = rest.flatMap (fun part => part.1 :: part.2)
  := by
  rw [language, Language.mem_kstar]
  constructor
  · rintro ⟨pieces, rfl, hpieces⟩
    induction pieces with
    | nil =>
        use []
        simp
    | cons piece pieces ih =>
        obtain ⟨hpiece, hpieces⟩ := List.forall_mem_cons.mp hpieces
        obtain ⟨rest, hrest, heq⟩ := ih hpieces
        obtain ⟨_, ⟨c, hc, rfl⟩, group, hgroup, rfl⟩ := mem_language_seq.mp hpiece
        use (c, group) :: rest
        constructor
        · exact List.forall_mem_cons.mpr ⟨⟨hc, mem_group_language.mp hgroup⟩, hrest⟩
        · rw [List.flatten_cons, heq, List.flatMap_cons]
          rfl
  · rintro ⟨rest, hrest, rfl⟩
    use rest.map (fun part => part.1 :: part.2)
    constructor
    · rw [List.flatMap_def]
    · intro piece hpiece
      obtain ⟨part, hpart, rfl⟩ := List.mem_map.mp hpiece
      obtain ⟨hseparator, hgroup⟩ := hrest part hpart
      apply mem_language_seq.mpr
      use [part.1], ⟨part.1, hseparator, rfl⟩, part.2, mem_group_language.mpr hgroup
      rfl

/-- The pattern of kinds and names describes identifiers. -/
theorem mem_goblinKindPattern {w : List Char} :
  w ∈ goblinKindPattern.language ↔ IsIdentifier w
  := by
  rw [goblinKindPattern, mem_language_seq]
  constructor
  · rintro ⟨u, hu, v, hv, rfl⟩
    obtain ⟨front, hfront, back, hback, rfl⟩ := mem_language_seq.mp hv
    obtain ⟨rest, hrest, rfl⟩ := mem_groups_language.mp hback
    use u ++ front, rest
    constructor
    · exact mem_group_language.mp (mem_language_seq.mpr ⟨u, hu, front, hfront, rfl⟩)
    · use hrest
      rw [List.append_assoc]
  · rintro ⟨group, rest, hgroup, hrest, rfl⟩
    obtain ⟨u, hu, front, hfront, rfl⟩ := mem_language_seq.mp (mem_group_language.mpr hgroup)
    use u, hu, front ++ rest.flatMap (fun part => part.1 :: part.2)
    constructor
    · apply mem_language_seq.mpr
      use front, hfront, rest.flatMap (fun part => part.1 :: part.2)
      use mem_groups_language.mpr ⟨rest, hrest, rfl⟩
    · rw [List.append_assoc]

/-- The pattern of a label describes one to 63 characters, with those at the ends in a class of their
own. -/
theorem mem_labelPattern {outer inner : Char → Bool} (h : ∀ c, outer c = true → inner c = true)
    {w : List Char} :
  w ∈ (labelPattern outer inner).language ↔ IsLabel outer inner w
  := by
  rw [labelPattern, mem_language_seq]
  constructor
  · rintro ⟨_, ⟨c, hc, rfl⟩, v, hv, rfl⟩
    rcases mem_language_opt.mp hv with rfl | hv
    · constructor <;> simp [hc, h c hc]
    · obtain ⟨middle, hmiddle, _, ⟨d, hd, rfl⟩, rfl⟩ := mem_language_seq.mp hv
      obtain ⟨hlength, hinside⟩ := mem_language_upTo_cls.mp hmiddle
      constructor
      · simp
      · simp only [List.length_append, List.length_cons, List.length_nil]
        omega
      · intro e he
        simp only [List.mem_append, List.mem_cons, List.not_mem_nil, or_false] at he
        rcases he with rfl | he | rfl
        · exact h e hc
        · exact hinside e he
        · exact h e hd
      · simp [hc]
      · intro e he
        rw [← List.append_assoc, List.getLast?_concat] at he
        obtain rfl := Option.some.inj he
        exact hd
  · intro hw
    cases w with
    | nil => exact absurd rfl hw.nonempty
    | cons c v =>
        use [c], ⟨c, hw.first c rfl, rfl⟩, v
        constructor
        · apply mem_language_opt.mpr
          rcases List.eq_nil_or_concat' v with rfl | ⟨middle, d, rfl⟩
          · exact .inl rfl
          · right
            have hshort := hw.short
            apply mem_language_seq.mpr
            use middle
            constructor
            · apply mem_language_upTo_cls.mpr
              constructor
              · simp only [List.length_append, List.length_cons, List.length_nil] at hshort
                omega
              · intro e he
                apply hw.inside e
                simp [he]
            · use [d]
              constructor
              · use d, hw.last d (by rw [← List.cons_append, List.getLast?_concat]; rfl)
              · rfl
        · rfl

/-- The pattern of kinds and names accepts identifiers, perhaps with a newline behind them. -/
theorem validateIdentifier_eq_ok {message value : String} :
  validateIdentifier message value = .ok value ↔ Line '\n' IsIdentifier value.toList
  := by
  have hpattern : goblinKindPattern.matchesLine '\n' value.toList = true
      ↔ Line '\n' IsIdentifier value.toList :=
    matchesLine_iff.trans (Line.congr (fun _ => mem_goblinKindPattern))
  rw [← hpattern, validateIdentifier]
  split
  case isTrue h => exact iff_of_true rfl h
  case isFalse h => exact iff_of_false (by simp) h

theorem isLabelChar_of_isLabelEnd (c : Char) (h : isLabelEnd c = true) :
  isLabelChar c = true
  := by
  rw [isLabelEnd] at h
  simp [isLabelChar, h]

theorem isDnsChar_of_isKindChar (c : Char) (h : isKindChar c = true) :
  isDnsChar c = true
  := by
  simp [isDnsChar, h]

/-- The name pattern accepts label names, perhaps with a newline behind them. -/
theorem matchesLine_labelNamePattern {chars : List Char} :
  labelNamePattern.matchesLine '\n' chars = true ↔ Line '\n' IsLabelName chars
  := matchesLine_iff.trans (Line.congr (fun _ => mem_labelPattern isLabelChar_of_isLabelEnd))

theorem matchesLine_dnsLabelPattern {chars : List Char} :
  dnsLabelPattern.matchesLine '\n' chars = true ↔ Line '\n' IsDnsLabel chars
  := matchesLine_iff.trans (Line.congr (fun _ => mem_labelPattern isDnsChar_of_isKindChar))

/-! ### Label keys -/

/-- A line of a label has no slash in it, when its label has none. -/
theorem slash_notMem_of_line {outer inner : Char → Bool} (hslash : inner '/' = false)
    {chars : List Char} (h : Line '\n' (IsLabel outer inner) chars) :
  '/' ∉ chars
  := by
  intro hmem
  have hinside : ∀ w, IsLabel outer inner w → '/' ∉ w := by
    intro w hw hmem
    have hnot := hw.inside _ hmem
    rw [hslash] at hnot
    cases hnot
  rcases h with h | ⟨w, hw, rfl⟩
  · exact hinside _ h hmem
  · rcases List.mem_append.mp hmem with hmem | hmem
    · exact hinside w hw hmem
    · exact absurd (List.mem_singleton.mp hmem) (by decide)

/-- A line of a label is not empty. -/
theorem ne_nil_of_line {outer inner : Char → Bool} {chars : List Char}
    (h : Line '\n' (IsLabel outer inner) chars) :
  chars ≠ []
  := by
  rcases h with h | ⟨w, -, rfl⟩
  · exact h.nonempty
  · simp

/-- A text is taken apart at its last slash. -/
theorem rsplitSlash_append (domain : List Char) {name : List Char} (h : '/' ∉ name) :
  rsplitSlash (domain ++ '/' :: name) = (domain, name)
  := by
  have hname : ∀ c ∈ name.reverse, decide (c ≠ '/') = true := by
    intro c hc
    apply decide_eq_true
    rintro rfl
    exact h (List.mem_reverse.mp hc)
  rw [rsplitSlash, List.rdropWhile, List.rtakeWhile, List.reverse_append, List.reverse_cons,
    List.append_assoc, List.dropWhile_append_of_pos hname, List.takeWhile_append_of_pos hname]
  simp

/-- A text with a slash has a last one. -/
theorem exists_last_slash {chars : List Char} (h : '/' ∈ chars) :
  ∃ domain name, chars = domain ++ '/' :: name ∧ '/' ∉ name
  := by
  obtain ⟨back, front, heq, hback⟩ := List.eq_append_cons_of_mem (List.mem_reverse.mpr h)
  use front.reverse, back.reverse
  constructor
  · rw [← List.reverse_reverse chars, heq]
    simp
  · rwa [List.mem_reverse]

/-- The validator of names in keys accepts the lines of names that have at most 63 characters. -/
theorem validateLabelName_eq_ok {shown : String} {name : List Char} :
  validateLabelName shown name = .ok () ↔ IsNameLine name
  := by
  rw [validateLabelName, raiseIf_ok, Bool.or_eq_false_iff, decide_eq_false_iff_not, not_lt,
    Bool.not_eq_false', matchesLine_labelNamePattern, and_comm]
  rfl

/-- The lines of names have no slash. -/
theorem IsNameLine.slash_notMem {name : List Char} (h : IsNameLine name) :
  '/' ∉ name
  := slash_notMem_of_line (by decide) h.1

/-- A subdomain whose parts are lines of labels is not empty and has no slash. -/
theorem domain_of_lines {domain : List Char}
    (h : ∀ part ∈ domain.splitOn '.', Line '\n' IsDnsLabel part) :
  domain ≠ [] ∧ '/' ∉ domain
  := by
  constructor
  · rintro rfl
    exact ne_nil_of_line (h [] (by decide)) rfl
  · intro hmem
    rcases mem_splitOnP (p := (· == '.')) hmem with hdot | ⟨part, hpart, hmem⟩
    · exact absurd hdot (by decide)
    · exact slash_notMem_of_line (by decide) (h part hpart) hmem

/-- The validator of keys accepts keys that may have newlines behind the labels of the subdomain and
behind the name. -/
theorem validateLabelKey_eq_ok {repr : String → String} {value : String} :
  validateLabelKey repr value = .ok ()
    ↔ IsKey IsNameLine (Line '\n' IsDnsLabel) value.toList
  := by
  rw [validateLabelKey]
  by_cases hempty : value = ""
  · subst hempty
    apply iff_of_false
    · intro h
      cases h
    · rintro (h | ⟨domain, name, h, -⟩)
      · exact ne_nil_of_line h.1 rfl
      · have hlength := congrArg List.length h
        simp at hlength
  · rw [raiseIf, if_neg (by simpa using hempty), Except.ok_bind]
    by_cases hslash : '/' ∈ value.toList
    · obtain ⟨domain, name, heq, hname⟩ := exists_last_slash hslash
      rw [if_pos hslash, heq, rsplitSlash_append domain hname]
      have hkey : IsKey IsNameLine (Line '\n' IsDnsLabel) (domain ++ '/' :: name)
          ↔ domain.length ≤ 253 ∧ (∀ part ∈ domain.splitOn '.', Line '\n' IsDnsLabel part)
            ∧ IsNameLine name := by
        constructor
        · rintro (h | ⟨domain', name', h, hdomain⟩)
          · exact absurd (by simp) h.slash_notMem
          · obtain ⟨rfl, rfl⟩ := append_cons_inj_last hname hdomain.2.2.slash_notMem h
            exact hdomain
        · intro h
          exact .inr ⟨domain, name, rfl, h⟩
      rw [hkey]
      constructor
      · intro h
        obtain ⟨_, hparts, h⟩ := Except.bind_eq_ok.mp h
        obtain ⟨_, hlength, h⟩ := Except.bind_eq_ok.mp h
        obtain ⟨_, hlabels, h⟩ := Except.bind_eq_ok.mp h
        have hlength := raiseIf_ok.mp hlength
        have hlabels := raiseIf_ok.mp hlabels
        rw [decide_eq_false_iff_not, not_lt] at hlength
        rw [List.any_eq_false] at hlabels
        use hlength
        constructor
        · intro part hpart
          have hlabel := hlabels part hpart
          rw [Bool.or_eq_true, not_or, Bool.not_eq_true', Bool.not_eq_false,
            matchesLine_dnsLabelPattern] at hlabel
          exact hlabel.2
        · exact validateLabelName_eq_ok.mp h
      · rintro ⟨hlength, hlabels, hline⟩
        obtain ⟨hdomain, hnone⟩ := domain_of_lines hlabels
        have hparts : (domain.isEmpty || name.isEmpty || domain.contains '/') = false := by
          simp [hdomain, ne_nil_of_line hline.1, hnone]
        have hany : (domain.splitOn '.').any
            (fun part => part.isEmpty || !dnsLabelPattern.matchesLine '\n' part) = false := by
          rw [List.any_eq_false]
          intro part hpart
          simp [ne_nil_of_line (hlabels part hpart),
            matchesLine_dnsLabelPattern.mpr (hlabels part hpart)]
        apply Except.bind_eq_ok.mpr
        use (), raiseIf_ok.mpr hparts
        apply Except.bind_eq_ok.mpr
        use (), raiseIf_ok.mpr (decide_eq_false (not_lt.mpr hlength))
        apply Except.bind_eq_ok.mpr
        use (), raiseIf_ok.mpr hany
        exact validateLabelName_eq_ok.mpr hline
    · rw [if_neg hslash, validateLabelName_eq_ok]
      constructor
      · exact .inl
      · rintro (h | ⟨domain, name, h, -⟩)
        · exact h
        · exact absurd (h ▸ by simp) hslash

/-- The validator of values accepts the lines of names that have at most 63 characters. -/
theorem validateLabelValue_eq_ok {repr : String → String} {value : String} :
  validateLabelValue repr value = .ok () ↔ IsNameLine value.toList
  := by
  have hname : validateLabelName (repr value) value.toList = .ok () ↔ IsNameLine value.toList :=
    validateLabelName_eq_ok
  rw [validateLabelValue]
  by_cases hempty : value = ""
  · subst hempty
    apply iff_of_false
    · intro h
      cases h
    · intro h
      exact ne_nil_of_line h.1 rfl
  · rw [raiseIf, if_neg (by simpa using hempty), Except.ok_bind, raiseIf_ok, ← hname,
      validateLabelName, raiseIf_ok]

/-! ### Newlines -/

/-- A character of a group is a lower case letter or a digit, and one between groups a dot or a
dash. -/
theorem IsIdentifier.inside {chars : List Char} (h : IsIdentifier chars) :
  ∀ c ∈ chars, isLabelChar c = true
  := by
  obtain ⟨group, rest, hgroup, hrest, rfl⟩ := h
  intro c hc
  rcases List.mem_append.mp hc with hc | hc
  · exact isLabelChar_of_isKindChar (hgroup.2 c hc)
  · obtain ⟨part, hpart, hc⟩ := List.mem_flatMap.mp hc
    obtain ⟨hseparator, hpartGroup⟩ := hrest part hpart
    rcases List.mem_cons.mp hc with rfl | hc
    · rw [isSeparatorChar, Bool.or_eq_true] at hseparator
      rcases hseparator with h | h <;> simp [isLabelChar, h]
    · exact isLabelChar_of_isKindChar (hpartGroup.2 c hc)

/-- An identifier has no newline. -/
theorem IsIdentifier.newline_notMem {chars : List Char} (h : IsIdentifier chars) :
  '\n' ∉ chars
  := GoblinKing.newline_notMem (by decide) h.inside

/-- A label has no newline, when its class of characters has none. -/
theorem IsLabel.newline_notMem {outer inner : Char → Bool} {chars : List Char}
    (h : IsLabel outer inner chars) (hnewline : inner '\n' = false) :
  '\n' ∉ chars
  := GoblinKing.newline_notMem hnewline h.inside

theorem isLabelName_newline (chars : List Char) (h : IsLabelName chars) :
  '\n' ∉ chars
  := h.newline_notMem (by decide)

/-- A character of a DNS label is one of a name. -/
theorem isLabelChar_of_isDnsChar {c : Char} (h : isDnsChar c = true) :
  isLabelChar c = true
  := by
  rw [isDnsChar, Bool.or_eq_true] at h
  rcases h with h | h
  · exact isLabelChar_of_isKindChar h
  · simp [isLabelChar, h]

/-- A key consists of characters of names, and perhaps a slash. -/
theorem IsKey.inside {chars : List Char} (h : IsLabelKey chars) :
  ∀ c ∈ chars, isLabelChar c = true ∨ c = '/'
  := by
  intro c hc
  rcases h with h | ⟨domain, name, rfl, -, hparts, hname⟩
  · exact .inl (h.inside c hc)
  · rcases List.mem_append.mp hc with hc | hc
    · left
      rcases mem_splitOnP (p := (· == '.')) hc with hdot | ⟨part, hpart, hc⟩
      · obtain rfl := beq_iff_eq.mp hdot
        rfl
      · exact isLabelChar_of_isDnsChar ((hparts part hpart).inside c hc)
    · rcases List.mem_cons.mp hc with rfl | hc
      · exact .inr rfl
      · exact .inl (hname.inside c hc)

/-- A name is a line of at most 63 characters without a newline. -/
theorem isLabelName_iff {chars : List Char} :
  IsLabelName chars ↔ IsNameLine chars ∧ '\n' ∉ chars
  := by
  constructor
  · intro h
    exact ⟨⟨.inl h, h.short⟩, h.newline_notMem (by decide)⟩
  · rintro ⟨⟨hline, -⟩, hnewline⟩
    exact (iff_line_and_notMem isLabelName_newline).mpr ⟨hline, hnewline⟩

/-- A key is one without newlines of those that may have newlines behind their labels. -/
theorem isLabelKey_iff {chars : List Char} :
  IsLabelKey chars ↔ IsKey IsNameLine (Line '\n' IsDnsLabel) chars ∧ '\n' ∉ chars
  := by
  constructor
  · intro h
    constructor
    · rcases h with h | ⟨domain, name, rfl, hlength, hparts, hname⟩
      · exact .inl (isLabelName_iff.mp h).1
      · right
        use domain, name, rfl, hlength, fun part hpart => .inl (hparts part hpart)
        exact (isLabelName_iff.mp hname).1
    · intro hmem
      rcases h.inside _ hmem with h | h <;> exact absurd h (by decide)
  · rintro ⟨h | ⟨domain, name, rfl, hlength, hparts, hname⟩, hnewline⟩
    · exact .inl (isLabelName_iff.mpr ⟨h, hnewline⟩)
    · right
      use domain, name, rfl, hlength
      constructor
      · intro part hpart
        apply (iff_line_and_notMem fun _ h => h.newline_notMem (by decide)).mpr
        use hparts part hpart
        intro hmem
        apply hnewline
        exact List.mem_append_left _ (of_mem_splitOnP hpart hmem).2
      · apply isLabelName_iff.mpr
        use hname
        intro hmem
        apply hnewline
        exact List.mem_append_right _ (List.mem_cons_of_mem _ hmem)

/-! ### What the validators accept -/

/-- A validator that accepts a grammar with newlines accepts its grammar exactly on the other
texts. -/
theorem acceptsExactly_iff {Accepted : Prop} {Grammar Lines : List Char → Prop} {chars : List Char}
    (haccepts : Accepted ↔ Lines chars)
    (hgrammar : Grammar chars ↔ Lines chars ∧ '\n' ∉ chars)
    (hinside : Grammar chars → ∀ c ∈ chars, isLabelChar c = true ∨ c = '/') :
  AcceptsExactly Accepted Grammar chars ↔ ¬ (Lines chars ∧ '\n' ∈ chars)
  := by
  constructor
  · rintro ⟨hexact, -⟩ ⟨hlines, hnewline⟩
    exact (hgrammar.mp (hexact.mp (haccepts.mpr hlines))).2 hnewline
  · intro hnot
    have hexact : Accepted ↔ Grammar chars := by
      rw [haccepts, hgrammar]
      constructor
      · intro hlines
        exact ⟨hlines, fun hnewline => hnot ⟨hlines, hnewline⟩⟩
      · exact And.left
    exact ⟨hexact, fun haccepted => hinside (hexact.mp haccepted)⟩

/-- A line with a newline in it is a text without one, and the newline. -/
theorem line_and_newline_iff {P : List Char → Prop} (h : ∀ w, P w → '\n' ∉ w) {chars : List Char} :
  Line '\n' P chars ∧ '\n' ∈ chars ↔ ∃ w, P w ∧ chars = w ++ ['\n']
  := by
  constructor
  · rintro ⟨hline | hline, hnewline⟩
    · exact absurd hnewline (h chars hline)
    · exact hline
  · rintro ⟨w, hw, rfl⟩
    exact ⟨.inr ⟨w, hw, rfl⟩, List.mem_append_right w (List.mem_singleton_self _)⟩

/-- A name line with a newline is a name of at most 62 characters, and the newline. -/
theorem nameLine_and_newline_iff {chars : List Char} :
  IsNameLine chars ∧ '\n' ∈ chars ↔ ∃ w, IsLabelName w ∧ w.length < 63 ∧ chars = w ++ ['\n']
  := by
  constructor
  · rintro ⟨⟨hline, hlength⟩, hnewline⟩
    obtain ⟨w, hw, rfl⟩ := (line_and_newline_iff isLabelName_newline).mp ⟨hline, hnewline⟩
    use w, hw
    constructor
    · rwa [List.length_append] at hlength
    · rfl
  · rintro ⟨w, hw, hlength, rfl⟩
    obtain ⟨hline, hnewline⟩ := (line_and_newline_iff isLabelName_newline).mpr ⟨w, hw, rfl⟩
    constructor
    · use hline
      rwa [List.length_append]
    · exact hnewline

/-- The validators accept their grammars exactly, except for identifiers and label values with a
newline behind them, and label keys with newlines behind the labels of the subdomain or the name. -/
theorem acceptsExactly_identifiers (repr : String → String) :
  (∀ validate ∈ identifierValidators, ∀ value : String,
      AcceptsExactly (validate value = .ok value) IsIdentifier value.toList
        ↔ ¬ ∃ w, IsIdentifier w ∧ value.toList = w ++ ['\n'])
    ∧ (∀ value : String,
      AcceptsExactly (validateLabelKey repr value = .ok ()) IsLabelKey value.toList
        ↔ ¬ (IsKey IsNameLine (Line '\n' IsDnsLabel) value.toList ∧ '\n' ∈ value.toList))
    ∧ (∀ value : String,
      AcceptsExactly (validateLabelValue repr value = .ok ()) IsLabelName value.toList
        ↔ ¬ ∃ w, IsLabelName w ∧ w.length < 63 ∧ value.toList = w ++ ['\n'])
  := by
  refine ⟨?_, ?_, ?_⟩
  · intro validate hvalidate value
    have hmessage : ∃ message, validate = validateIdentifier message := by
      simp only [identifierValidators, List.mem_cons, List.not_mem_nil, or_false] at hvalidate
      rcases hvalidate with rfl | rfl | rfl | rfl | rfl | rfl | rfl <;> exact ⟨_, rfl⟩
    obtain ⟨message, rfl⟩ := hmessage
    rw [← line_and_newline_iff fun _ => IsIdentifier.newline_notMem]
    apply acceptsExactly_iff validateIdentifier_eq_ok
      (iff_line_and_notMem fun _ => IsIdentifier.newline_notMem)
    intro h c hc
    exact .inl (h.inside c hc)
  · intro value
    exact acceptsExactly_iff validateLabelKey_eq_ok isLabelKey_iff IsKey.inside
  · intro value
    rw [← nameLine_and_newline_iff]
    apply acceptsExactly_iff validateLabelValue_eq_ok isLabelName_iff
    intro h c hc
    exact .inl (h.inside c hc)

/-- A kind, a label key and a label value with a newline behind them are accepted. -/
theorem newline_accepted :
  GoblinDefinition.validateKind "example.echo\n" = .ok "example.echo\n"
    ∧ ¬ AcceptsExactly (GoblinDefinition.validateKind "example.echo\n" = .ok "example.echo\n")
      IsIdentifier "example.echo\n".toList
    ∧ validateLabelKey id "example.com\n/zone\n" = .ok ()
    ∧ ¬ AcceptsExactly (validateLabelKey id "example.com\n/zone\n" = .ok ()) IsLabelKey
      "example.com\n/zone\n".toList
    ∧ validateLabelValue id "east\n" = .ok ()
    ∧ ¬ AcceptsExactly (validateLabelValue id "east\n" = .ok ()) IsLabelName "east\n".toList
  := by
  have hkind : GoblinDefinition.validateKind "example.echo\n" = .ok "example.echo\n" := by
    decide +kernel
  have hkey : validateLabelKey id "example.com\n/zone\n" = .ok () := by
    decide +kernel
  have hvalue : validateLabelValue id "east\n" = .ok () := by
    decide +kernel
  refine ⟨hkind, ?_, hkey, ?_, hvalue, ?_⟩
  · rintro ⟨-, hinside⟩
    exact absurd (hinside hkind '\n' (by decide)) (by decide)
  · rintro ⟨-, hinside⟩
    exact absurd (hinside hkey '\n' (by decide)) (by decide)
  · rintro ⟨-, hinside⟩
    exact absurd (hinside hvalue '\n' (by decide)) (by decide)

/-! ### Kinds of records -/

/-- Groups are what stands between the separators. -/
theorem isIdentifier_iff_splitOnP {chars : List Char} :
  IsIdentifier chars ↔ ∀ segment ∈ chars.splitOnP isSeparatorChar, IsGroup segment
  := by
  have hplain : ∀ group, IsGroup group → ∀ c ∈ group, isSeparatorChar c = false := by
    intro group hgroup c hc
    rw [isSeparatorChar, Bool.or_eq_false_iff, decide_eq_false_iff_not, decide_eq_false_iff_not]
    constructor
    · rintro rfl
      exact absurd (hgroup.2 _ hc) (by decide)
    · rintro rfl
      exact absurd (hgroup.2 _ hc) (by decide)
  constructor
  · rintro ⟨group, rest, hgroup, hrest, rfl⟩
    induction rest generalizing group with
    | nil =>
        rw [List.flatMap_nil, List.append_nil, List.splitOnP_eq_singleton (hplain group hgroup)]
        exact List.forall_mem_singleton.mpr hgroup
    | cons part rest ih =>
        obtain ⟨⟨hseparator, hpart⟩, hrest⟩ := List.forall_mem_cons.mp hrest
        rw [List.flatMap_cons, List.cons_append,
          List.splitOnP_append_cons_of_forall_mem (hplain group hgroup) _ hseparator]
        exact List.forall_mem_cons.mpr ⟨hgroup, ih part.2 hpart hrest⟩
  · intro h
    induction hn : chars.length using Nat.strong_induction_on generalizing chars with
    | _ n ih =>
        have hchars := List.takeWhile_append_dropWhile (p := fun c => !isSeparatorChar c) (l := chars)
        have hfront : ∀ c ∈ chars.takeWhile (fun c => !isSeparatorChar c),
            isSeparatorChar c = false := by
          intro c hc
          simpa using List.mem_takeWhile_imp hc
        cases hback : chars.dropWhile (fun c => !isSeparatorChar c) with
        | nil =>
            rw [hback, List.append_nil] at hchars
            rw [hchars] at hfront
            rw [List.splitOnP_eq_singleton hfront] at h
            use chars, [], List.forall_mem_singleton.mp h
            simp
        | cons c back =>
            have hc : isSeparatorChar c = true := by
              have hne : chars.dropWhile (fun c => !isSeparatorChar c) ≠ [] := by simp [hback]
              have hhead := List.head_dropWhile_not (fun c => !isSeparatorChar c) hne
              simpa [hback] using hhead
            rw [hback] at hchars
            rw [← hchars, List.splitOnP_append_cons_of_forall_mem hfront c hc] at h
            obtain ⟨hgroup, hrest⟩ := List.forall_mem_cons.mp h
            have hshorter : back.length < n := by
              rw [← hn, ← hchars, List.length_append, List.length_cons]
              omega
            obtain ⟨group, rest, hgroup', hrest', rfl⟩ := ih back.length hshorter hrest rfl
            use chars.takeWhile (fun c => !isSeparatorChar c), (c, group) :: rest, hgroup
            constructor
            · exact List.forall_mem_cons.mpr ⟨⟨hc, hgroup'⟩, hrest'⟩
            · exact hchars.symm

/-- The check of the kinds of stored records is a match of the pattern. -/
theorem matchesKindPattern_eq_matchesLine (value : String) :
  matchesKindPattern value = goblinKindPattern.matchesLine '\n' value.toList
  := by
  have hsegments : ∀ body : List Char, (body.splitOnP (fun c => c = '.' || c = '-')).all
      (fun segment => !segment.isEmpty && segment.all isKindChar) = true ↔ IsIdentifier body := by
    intro body
    rw [isIdentifier_iff_splitOnP, List.all_eq_true]
    apply forall₂_congr
    intro segment _
    simp [IsGroup]
  rw [Bool.eq_iff_iff, matchesLine_iff, Line.congr (fun _ => mem_goblinKindPattern),
    matchesKindPattern, hsegments]
  rcases List.eq_nil_or_concat' value.toList with hvalue | ⟨w, c, hvalue⟩
  · rw [hvalue]
    constructor
    · exact .inl
    · rintro (h | ⟨w, -, h⟩)
      · exact h
      · simp at h
  · rw [hvalue, List.getLast?_concat, List.dropLast_concat]
    split
    case isTrue hc =>
      obtain rfl := Option.some.inj hc
      constructor
      · intro h
        exact .inr ⟨w, h, rfl⟩
      · rintro (h | ⟨w', h, heq⟩)
        · exact absurd (List.mem_append_right w (List.mem_singleton_self _)) h.newline_notMem
        · rwa [List.append_cancel_right heq]
    case isFalse hc =>
      constructor
      · exact .inl
      · rintro (h | ⟨w', -, heq⟩)
        · exact h
        · exact absurd (List.append_inj' heq rfl).2 (by simpa using hc)

end GoblinKing
