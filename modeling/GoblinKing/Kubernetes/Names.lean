import GoblinKing.Api.ServiceRuntimes
import GoblinKing.Library.Labels

/-!
# Names of Kubernetes objects

A name is made of a text by `kubernetesName`: what is not a letter or a digit is read as a
dash, the words between the dashes are joined again, and the result is cut to 63 characters.
For a text with a kind in it, the name is the cut of the text with the dots of the kind read
as dashes.
-/

namespace GoblinKing

open Labels

/-- The functions of the standard library on ASCII texts: `str.lower` replaces the upper case
letters, and `str.isalnum` holds of letters and digits. -/
structure ApiSettings.AsciiText (settings : ApiSettings) : Prop where
  lower : ∀ text : String, (∀ c ∈ text.toList, c.toNat < 128) →
    (settings.lower text).toList = text.toList.map Char.toLower
  isalnum : ∀ c : Char, c.toNat < 128 → settings.isalnum c = c.isAlphanum

/-- Settings whose functions on texts are those on ASCII texts. -/
def asciiSettings : ApiSettings where
  repositoryEnabled := true
  defaultProjectId := none
  notebookFunctionImage := "goblin-notebook-runner"
  notebookServiceImage := "goblin-notebook-service"
  registered := fun _ => false
  lower := fun text => String.ofList (text.toList.map Char.toLower)
  isalnum := Char.isAlphanum
  sha256 := id
  dumpsService := fun _ _ source => source

theorem asciiText_asciiSettings :
  asciiSettings.AsciiText
  := by
  constructor
  · intro text _
    apply String.toList_ofList
  · intro c _
    rfl

/-- A kind that the validators accept. -/
structure GoblinKind where
  text : String
  accepted : matchesKindPattern text = true
  deriving DecidableEq

/-- The characters of a kind, without a newline at the end. -/
def GoblinKind.body (kind : GoblinKind) : List Char :=
  if kind.text.toList.getLast? = some '\n' then kind.text.toList.dropLast else kind.text.toList

/-- The characters of a kind with the dots read as dashes. -/
def GoblinKind.label (kind : GoblinKind) : List Char :=
  kind.body.map (fun c => if c = '.' then '-' else c)

/-- A DNS label: at most 63 lower case letters, digits and dashes, with no dash at the ends. -/
def isDnsLabel (name : String) : Bool :=
  decide (name.toList.length ≤ 63)
    && name.toList.all (fun c => isKindChar c || decide (c = '-'))
    && name.toList.head?.any isKindChar && name.toList.getLast?.any isKindChar

/-- A character of a DNS label. -/
def LabelChar (c : Char) : Prop :=
  isKindChar c = true ∨ c = '-'

instance : DecidablePred LabelChar :=
  fun _ => inferInstanceAs (Decidable (_ ∨ _))

/-- A hexadecimal digit, as `hexdigest` and `uuid4` write it. -/
def isHexChar (c : Char) : Bool :=
  c.isDigit || (decide ('a' ≤ c) && decide (c ≤ 'f'))

/-! ### Characters -/

/-- A lower case letter or digit is an ASCII character that is alphanumeric and that `lower`
keeps. -/
theorem isKindChar_spec {c : Char} (h : isKindChar c = true) :
  c.toNat < 128 ∧ c.isAlphanum = true ∧ c.toLower = c ∧ c ≠ '-'
  := by
  unfold isKindChar at h
  have hrange : (97 ≤ c.toNat ∧ c.toNat ≤ 122) ∨ (48 ≤ c.toNat ∧ c.toNat ≤ 57) := by
    change ((decide (c.val ≥ 97) && decide (c.val ≤ 122)) || c.isDigit) = true at h
    simpa [Char.isDigit, UInt32.le_iff_toNat_le] using h
  refine ⟨by omega, ?_, ?_, ?_⟩
  · unfold Char.isAlphanum Char.isAlpha
    rcases Bool.or_eq_true _ _ ▸ h with h | h
    · simp [h]
    · simp [h]
  · unfold Char.toLower
    rw [dif_neg]
    rintro ⟨hupper, hupper'⟩
    have hlow : 65 ≤ c.toNat := UInt32.le_iff_toNat_le.mp hupper
    have hhigh : c.toNat ≤ 90 := UInt32.le_iff_toNat_le.mp hupper'
    omega
  · rintro rfl
    revert hrange
    decide

/-- Characters are those of a DNS label when each of them is found to be one. -/
theorem labelChars_of_all {chars : List Char}
    (h : chars.all (fun c => decide (LabelChar c)) = true) :
  ∀ c ∈ chars, LabelChar c
  := by
  intro c hc
  apply of_decide_eq_true (List.all_eq_true.mp h c hc)

/-- A character of a label is an ASCII character that `lower` keeps. -/
theorem LabelChar.ascii {c : Char} (h : LabelChar c) :
  c.toNat < 128 ∧ c.toLower = c
  := by
  rcases h with hkind | rfl
  · exact ⟨(isKindChar_spec hkind).1, (isKindChar_spec hkind).2.2.1⟩
  · decide

/-- A hexadecimal digit is a lower case letter or a digit. -/
theorem isKindChar_of_isHexChar {c : Char} (h : isHexChar c = true) :
  isKindChar c = true
  := by
  unfold isHexChar at h
  unfold isKindChar
  rw [Bool.or_eq_true] at h ⊢
  rcases h with h | h
  · exact .inr h
  · left
    simp only [Bool.and_eq_true, decide_eq_true_eq] at h
    change (decide (c ≥ 'a') && decide (c ≤ 'z')) = true
    rw [Bool.and_eq_true, decide_eq_true_eq, decide_eq_true_eq]
    use h.1
    apply UInt32.le_trans h.2
    decide

/-- The text of which a name is made: what is not a letter or a digit is read as a dash. -/
def dashed (chars : List Char) : List Char :=
  chars.map (fun c => if c.isAlphanum then c else '-')

/-- A label is read as itself. -/
theorem dashed_eq_self {chars : List Char} (h : ∀ c ∈ chars, LabelChar c) :
  dashed chars = chars
  := by
  conv_rhs => rw [← List.map_id chars]
  apply List.map_congr_left
  intro c hc
  rcases h c hc with hkind | rfl
  · rw [(isKindChar_spec hkind).2.1]
    rfl
  · rfl

/-- A separator of a kind is read as a dash. -/
theorem dashed_append (a b : List Char) :
  dashed (a ++ b) = dashed a ++ dashed b
  := List.map_append

/-! ### Kinds -/

/-- A kind is its body, with a newline after it or not. -/
theorem GoblinKind.text_eq (kind : GoblinKind) :
  kind.text.toList = kind.body ∨ kind.text.toList = kind.body ++ ['\n']
  := by
  unfold body
  split
  case isTrue h =>
    right
    obtain ⟨front, hfront⟩ := List.getLast?_eq_some_iff.mp h
    rw [hfront, List.dropLast_concat]
  case isFalse => exact .inl rfl

/-- The segments of a kind are words of lower case letters and digits. -/
theorem GoblinKind.segments (kind : GoblinKind) :
  ∀ segment ∈ kind.body.splitOnP (fun c => c = '.' || c = '-'),
    segment ≠ [] ∧ ∀ c ∈ segment, isKindChar c = true
  := by
  intro segment hsegment
  have h := List.all_eq_true.mp kind.accepted segment hsegment
  rw [Bool.and_eq_true, List.all_eq_true] at h
  use by simpa using h.1, h.2

/-- The words of the label of a kind are the segments of the kind. -/
theorem GoblinKind.splitOn_label (kind : GoblinKind) :
  kind.label.splitOn '-' = kind.body.splitOnP (fun c => c = '.' || c = '-')
  := by
  have hdash : (fun c : Char => decide ((if c = '.' then '-' else c) = '-'))
      = fun c => c = '.' || c = '-' := by
    funext c
    by_cases hc : c = '.'
    · simp [hc]
    · simp [hc]
  rw [label, splitOn_map, hdash]
  conv_rhs => rw [← List.map_id (kind.body.splitOnP _)]
  apply List.map_congr_left
  intro segment hsegment
  conv_rhs => rw [id, ← List.map_id segment]
  apply List.map_congr_left
  intro c hc
  rw [if_neg, id]
  rintro rfl
  exact absurd ((kind.segments segment hsegment).2 _ hc) (by decide)

/-- The label of a kind is tidy. -/
theorem GoblinKind.tidy_label (kind : GoblinKind) :
  Tidy '-' kind.label
  := by
  intro word hword
  rw [kind.splitOn_label] at hword
  apply (kind.segments word hword).1

/-- A text whose words consist of letters and digits consists of these and dashes. -/
theorem labelChar_of_splitOn {chars : List Char}
    (h : ∀ word ∈ chars.splitOn '-', ∀ c ∈ word, isKindChar c = true) :
  ∀ c ∈ chars, LabelChar c
  := by
  intro c hc
  have hjoined : ['-'].intercalate (chars.splitOn '-') = chars := List.intercalate_splitOn '-'
  rw [← hjoined] at hc
  rcases mem_intercalate _ hc with hdash | ⟨word, hword, hc⟩
  · exact .inr hdash
  · exact .inl (h word hword c hc)

/-- The label of a kind consists of lower case letters, digits and dashes. -/
theorem GoblinKind.label_chars (kind : GoblinKind) :
  ∀ c ∈ kind.label, LabelChar c
  := by
  apply labelChar_of_splitOn
  intro word hword
  rw [kind.splitOn_label] at hword
  apply (kind.segments word hword).2

/-- A character of a kind is a lower case letter, a digit, a dash or a dot. -/
theorem GoblinKind.body_chars (kind : GoblinKind) :
  ∀ c ∈ kind.body, LabelChar c ∨ c = '.'
  := by
  intro c hc
  by_cases hdot : c = '.'
  · exact .inr hdot
  · left
    have hlabel := kind.label_chars _ (List.mem_map_of_mem hc)
    rw [if_neg hdot] at hlabel
    apply hlabel

/-- The body of a kind is read as its label. -/
theorem GoblinKind.dashed_body (kind : GoblinKind) :
  dashed kind.body = kind.label
  := by
  apply List.map_congr_left
  intro c hc
  by_cases hdot : c = '.'
  · subst hdot
    rfl
  · rw [if_neg hdot]
    rcases (kind.body_chars c hc).resolve_right hdot with hkind | rfl
    · rw [(isKindChar_spec hkind).2.1]
      rfl
    · rfl

/-- The words of a text that begins with a kind and a dash. -/
theorem GoblinKind.words_dashed (kind : GoblinKind) (rest : List Char) :
  words '-' (dashed kind.text.toList ++ '-' :: rest) = words '-' (kind.label ++ '-' :: rest)
  := by
  rcases kind.text_eq with htext | htext
  · rw [htext, kind.dashed_body]
  · -- a newline at the end of the kind is one more dash
    rw [htext, dashed_append, kind.dashed_body, List.append_assoc]
    change words '-' (kind.label ++ '-' :: '-' :: rest) = _
    rw [words_append, words_cons, words_append]

/-! ### Names -/

/-- Removing the dashes at both ends of the front of a text that does not begin with a dash
is cutting it. -/
theorem stripDashes_take {chars : List Char} (h : chars.head? ≠ some '-') (n : ℕ) :
  stripDashes (chars.take n) = cut '-' n chars
  := by
  unfold stripDashes cut
  congr 1
  cases chars with
  | nil => rw [List.take_nil, List.dropWhile_nil]
  | cons c rest =>
      cases n with
      | zero => rfl
      | succ n =>
          rw [List.take_succ_cons, List.dropWhile_cons_of_neg]
          intro hc
          apply h
          rw [of_decide_eq_true hc]
          rfl

/-- The name of a text of ASCII characters without upper case letters, in terms of its
words. -/
theorem kubernetesName_eq {settings : ApiSettings} (hascii : settings.AsciiText) {value : String}
    (hvalue : ∀ c ∈ value.toList, c.toNat < 128 ∧ c.toLower = c)
    (hwords : words '-' (dashed value.toList) ≠ []) :
  kubernetesName settings value = String.ofList (cut '-' 63 (collapse '-' (dashed value.toList)))
  := by
  have hlower : (settings.lower value).toList = value.toList := by
    rw [hascii.lower value (fun c hc => (hvalue c hc).1)]
    conv_rhs => rw [← List.map_id value.toList]
    apply List.map_congr_left
    intro c hc
    apply (hvalue c hc).2
  have hlowered : (settings.lower value).toList.map (fun c => if settings.isalnum c then c else '-')
      = dashed value.toList := by
    rw [hlower]
    apply List.map_congr_left
    intro c hc
    rw [hascii.isalnum c (hvalue c hc).1]
  have htidy := tidy_collapse hwords
  have hhead : (collapse '-' (dashed value.toList)).head? ≠ some '-' := by
    intro h
    obtain ⟨rest, hrest⟩ := List.head?_eq_some_iff.mp h
    rw [hrest] at htidy
    apply not_tidy_cons rest htidy
  have hne : cut '-' 63 (collapse '-' (dashed value.toList)) ≠ [] := by
    obtain ⟨c, rest, hc⟩ := List.exists_cons_of_ne_nil htidy.ne_nil
    rw [hc] at hhead ⊢
    have hdash : c ≠ '-' := fun h => hhead (congrArg some h)
    obtain ⟨rest', hrest'⟩ := cut_cons hdash 62 rest
    rw [hrest']
    apply List.cons_ne_nil
  have hcollapse : collapseDashes (dashed value.toList) = collapse '-' (dashed value.toList) := rfl
  simp only [kubernetesName, hlowered, hcollapse, stripDashes_take hhead]
  rw [if_neg (by simpa using hne)]

/-- The name of a text with a kind between two other texts. -/
theorem kubernetesName_kind {settings : ApiSettings} (hascii : settings.AsciiText)
    (kind : GoblinKind) (front back : String) {value : String}
    (hvalue : value.toList = front.toList ++ '-' :: (kind.text.toList ++ '-' :: back.toList))
    (hfront : ∀ c ∈ front.toList, LabelChar c) (htidy : Tidy '-' front.toList)
    (hback : ∀ c ∈ back.toList, LabelChar c) (htidy' : Tidy '-' back.toList) :
  (kubernetesName settings value).toList
    = cut '-' 63 (front.toList ++ '-' :: (kind.label ++ '-' :: back.toList))
  := by
  have hlabelled : Tidy '-' (front.toList ++ '-' :: (kind.label ++ '-' :: back.toList)) :=
    tidy_append.mpr ⟨htidy, tidy_append.mpr ⟨kind.tidy_label, htidy'⟩⟩
  have hwords : words '-' (dashed value.toList)
      = words '-' (front.toList ++ '-' :: (kind.label ++ '-' :: back.toList)) := by
    have hdashed : dashed value.toList
        = front.toList ++ '-' :: (dashed kind.text.toList ++ '-' :: back.toList) := by
      rw [hvalue, dashed_append, dashed_eq_self hfront]
      change front.toList ++ '-' :: dashed (kind.text.toList ++ '-' :: back.toList) = _
      rw [dashed_append]
      change _ ++ '-' :: (_ ++ '-' :: dashed back.toList) = _
      rw [dashed_eq_self hback]
    rw [hdashed, words_append, kind.words_dashed, ← words_append]
  have hascii' : ∀ c ∈ value.toList, c.toNat < 128 ∧ c.toLower = c := by
    intro c hc
    rw [hvalue] at hc
    simp only [List.mem_append, List.mem_cons] at hc
    rcases hc with hc | rfl | hc | rfl | hc
    · apply (hfront c hc).ascii
    · decide
    · rcases kind.text_eq with htext | htext
      · rw [htext] at hc
        rcases kind.body_chars c hc with hc | rfl
        · apply hc.ascii
        · decide
      · rw [htext, List.mem_append, List.mem_singleton] at hc
        rcases hc with hc | rfl
        · rcases kind.body_chars c hc with hc | rfl
          · apply hc.ascii
          · decide
        · decide
    · decide
    · apply (hback c hc).ascii
  rw [kubernetesName_eq hascii hascii', String.toList_ofList, collapse, hwords, ← collapse,
    hlabelled.collapse_eq]
  rw [hwords, hlabelled.words_eq]
  apply List.splitOn_ne_nil

/-- A cut of a tidy text of label characters is a DNS label. -/
theorem isDnsLabel_cut {name : String} {text : List Char} (hname : name.toList = cut '-' 63 text)
    (htidy : Tidy '-' text) (hchars : ∀ c ∈ text, LabelChar c) :
  isDnsLabel name = true
  := by
  have hsub : ∀ c ∈ cut '-' 63 text, LabelChar c := by
    intro c hc
    apply hchars c
    apply List.mem_of_mem_take ((List.rdropWhile_prefix _ _).subset hc)
  have hkind : ∀ c, LabelChar c → c ≠ '-' → isKindChar c = true := by
    intro c hc hdash
    apply hc.resolve_right hdash
  obtain ⟨c, rest, rfl⟩ := List.exists_cons_of_ne_nil htidy.ne_nil
  have hdash : c ≠ '-' := by
    rintro rfl
    apply not_tidy_cons rest htidy
  obtain ⟨rest', hcut⟩ := cut_cons hdash 62 rest
  have hne : cut '-' 63 (c :: rest) ≠ [] := by
    rw [hcut]
    apply List.cons_ne_nil
  have hlast := List.rdropWhile_last_not _ _ hne
  unfold isDnsLabel
  rw [hname]
  simp only [Bool.and_eq_true, decide_eq_true_eq, List.all_eq_true, Bool.or_eq_true]
  refine ⟨⟨⟨length_cut_le 63 _, hsub⟩, ?_⟩, ?_⟩
  · rw [hcut]
    apply hkind c (hchars c List.mem_cons_self) hdash
  · rw [List.getLast?_eq_some_getLast hne]
    apply hkind _ (hsub _ (List.getLast_mem hne))
    intro heq
    apply hlast (decide_eq_true heq)

end GoblinKing
