import GoblinKing.Library.UrlPaths
import Mathlib.Data.List.SplitBy

/-!
# URLs

How a URL is split into its parts and joined from them, and the queries made of pairs. A URL with a
network location is a scheme, the location and the rest; what stands behind the location has no
influence on it.
-/

open Utf8

namespace Url

/-! ### Parts -/

/-- A control character or a space, which is skipped in front of a URL. -/
def IsControlOrSpace (c : CodePoint) : Prop :=
  c.val ≤ 0x20

instance : DecidablePred IsControlOrSpace :=
  fun _ => inferInstanceAs (Decidable (_ ≤ _))

/-- A tab or a line break, which is removed everywhere in a URL. -/
def IsRemoved (c : CodePoint) : Prop :=
  c = 0x09 ∨ c = 0x0A ∨ c = 0x0D

instance : DecidablePred IsRemoved :=
  fun _ => inferInstanceAs (Decidable (_ ∨ _))

/-- A text without tabs and line breaks. -/
def unbroken (text : List CodePoint) : List CodePoint :=
  text.filter (fun c => ¬ IsRemoved c)

/-- A text without control characters in front, tabs and line breaks. -/
def clean (text : List CodePoint) : List CodePoint :=
  unbroken (text.dropWhile (fun c => IsControlOrSpace c))

/-- The first character of a scheme. -/
def IsLetter (c : CodePoint) : Prop :=
  (0x41 ≤ c.val ∧ c.val ≤ 0x5A) ∨ (0x61 ≤ c.val ∧ c.val ≤ 0x7A)

instance : DecidablePred IsLetter :=
  fun _ => inferInstanceAs (Decidable (_ ∨ _))

/-- A character of a scheme. -/
def IsSchemeChar (c : CodePoint) : Prop :=
  IsLetter c ∨ (0x30 ≤ c.val ∧ c.val ≤ 0x39) ∨ c = 0x2B ∨ c = 0x2D ∨ c = 0x2E

instance : DecidablePred IsSchemeChar :=
  fun _ => inferInstanceAs (Decidable (_ ∨ _))

/-- A capital letter as a small one. -/
def lowerChar (c : CodePoint) : CodePoint :=
  if 0x41 ≤ c.val ∧ c.val ≤ 0x5A then Fin.ofNat _ (c.val + 0x20) else c

/-- The text in front of a character, and the text behind it. -/
def partition (c : CodePoint) (text : List CodePoint) : List CodePoint × List CodePoint :=
  (text.takeWhile (· ≠ c), (text.dropWhile (· ≠ c)).tail)

/-- A text before a colon that can be a scheme. -/
def isScheme (text : List CodePoint) : Bool :=
  text.head?.any (fun c => IsLetter c) && text.all (fun c => IsSchemeChar c)

/-- The scheme of a URL in small letters, and what follows it. -/
def splitScheme (url : List CodePoint) : List CodePoint × List CodePoint :=
  let (front, back) := partition 0x3A url
  if 0x3A ∈ url ∧ isScheme front then (front.map lowerChar, back) else ([], url)

/-- The end of a network location. -/
def IsDelimiter (c : CodePoint) : Prop :=
  c = 0x2F ∨ c = 0x3F ∨ c = 0x23

instance : DecidablePred IsDelimiter :=
  fun _ => inferInstanceAs (Decidable (_ ∨ _))

/-- The network location of what follows the scheme, and the rest. -/
def splitNetloc (rest : List CodePoint) : List CodePoint × List CodePoint :=
  if [0x2F, 0x2F] <+: rest then
    ((rest.drop 2).takeWhile (fun c => ¬ IsDelimiter c),
      (rest.drop 2).dropWhile (fun c => ¬ IsDelimiter c))
  else
    ([], rest)

/-- The parts of a URL. -/
structure Parts where
  scheme : List CodePoint
  netloc : List CodePoint
  path : List CodePoint
  query : List CodePoint
  fragment : List CodePoint
  deriving DecidableEq

/-- The parts of a URL, split behind its network location. -/
def partsOf (scheme netloc rest : List CodePoint) : Parts :=
  let (rest, fragment) := partition 0x23 rest
  let (path, query) := partition 0x3F rest
  ⟨scheme, netloc, path, query, fragment⟩

/-- Split a URL, unless its network location is refused. -/
def split (validNetloc : List CodePoint → Bool) (url : List CodePoint) : Option Parts :=
  let (scheme, rest) := splitScheme (clean url)
  let (netloc, rest) := splitNetloc rest
  if netloc = [] ∨ validNetloc netloc then some (partsOf scheme netloc rest) else none

/-- A URL of its parts, with a network location. -/
def unsplit (parts : Parts) : List CodePoint :=
  let path := if parts.path ≠ [] ∧ parts.path.head? ≠ some 0x2F then 0x2F :: parts.path
    else parts.path
  let url := 0x2F :: 0x2F :: (parts.netloc ++ path)
  let url := if parts.scheme = [] then url else parts.scheme ++ 0x3A :: url
  let url := if parts.query = [] then url else url ++ 0x3F :: parts.query
  if parts.fragment = [] then url else url ++ 0x23 :: parts.fragment

/-! ### Splitting and joining -/

theorem partition_append {c : CodePoint} {front : List CodePoint} (h : c ∉ front)
    (back : List CodePoint) :
  partition c (front ++ c :: back) = (front, back)
  := by
  have hfront : ∀ d ∈ front, decide (d ≠ c) = true := by
    intro d hd
    rw [decide_eq_true_eq]
    rintro rfl
    exact h hd
  rw [partition, List.takeWhile_append_of_pos hfront, List.takeWhile_cons_of_neg (by simp),
    List.dropWhile_append_of_pos hfront, List.dropWhile_cons_of_neg (by simp), List.append_nil,
    List.tail_cons]

theorem partition_of_notMem {c : CodePoint} {text : List CodePoint} (h : c ∉ text) :
  partition c text = (text, [])
  := by
  have htext : ∀ d ∈ text, decide (d ≠ c) = true := by
    intro d hd
    rw [decide_eq_true_eq]
    rintro rfl
    exact h hd
  rw [partition, List.takeWhile_eq_self_iff.mpr htext, List.dropWhile_eq_nil_iff.mpr htext,
    List.tail_nil]

/-- Where a character is in a text, the text is in front of it and behind it. -/
theorem eq_append_of_mem {c : CodePoint} {text : List CodePoint} (h : c ∈ text) :
  text = (partition c text).1 ++ c :: (partition c text).2
  := by
  obtain ⟨front, back, rfl, hfront⟩ := List.eq_append_cons_of_mem h
  rw [partition_append hfront]

theorem splitScheme_append {front : List CodePoint} (h : isScheme front = true)
    (back : List CodePoint) :
  splitScheme (front ++ 0x3A :: back) = (front.map lowerChar, back)
  := by
  have hcolon : 0x3A ∉ front := by
    intro hc
    rw [isScheme, Bool.and_eq_true, List.all_eq_true] at h
    exact absurd (h.2 _ hc) (by decide)
  have hmem : 0x3A ∈ front ++ 0x3A :: back := List.mem_append_right _ List.mem_cons_self
  simp only [splitScheme, partition_append hcolon, if_pos (And.intro hmem h)]

theorem exists_of_splitScheme {url scheme rest : List CodePoint}
    (h : splitScheme url = (scheme, rest)) (hne : scheme ≠ []) :
  ∃ front, isScheme front = true ∧ front.map lowerChar = scheme ∧ url = front ++ 0x3A :: rest
  := by
  simp only [splitScheme] at h
  split_ifs at h with hcolon
  · rw [Prod.mk.injEq] at h
    use (partition 0x3A url).1, hcolon.2, h.1
    rw [← h.2, ← eq_append_of_mem hcolon.1]
  · rw [Prod.mk.injEq] at h
    exact absurd h.1.symm hne

theorem splitNetloc_append {netloc rest : List CodePoint} (hnetloc : ∀ c ∈ netloc, ¬ IsDelimiter c)
    (hrest : ∀ c ∈ rest.head?, IsDelimiter c) :
  splitNetloc (0x2F :: 0x2F :: (netloc ++ rest)) = (netloc, rest)
  := by
  have hslashes : [0x2F, 0x2F] <+: (0x2F :: 0x2F :: (netloc ++ rest) : List CodePoint) := by simp
  have hall : ∀ c ∈ netloc, decide (¬ IsDelimiter c) = true := by
    intro c hc
    rw [decide_eq_true_eq]
    exact hnetloc c hc
  rw [splitNetloc, if_pos hslashes, List.drop_succ_cons, List.drop_succ_cons, List.drop_zero,
    List.takeWhile_append_of_pos hall, List.dropWhile_append_of_pos hall]
  cases rest with
  | nil => simp
  | cons c rest =>
    have hc : IsDelimiter c := hrest c rfl
    rw [List.takeWhile_cons_of_neg (by simp [hc]), List.dropWhile_cons_of_neg (by simp [hc]),
      List.append_nil]

theorem of_splitNetloc {url netloc rest : List CodePoint} (h : splitNetloc url = (netloc, rest))
    (hne : netloc ≠ []) :
  url = 0x2F :: 0x2F :: (netloc ++ rest) ∧ (∀ c ∈ netloc, ¬ IsDelimiter c)
    ∧ ∀ c ∈ rest.head?, IsDelimiter c
  := by
  unfold splitNetloc at h
  split_ifs at h with hslashes
  · obtain ⟨url, rfl⟩ := hslashes
    rw [Prod.mk.injEq] at h
    obtain ⟨rfl, rfl⟩ := h
    constructor
    · rw [List.takeWhile_append_dropWhile]
      rfl
    · constructor
      · intro c hc
        have htake := List.mem_takeWhile_imp hc
        rwa [decide_eq_true_eq] at htake
      · intro c hc
        have hdrop := List.head?_dropWhile_not (fun c => decide ¬ IsDelimiter c)
          (([0x2F, 0x2F] ++ url).drop 2)
        rw [Option.mem_def.mp hc] at hdrop
        simpa using hdrop
  · rw [Prod.mk.injEq] at h
    exact absurd h.1.symm hne

/-- A URL has, in front of the rest, a scheme and a network location. -/
structure Located (url scheme netloc rest : List CodePoint) : Prop where
  front : ∃ front, isScheme front = true ∧ front.map lowerChar = scheme
    ∧ clean url = front ++ 0x3A :: 0x2F :: 0x2F :: (netloc ++ rest)
  nonempty : netloc ≠ []
  undelimited : ∀ c ∈ netloc, ¬ IsDelimiter c
  delimited : ∀ c ∈ rest.head?, IsDelimiter c

variable {validNetloc : List CodePoint → Bool} {url scheme netloc rest : List CodePoint}

theorem Located.split (h : Located url scheme netloc rest) (hvalid : validNetloc netloc = true) :
  split validNetloc url = some (partsOf scheme netloc rest)
  := by
  obtain ⟨front, hfront, rfl, hclean⟩ := h.front
  simp only [Url.split, hclean, splitScheme_append hfront,
    splitNetloc_append h.undelimited h.delimited, hvalid, or_true, if_true]

theorem exists_located {parts : Parts} (h : split validNetloc url = some parts)
    (hscheme : parts.scheme ≠ []) (hnetloc : parts.netloc ≠ []) :
  validNetloc parts.netloc = true
    ∧ ∃ rest, Located url parts.scheme parts.netloc rest
      ∧ parts = partsOf parts.scheme parts.netloc rest
  := by
  rcases hs : splitScheme (clean url) with ⟨scheme, behind⟩
  rcases hn : splitNetloc behind with ⟨netloc, rest⟩
  simp only [Url.split, hs, hn] at h
  split_ifs at h with hvalid
  rw [Option.some.injEq] at h
  subst h
  obtain ⟨front, hfront, hlower, hclean⟩ := exists_of_splitScheme hs hscheme
  obtain ⟨hrest, hundelimited, hdelimited⟩ := of_splitNetloc hn hnetloc
  rw [hrest] at hclean
  use hvalid.resolve_left hnetloc, rest
  exact ⟨⟨⟨front, hfront, hlower, hclean⟩, hnetloc, hundelimited, hdelimited⟩, rfl⟩

theorem unbroken_append (text rest : List CodePoint) :
  unbroken (text ++ rest) = unbroken text ++ unbroken rest
  := List.filter_append _ _

theorem unbroken_eq_self {text : List CodePoint} (h : ∀ c ∈ text, ¬ IsRemoved c) :
  unbroken text = text
  := by
  rw [unbroken, List.filter_eq_self]
  intro c hc
  rw [decide_eq_true_eq]
  exact h c hc

theorem not_isRemoved_of_mem_unbroken {text : List CodePoint} {c : CodePoint}
    (h : c ∈ unbroken text) :
  ¬ IsRemoved c
  := by
  rw [unbroken, List.mem_filter, decide_eq_true_eq] at h
  exact h.2

theorem IsLetter.not_isControlOrSpace {c : CodePoint} (h : IsLetter c) :
  ¬ IsControlOrSpace c
  := by
  unfold IsLetter at h
  unfold IsControlOrSpace
  omega

/-- A text is the beginning of another one whose last characters are slashes, unless slashes are all
that is behind it. -/
theorem exists_append_of_replicate {front rest text : List CodePoint} {n : ℕ}
    (h : front ++ rest = text ++ List.replicate n 0x2F) (hfront : front.getLast? ≠ some 0x2F) :
  ∃ rest', text = front ++ rest' ∧ rest = rest' ++ List.replicate n 0x2F
  := by
  rcases List.append_eq_append_iff.mp h with ⟨rest', htext, hrest⟩ | ⟨back, hback, hslashes⟩
  · use rest', htext, hrest
  · by_cases hnil : back = []
    · use []
      rw [hnil, List.append_nil] at hback
      rw [hnil, List.nil_append] at hslashes
      simp [hback, hslashes]
    · exfalso
      apply hfront
      have hlast : back.getLast hnil = 0x2F := by
        apply List.eq_of_mem_replicate
        rw [hslashes]
        exact List.mem_append_left _ (List.getLast_mem hnil)
      rw [hback, List.getLast?_append_of_ne_nil _ hnil, List.getLast?_eq_some_getLast hnil, hlast]

/-- A text with a character that is not skipped is cleaned apart from what follows it. -/
theorem clean_append {text : List CodePoint}
    (h : text.dropWhile (fun c => IsControlOrSpace c) ≠ []) (rest : List CodePoint) :
  clean (text ++ rest) = clean text ++ unbroken rest
  := by
  rw [clean, List.dropWhile_append, if_neg (by simpa using h), unbroken_append, clean]

theorem isLetter_of_isScheme {front : List CodePoint} (h : isScheme front = true) :
  ∃ c front', front = c :: front' ∧ IsLetter c
  := by
  cases front with
  | nil => cases h
  | cons c front =>
    use c, front
    rw [isScheme, Bool.and_eq_true] at h
    simpa using h.1

/-- Nothing that is removed from a URL is left in its parts. -/
theorem Located.not_isRemoved (h : Located url scheme netloc rest) :
  ∀ c ∈ netloc ++ rest, ¬ IsRemoved c
  := by
  intro c hc
  obtain ⟨front, -, -, hclean⟩ := h.front
  have hmem : c ∈ clean url := by
    rw [hclean]
    simp only [List.mem_append, List.mem_cons] at hc ⊢
    tauto
  exact not_isRemoved_of_mem_unbroken hmem

/-- The character with which a query or a fragment begins. -/
def IsMark (c : CodePoint) : Prop :=
  c = 0x3F ∨ c = 0x23

instance : DecidablePred IsMark :=
  fun _ => inferInstanceAs (Decidable (_ ∨ _))

/-- The path ends where the query or the fragment begins. -/
theorem path_partsOf (scheme netloc rest : List CodePoint) :
  (partsOf scheme netloc rest).path = rest.takeWhile (fun c => ¬ IsMark c)
  := by
  simp [partsOf, partition, List.takeWhile_takeWhile, IsMark]

/-- An encoded text has no marks of queries and fragments, and nothing that is removed. -/
theorem plain_quote {safe : List CodePoint} (hsafe : ∀ c ∈ safe, ¬ IsMark c ∧ ¬ IsRemoved c)
    (text : List CodePoint) :
  ∀ c ∈ quote safe text, ¬ IsMark c ∧ ¬ IsRemoved c
  := by
  apply forall_mem_quote
  · intro c hc
    have hmarks : ∀ d : CodePoint, ¬ IsUnreserved d → c ≠ d := by
      rintro d hd rfl
      exact hd hc
    unfold IsMark IsRemoved
    simp only [not_or]
    exact ⟨⟨hmarks _ (by decide), hmarks _ (by decide)⟩,
      ⟨hmarks _ (by decide), hmarks _ (by decide), hmarks _ (by decide)⟩⟩
  · exact hsafe
  · decide

theorem path_partsOf_append {path ending : List CodePoint} (hpath : ∀ c ∈ path, ¬ IsMark c)
    (hending : ∀ c ∈ ending.head?, IsMark c) (scheme netloc : List CodePoint) :
  (partsOf scheme netloc (path ++ ending)).path = path
  := by
  have hall : ∀ c ∈ path, decide (¬ IsMark c) = true := by
    intro c hc
    rw [decide_eq_true_eq]
    exact hpath c hc
  rw [path_partsOf, List.takeWhile_append_of_pos hall]
  cases ending with
  | nil => exact List.append_nil _
  | cons c ending =>
    have hc : IsMark c := hending c rfl
    rw [List.takeWhile_cons_of_neg (by simp [hc]), List.append_nil]

/-- Without tabs and line breaks, a path in front of a query or a fragment stays what it is. -/
theorem path_partsOf_unbroken {path ending : List CodePoint}
    (hpath : ∀ c ∈ path, ¬ IsMark c ∧ ¬ IsRemoved c) (hending : ∀ c ∈ ending.head?, IsMark c)
    (scheme netloc : List CodePoint) :
  (partsOf scheme netloc (path ++ unbroken ending)).path = path
  := by
  apply path_partsOf_append (fun c hc => (hpath c hc).1)
  cases ending with
  | nil => exact hending
  | cons c ending =>
    have hc : IsMark c := hending c rfl
    have hkept : ¬ IsRemoved c := by
      rcases hc with rfl | rfl <;> decide
    rw [unbroken, List.filter_cons_of_pos (by simpa using hkept)]
    exact hending

/-- Without a query and a fragment, only their marks can be behind the path. -/
theorem exists_marks {scheme netloc rest : List CodePoint}
    (hquery : (partsOf scheme netloc rest).query = [])
    (hfragment : (partsOf scheme netloc rest).fragment = []) :
  ∃ marks, rest = (partsOf scheme netloc rest).path ++ marks ∧ ∀ c ∈ marks, IsMark c
  := by
  have hsplit : ∀ {c : CodePoint} {text : List CodePoint}, (partition c text).2 = [] →
      text = (partition c text).1 ++ if c ∈ text then [c] else [] := by
    intro c text hback
    split_ifs with hc
    · conv_lhs => rw [eq_append_of_mem hc, hback]
    · rw [partition_of_notMem hc, List.append_nil]
  have hrest : rest = (partition 0x23 rest).1 ++ if 0x23 ∈ rest then [0x23] else [] :=
    hsplit hfragment
  have hpath : (partition 0x23 rest).1 = (partsOf scheme netloc rest).path
      ++ if 0x3F ∈ (partition 0x23 rest).1 then [0x3F] else [] := hsplit hquery
  use (if 0x3F ∈ (partition 0x23 rest).1 then [0x3F] else []) ++ if 0x23 ∈ rest then [0x23] else []
  constructor
  · rw [← List.append_assoc, ← hpath]
    exact hrest
  · intro c hc
    unfold IsMark
    rw [List.mem_append] at hc
    rcases hc with hc | hc
    · split_ifs at hc
      · exact Or.inl (List.mem_singleton.mp hc)
      · cases hc
    · split_ifs at hc
      · exact Or.inr (List.mem_singleton.mp hc)
      · cases hc

/-- The path behind a network location is absolute. -/
theorem Located.head?_path (h : Located url scheme netloc rest) :
  ∀ c ∈ (partsOf scheme netloc rest).path.head?, c = 0x2F
  := by
  intro c hc
  rw [path_partsOf] at hc
  cases rest with
  | nil => cases hc
  | cons d rest =>
    have hd : IsDelimiter d := h.delimited d rfl
    rw [List.takeWhile_cons] at hc
    split_ifs at hc with hmark
    · cases hc
      rw [decide_eq_true_eq] at hmark
      unfold IsDelimiter at hd
      unfold IsMark at hmark
      tauto
    · cases hc

/-- Behind a network location, slashes at the end are replaced by another end. -/
theorem Located.extend {base : List CodePoint} {n : ℕ}
    (h : Located (base ++ List.replicate n 0x2F) scheme netloc rest) (ending : List CodePoint)
    (hending : ∀ c ∈ (unbroken ending).head?, IsDelimiter c) :
  ∃ rest', rest = rest' ++ List.replicate n 0x2F
    ∧ Located (base ++ ending) scheme netloc (rest' ++ unbroken ending)
  := by
  obtain ⟨front, hfront, hlower, hclean⟩ := h.front
  have hslashes : unbroken (List.replicate n 0x2F) = List.replicate n 0x2F := by
    apply unbroken_eq_self
    intro c hc
    rw [List.eq_of_mem_replicate hc]
    decide
  have hbase : base.dropWhile (fun c => IsControlOrSpace c) ≠ [] := by
    intro hnil
    obtain ⟨c, front', rfl, hc⟩ := isLetter_of_isScheme hfront
    have hmem : c ∈ clean (base ++ List.replicate n 0x2F) := by
      rw [hclean]
      exact List.mem_append_left _ List.mem_cons_self
    rw [clean, List.dropWhile_append, if_pos (by simp [hnil])] at hmem
    have hslash := List.mem_of_mem_filter hmem
    rw [List.eq_of_mem_replicate (List.dropWhile_subset _ hslash)] at hc
    exact absurd hc (by decide)
  rw [clean_append hbase, hslashes] at hclean
  have hlocation : (front ++ 0x3A :: 0x2F :: 0x2F :: netloc) ++ rest
      = clean base ++ List.replicate n 0x2F := by
    rw [hclean]
    simp
  have hlast : (front ++ 0x3A :: 0x2F :: 0x2F :: netloc).getLast? ≠ some 0x2F := by
    have hnetloc : front ++ 0x3A :: 0x2F :: 0x2F :: netloc
        = (front ++ [0x3A, 0x2F, 0x2F]) ++ netloc := by simp
    rw [hnetloc, List.getLast?_append_of_ne_nil _ h.nonempty,
      List.getLast?_eq_some_getLast h.nonempty]
    intro hslash
    apply h.undelimited _ (List.getLast_mem h.nonempty)
    rw [Option.some.inj hslash]
    decide
  obtain ⟨rest', hrest', hrest⟩ := exists_append_of_replicate hlocation hlast
  use rest', hrest
  constructor
  · use front, hfront, hlower
    rw [clean_append hbase, hrest']
    simp
  · exact h.nonempty
  · exact h.undelimited
  · cases rest' with
    | nil => exact hending
    | cons c rest' =>
      rw [hrest] at h
      exact h.delimited

/-- Join the parts of a URL, and split it again. -/
theorem located_unsplit {parts : Parts} (hscheme : isScheme parts.scheme = true)
    (hlower : parts.scheme.map lowerChar = parts.scheme) (hnetloc : parts.netloc ≠ [])
    (hundelimited : ∀ c ∈ parts.netloc, ¬ IsDelimiter c)
    (hunbroken : ∀ c ∈ parts.netloc, ¬ IsRemoved c) (hpath : ∀ c ∈ parts.path.head?, c = 0x2F)
    (hfragment : parts.fragment = []) :
  Located (unsplit parts) parts.scheme parts.netloc
    (unbroken (parts.path ++ (if parts.query = [] then [] else 0x3F :: parts.query)))
  := by
  obtain ⟨c, scheme, hc, hletter⟩ := isLetter_of_isScheme hscheme
  have hne : parts.scheme ≠ [] := by simp [hc]
  have hslash : ¬ (parts.path ≠ [] ∧ parts.path.head? ≠ some 0x2F) := by
    rintro ⟨hne, hhead⟩
    cases hcase : parts.path with
    | nil => exact hne hcase
    | cons c path =>
      rw [hcase] at hpath hhead
      exact hhead (congrArg some (hpath c rfl))
  have hunsplit : unsplit parts = parts.scheme ++ 0x3A :: 0x2F :: 0x2F :: (parts.netloc
      ++ (parts.path ++ (if parts.query = [] then [] else 0x3F :: parts.query))) := by
    simp only [unsplit, if_neg hslash, if_neg hne, hfragment, if_true]
    split_ifs <;> simp
  have hkept : unbroken parts.scheme = parts.scheme := by
    apply unbroken_eq_self
    intro d hd
    rw [isScheme, Bool.and_eq_true, List.all_eq_true] at hscheme
    have hchar := hscheme.2 d hd
    rw [decide_eq_true_eq] at hchar
    rintro (rfl | rfl | rfl) <;> revert hchar <;> decide
  constructor
  · use parts.scheme, hscheme, hlower
    have hdrop : (unsplit parts).dropWhile (fun c => IsControlOrSpace c) = unsplit parts := by
      rw [hunsplit, hc, List.cons_append,
        List.dropWhile_cons_of_neg (by simpa using hletter.not_isControlOrSpace)]
    have hslashes : ∀ rest, unbroken (0x3A :: 0x2F :: 0x2F :: rest)
        = 0x3A :: 0x2F :: 0x2F :: unbroken rest := fun _ => rfl
    rw [clean, hdrop, hunsplit, unbroken_append, hkept, hslashes, unbroken_append,
      unbroken_eq_self hunbroken]
  · exact hnetloc
  · exact hundelimited
  · intro d hd
    cases hcase : parts.path with
    | cons e path =>
      rw [hcase] at hd hpath
      obtain rfl : e = 0x2F := hpath e rfl
      rw [List.cons_append, unbroken, List.filter_cons_of_pos (by decide)] at hd
      cases hd
      decide
    | nil =>
      rw [hcase, List.nil_append] at hd
      split_ifs at hd
      · cases hd
      · rw [unbroken, List.filter_cons_of_pos (by decide)] at hd
        cases hd
        decide

/-! ### Queries -/

/-- A character of one byte. -/
def IsAscii (c : CodePoint) : Prop :=
  c.val < 0x80

instance : DecidablePred IsAscii :=
  fun _ => inferInstanceAs (Decidable (_ < _))

/-- A text with its escape sequences decoded, which are looked for in its ASCII characters. -/
def unquote (text : List CodePoint) : List CodePoint :=
  (text.splitBy (fun c d => decide (IsAscii c ↔ IsAscii d))).flatMap (fun run =>
    if run.all (fun c => IsAscii c) then decodeReplace (percentDecode run) else run)

/-- Percent-encode a text for a query, with plus signs for its spaces. -/
def quotePlus (text : List CodePoint) : List CodePoint :=
  (quote [0x20] text).map (fun c => if c = 0x20 then 0x2B else c)

/-- Decode a text of a query. -/
def unquotePlus (text : List CodePoint) : List CodePoint :=
  unquote (text.map (fun c => if c = 0x2B then 0x20 else c))

/-- The pairs of a query, also those without a value. -/
def parseQsl (query : List CodePoint) : List (List CodePoint × List CodePoint) :=
  ((query.splitOn 0x26).filter (fun pair => pair ≠ [])).map (fun pair =>
    (unquotePlus (partition 0x3D pair).1, unquotePlus (partition 0x3D pair).2))

/-- A pair of a query. -/
def encodePair (pair : List CodePoint × List CodePoint) : List CodePoint :=
  quotePlus pair.1 ++ 0x3D :: quotePlus pair.2

/-- The query of some pairs. -/
def urlencode (pairs : List (List CodePoint × List CodePoint)) : List CodePoint :=
  [0x26].intercalate (pairs.map encodePair)

theorem unquote_of_isAscii {text : List CodePoint} (h : ∀ c ∈ text, IsAscii c) :
  unquote text = decodeReplace (percentDecode text)
  := by
  by_cases hnil : text = []
  · subst hnil
    rfl
  · have hchain : text.IsChain (fun c d => decide (IsAscii c ↔ IsAscii d) = true) := by
      apply List.Pairwise.isChain
      apply List.pairwise_of_forall_mem_list
      intro c hc d hd
      simp [h c hc, h d hd]
    have hall : text.all (fun c => IsAscii c) = true := by
      rw [List.all_eq_true]
      intro c hc
      simpa using h c hc
    rw [unquote, List.splitBy_of_isChain hnil hchain, List.flatMap_singleton, if_pos hall]

/-- The characters of an encoded text of a query. -/
theorem forall_mem_quotePlus {P : CodePoint → Prop} (hunreserved : ∀ c, IsUnreserved c → P c)
    (hplus : P 0x2B) (hpercent : P 0x25) (text : List CodePoint) :
  ∀ c ∈ quotePlus text, P c
  := by
  intro c hc
  obtain ⟨d, hd, rfl⟩ := List.mem_map.mp hc
  have hkept : ∀ c ∈ quote [0x20] text, c ≠ 0x20 → P c := by
    apply forall_mem_quote
    · intro c hc _
      exact hunreserved c hc
    · intro c hc hne
      exact absurd (List.mem_singleton.mp hc) hne
    · intro _
      exact hpercent
  split_ifs with hspace
  · exact hplus
  · exact hkept d hd hspace

theorem notMem_quotePlus {c : CodePoint} (hunreserved : ¬ IsUnreserved c) (hplus : c ≠ 0x2B)
    (hpercent : c ≠ 0x25) (text : List CodePoint) :
  c ∉ quotePlus text
  := by
  intro hc
  have hne : ∀ d ∈ quotePlus text, d ≠ c := by
    apply forall_mem_quotePlus
    · intro d hd hdc
      exact hunreserved (hdc ▸ hd)
    · exact hplus.symm
    · exact hpercent.symm
  exact hne c hc rfl

theorem unquotePlus_quotePlus {text : List CodePoint} (h : Encodable text) :
  unquotePlus (quotePlus text) = text
  := by
  have hascii : ∀ c ∈ quote [0x20] text, IsAscii c := by
    apply forall_mem_quote
    · intro c hc
      unfold IsUnreserved at hc
      unfold IsAscii
      rcases hc with hc | hc | hc | rfl | rfl | rfl | rfl
      · omega
      · omega
      · omega
      all_goals decide
    · intro c hc
      obtain rfl := List.mem_singleton.mp hc
      decide
    · decide
  have hplus : ∀ c ∈ quote [0x20] text, c ≠ 0x2B := by
    apply forall_mem_quote
    · rintro c hc rfl
      exact absurd hc (by decide)
    · intro c hc
      obtain rfl := List.mem_singleton.mp hc
      decide
    · decide
  have hspaces : (quotePlus text).map (fun c => if c = 0x2B then 0x20 else c)
      = (quote [0x20] text).map id := by
    rw [quotePlus, List.map_map]
    apply List.map_congr_left
    intro c hc
    rw [Function.comp_apply, id]
    split_ifs with hspace hne
    · exact hspace.symm
    · exact absurd rfl hne
    · exact absurd ‹c = 0x2B› (hplus c hc)
    · rfl
  have hdecode : percentDecode (quote [0x20] text ++ []) = bytes text ++ percentDecode [] :=
    percentDecode_quote (by decide) text []
  rw [List.append_nil] at hdecode
  rw [unquotePlus, hspaces, List.map_id, unquote_of_isAscii hascii, hdecode]
  exact (congrArg decodeReplace (List.append_nil _)).trans (decodeReplace_bytes h)

/-- A query is split into the pairs of which it was made. -/
theorem parseQsl_urlencode {pairs : List (List CodePoint × List CodePoint)}
    (h : ∀ pair ∈ pairs, Encodable pair.1 ∧ Encodable pair.2) :
  parseQsl (urlencode pairs) = pairs
  := by
  by_cases hnil : pairs = []
  · subst hnil
    rfl
  · have hsplit : (urlencode pairs).splitOn 0x26 = pairs.map encodePair := by
      apply List.splitOn_intercalate
      · intro text htext
        obtain ⟨pair, -, rfl⟩ := List.mem_map.mp htext
        rw [encodePair, List.mem_append, List.mem_cons, not_or, not_or]
        constructor
        · exact notMem_quotePlus (by decide) (by decide) (by decide) _
        · constructor
          · decide
          · exact notMem_quotePlus (by decide) (by decide) (by decide) _
      · simpa using hnil
    have hfilter : (pairs.map encodePair).filter (fun pair => pair ≠ []) = pairs.map encodePair := by
      rw [List.filter_eq_self]
      intro text htext
      obtain ⟨pair, -, rfl⟩ := List.mem_map.mp htext
      simp [encodePair]
    have hpair : ∀ pair ∈ pairs,
        (unquotePlus (partition 0x3D (encodePair pair)).1,
          unquotePlus (partition 0x3D (encodePair pair)).2) = pair := by
      intro pair hpair
      obtain ⟨hkey, hvalue⟩ := h pair hpair
      have hequals := notMem_quotePlus (c := 0x3D) (by decide) (by decide) (by decide) pair.1
      rw [encodePair, partition_append hequals, unquotePlus_quotePlus hkey,
        unquotePlus_quotePlus hvalue]
    rw [parseQsl, hsplit, hfilter, List.map_map]
    exact (List.map_congr_left hpair).trans (List.map_id _)

/-! ### Queries behind a path -/

/-- The query of what stands behind a network location. -/
def queryOf (rest : List CodePoint) : List CodePoint :=
  (partition 0x3F (partition 0x23 rest).1).2

theorem query_partsOf (scheme netloc rest : List CodePoint) :
  (partsOf scheme netloc rest).query = queryOf rest
  := rfl

theorem partition_append_of_notMem {c : CodePoint} {front : List CodePoint} (h : c ∉ front)
    (back : List CodePoint) :
  partition c (front ++ back) = (front ++ (partition c back).1, (partition c back).2)
  := by
  have hfront : ∀ d ∈ front, decide (d ≠ c) = true := by
    intro d hd
    rw [decide_eq_true_eq]
    rintro rfl
    exact h hd
  rw [partition, List.takeWhile_append_of_pos hfront, List.dropWhile_append_of_pos hfront, partition]

theorem partition_append_of_mem {c : CodePoint} {front : List CodePoint} (h : c ∈ front)
    (back : List CodePoint) :
  (partition c (front ++ back)).1 = (partition c front).1
  := by
  obtain ⟨front, middle, rfl, hc⟩ := List.eq_append_cons_of_mem h
  rw [List.append_assoc, List.cons_append, partition_append hc, partition_append hc]

theorem queryOf_append_of_plain {front : List CodePoint} (h : ∀ c ∈ front, ¬ IsMark c)
    (rest : List CodePoint) :
  queryOf (front ++ rest) = queryOf rest
  := by
  have hfragment : 0x23 ∉ front := fun hc => h _ hc (Or.inr rfl)
  have hquery : 0x3F ∉ front := fun hc => h _ hc (Or.inl rfl)
  rw [queryOf, partition_append_of_notMem hfragment, partition_append_of_notMem hquery, queryOf]

/-- A query stays what it is, up to the mark of a fragment and without tabs and line breaks. -/
def IsPlainQuery (query : List CodePoint) : Prop :=
  ∀ c ∈ query, c ≠ 0x23 ∧ ¬ IsRemoved c

instance : DecidablePred IsPlainQuery :=
  fun query => List.decidableBAll _ query

theorem partition_cons_of_ne {c d : CodePoint} (h : d ≠ c) (text : List CodePoint) :
  (partition c (d :: text)).1 = d :: (partition c text).1
  := by
  rw [partition, List.takeWhile_cons_of_pos (by simpa using h), partition]

theorem queryOf_append_mark {front : List CodePoint} (hfragment : 0x23 ∉ front)
    (hquery : 0x3F ∉ front) (back : List CodePoint) :
  queryOf (front ++ 0x3F :: back) = (partition 0x23 back).1
  := by
  rw [queryOf, partition_append_of_notMem hfragment, partition_cons_of_ne (by decide),
    partition_append hquery]

theorem isPlainQuery_partition (query : List CodePoint) :
  IsPlainQuery (partition 0x23 (unbroken query)).1
  := by
  intro c hc
  constructor
  · simpa using List.mem_takeWhile_imp hc
  · exact not_isRemoved_of_mem_unbroken ((List.takeWhile_prefix _).subset hc)

theorem partition_unbroken_eq_self_iff (query : List CodePoint) :
  (partition 0x23 (unbroken query)).1 = query ↔ IsPlainQuery query
  := by
  constructor
  · intro h
    rw [← h]
    exact isPlainQuery_partition query
  · intro h
    rw [unbroken_eq_self (fun c hc => (h c hc).2),
      partition_of_notMem (fun hc => (h _ hc).1 rfl)]

/-- A path with a query behind it. -/
def withQuery (path query : List CodePoint) : List CodePoint :=
  if query ≠ [] then path ++ 0x3F :: query else path

theorem withQuery_append (front path query : List CodePoint) :
  withQuery (front ++ path) query = front ++ withQuery path query
  := by
  unfold withQuery
  split_ifs
  · exact List.append_assoc _ _ _
  · rfl

/-- The query behind a path is read as it is exactly when the path has no mark and the query has
nothing that is not read, or when the path has this query itself and nothing is read behind it. -/
theorem queryOf_withQuery_iff (path query : List CodePoint) :
  queryOf (unbroken (withQuery path query)) = query
    ↔ ((∀ c ∈ unbroken path, ¬ IsMark c) ∧ IsPlainQuery query)
      ∨ (queryOf (unbroken path) = query ∧ (0x23 ∈ unbroken path ∨ query = []))
  := by
  have hwith : query ≠ [] →
      unbroken (withQuery path query) = unbroken path ++ 0x3F :: unbroken query := by
    intro hne
    rw [withQuery, if_pos hne, unbroken_append]
    rfl
  by_cases hnil : query = []
  · subst hnil
    rw [withQuery, if_neg (by simp)]
    constructor
    · intro h
      exact Or.inr ⟨h, Or.inr rfl⟩
    · rintro (⟨hplain, -⟩ | ⟨h, -⟩)
      · have happend := queryOf_append_of_plain hplain []
        rwa [List.append_nil] at happend
      · exact h
  · rw [hwith hnil]
    by_cases hfragment : 0x23 ∈ unbroken path
    · have hmark : ¬ ∀ c ∈ unbroken path, ¬ IsMark c := fun h => h _ hfragment (Or.inr rfl)
      rw [queryOf, partition_append_of_mem hfragment, ← queryOf]
      simp [hfragment, hmark]
    · by_cases hquery : 0x3F ∈ unbroken path
      · have hmark : ¬ ∀ c ∈ unbroken path, ¬ IsMark c := fun h => h _ hquery (Or.inl rfl)
        apply iff_of_false
        · -- a query that begins with the path's own query and goes on with itself is too long
          intro h
          obtain ⟨front, back, hpath, hfront⟩ := List.eq_append_cons_of_mem hquery
          rw [hpath, List.mem_append, List.mem_cons, not_or, not_or] at hfragment
          rw [hpath, List.append_assoc, List.cons_append, queryOf_append_mark hfragment.1 hfront,
            partition_append_of_notMem hfragment.2.2] at h
          have hplain : IsPlainQuery query := by
            intro c hc
            rw [← h] at hc
            rcases List.mem_append.mp hc with hc | hc
            · have hmem : c ∈ unbroken path := by
                rw [hpath]
                exact List.mem_append_right _ (List.mem_cons_of_mem _ hc)
              exact ⟨fun hne => hfragment.2.2 (hne ▸ hc), not_isRemoved_of_mem_unbroken hmem⟩
            · rcases List.mem_cons.mp hc with rfl | hc
              · decide
              · exact (isPlainQuery_partition query) c hc
          have hlength := congrArg List.length h
          rw [partition_cons_of_ne (by decide), (partition_unbroken_eq_self_iff query).mpr hplain,
            List.length_append, List.length_cons] at hlength
          omega
        · simp [hmark, hfragment, hnil]
      · rw [queryOf_append_mark hfragment hquery, partition_unbroken_eq_self_iff]
        have hplain : ∀ c ∈ unbroken path, ¬ IsMark c := by
          rintro c hc (rfl | rfl)
          · exact hquery hc
          · exact hfragment hc
        simp only [hfragment, hnil, or_self, and_false, or_false]
        exact (and_iff_right hplain).symm

/-! ### Decoded texts -/

theorem unquote_append {text text' : List CodePoint}
    (h : ∀ c ∈ text.getLast?, ∀ d ∈ text'.head?, ¬ (IsAscii c ↔ IsAscii d)) :
  unquote (text ++ text') = unquote text ++ unquote text'
  := by
  rw [unquote, List.splitBy_append, List.flatMap_append, unquote, unquote]
  intro c hc d hd
  rw [decide_eq_false_iff_not]
  exact h c hc d hd

theorem unquote_of_forall_not_isAscii {text : List CodePoint} (h : ∀ c ∈ text, ¬ IsAscii c) :
  unquote text = text
  := by
  cases text with
  | nil => rfl
  | cons c text =>
    have hchain : (c :: text).IsChain (fun c d => decide (IsAscii c ↔ IsAscii d) = true) := by
      apply List.Pairwise.isChain
      apply List.pairwise_of_forall_mem_list
      intro c hc d hd
      simp [h c hc, h d hd]
    have hall : (c :: text).all (fun c => IsAscii c) = false := by
      simp [h c List.mem_cons_self]
    rw [unquote, List.splitBy_of_isChain (by simp) hchain, List.flatMap_singleton, hall]
    rfl

theorem hexValue_of_not_isAscii {c : CodePoint} (h : ¬ IsAscii c) :
  hexValue c = none
  := by
  unfold IsAscii at h
  rw [hexValue, if_neg (by omega), if_neg (by omega), if_neg (by omega)]

/-- A character that is not ASCII is decoded on its own. -/
theorem decodeReplace_percentDecode_append {c : CodePoint} (hascii : ¬ IsAscii c)
    (hc : ¬ IsSurrogate c) (text rest : List CodePoint) :
  decodeReplace (percentDecode (text ++ c :: rest))
    = decodeReplace (percentDecode text) ++ c :: decodeReplace (percentDecode rest)
  := by
  have hne : c ≠ 0x25 := by
    rintro rfl
    exact hascii (by decide)
  rw [percentDecode_append (hexValue_of_not_isAscii hascii), percentDecode_cons_of_ne hne,
    decodeReplace_append_encodeChar _ hc]

theorem decodeReplace_percentDecode_append_of_forall {front : List CodePoint}
    (h : ∀ c ∈ front, ¬ IsAscii c) (hencodable : Encodable front) (rest : List CodePoint) :
  decodeReplace (percentDecode (front ++ rest)) = front ++ decodeReplace (percentDecode rest)
  := by
  induction front with
  | nil => rfl
  | cons c front ih =>
    rw [List.forall_mem_cons] at h
    obtain ⟨hc, hfront⟩ := encodable_cons.mp hencodable
    have hcons : decodeReplace (percentDecode ([] ++ c :: (front ++ rest)))
        = [] ++ c :: decodeReplace (percentDecode (front ++ rest)) :=
      decodeReplace_percentDecode_append h.1 hc [] _
    rw [List.nil_append, List.nil_append, ih h.2 hfront] at hcons
    exact hcons

/-- A text with an encoding may as well be decoded as a whole. -/
theorem unquote_eq {text : List CodePoint} (h : Encodable text) :
  unquote text = decodeReplace (percentDecode text)
  := by
  induction hn : text.length using Nat.strong_induction_on generalizing text with
  | _ n ih =>
  subst hn
  let front := text.takeWhile (fun c => IsAscii c)
  let back := text.dropWhile (fun c => IsAscii c)
  have hsplit : front ++ back = text := List.takeWhile_append_dropWhile
  have hfront : ∀ c ∈ front, IsAscii c := by
    intro c hc
    simpa using List.mem_takeWhile_imp hc
  have hback : ∀ c ∈ back.head?, ¬ IsAscii c := by
    intro c hc
    have hdrop := List.head?_dropWhile_not (fun c => decide (IsAscii c)) text
    rw [Option.mem_def.mp hc] at hdrop
    simpa using hdrop
  have hbackEncodable : Encodable back := h.of_suffix (List.dropWhile_suffix _)
  clear_value front back
  cases front with
  | cons d front =>
    -- the ASCII characters in front are decoded together
    have happend : unquote ((d :: front) ++ back) = unquote (d :: front) ++ unquote back := by
      apply unquote_append
      intro c hc e he hiff
      exact hback e he (hiff.mp (hfront c (List.mem_of_getLast? hc)))
    have hlength : back.length < text.length := by
      rw [← hsplit, List.length_append, List.length_cons]
      omega
    rw [← hsplit, happend, unquote_of_isAscii hfront, ih _ hlength hbackEncodable rfl]
    cases back with
    | nil =>
      have hnil : decodeReplace (percentDecode []) = [] := rfl
      rw [hnil, List.append_nil, List.append_nil]
    | cons e back =>
      have he : ¬ IsAscii e := hback e rfl
      have hsurrogate := (encodable_cons.mp hbackEncodable).1
      have hcons : decodeReplace (percentDecode ([] ++ e :: back))
          = [] ++ e :: decodeReplace (percentDecode back) :=
        decodeReplace_percentDecode_append he hsurrogate [] back
      rw [decodeReplace_percentDecode_append he hsurrogate]
      exact congrArg _ hcons
  | nil =>
    -- the other characters in front stay what they are
    rw [List.nil_append] at hsplit
    subst hsplit
    let others := back.takeWhile (fun c => ¬ IsAscii c)
    let rest := back.dropWhile (fun c => ¬ IsAscii c)
    have hsplit : others ++ rest = back := List.takeWhile_append_dropWhile
    have hothers : ∀ c ∈ others, ¬ IsAscii c := by
      intro c hc
      simpa using List.mem_takeWhile_imp hc
    have hrest : ∀ c ∈ rest.head?, IsAscii c := by
      intro c hc
      have hdrop := List.head?_dropWhile_not (fun c => decide (¬ IsAscii c)) back
      rw [Option.mem_def.mp hc] at hdrop
      simpa using hdrop
    have hlength : back ≠ [] → rest.length < back.length := by
      intro hne
      have hothersNe : others ≠ [] := by
        cases back with
        | nil => exact absurd rfl hne
        | cons c back =>
          have hc : ¬ IsAscii c := hback c rfl
          simp [others, hc]
      have hpos := List.length_pos_of_ne_nil hothersNe
      rw [← hsplit, List.length_append]
      omega
    have hrestEncodable : Encodable rest := h.of_suffix (List.dropWhile_suffix _)
    have hothersEncodable : Encodable others := by
      intro c hc
      exact h c (hsplit ▸ List.mem_append_left _ hc)
    clear_value others rest
    by_cases hnil : back = []
    · subst hnil
      rfl
    · have happend : unquote (others ++ rest) = unquote others ++ unquote rest := by
        apply unquote_append
        intro c hc e he hiff
        exact hothers c (List.mem_of_getLast? hc) (hiff.mpr (hrest e he))
      have hrestUnquote := ih _ (hlength hnil) hrestEncodable rfl
      rw [← hsplit, happend, unquote_of_forall_not_isAscii hothers, hrestUnquote,
        decodeReplace_percentDecode_append_of_forall hothers hothersEncodable]

/-- A text stays what it is when it is decoded, unless it has an escape sequence. -/
theorem unquote_of_not_hasEscape {text : List CodePoint} (hencodable : Encodable text)
    (h : ¬ HasEscape text) :
  unquote text = text
  := by
  rw [unquote_eq hencodable, percentDecode_of_not_hasEscape h, decodeReplace_bytes hencodable]

/-- A text with an escape sequence becomes shorter when it is decoded. -/
theorem length_unquote_lt {text : List CodePoint} (hencodable : Encodable text)
    (h : HasEscape text) :
  (unquote text).length < text.length
  := by
  rw [unquote_eq hencodable]
  exact (length_decodeReplace_percentDecodeFrom hencodable 0 (Nat.zero_le _)).2 h

end Url
