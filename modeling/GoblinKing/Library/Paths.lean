import GoblinKing.Library.Labels
import Mathlib.Algebra.Order.BigOperators.Group.List
import Mathlib.Algebra.Order.Group.Nat
import Mathlib.Data.Int.Notation
import Mathlib.Data.List.Basic
import Mathlib.Algebra.GroupWithZero.Nat

/-!
# Paths in a file tree

The paths of a POSIX file system, and what they resolve to in a tree with symbolic links. A path
is resolved from left to right: two dots go up from what has been resolved so far, and a link is
replaced by its target. Without links, resolving a path is putting its parts together.
-/

namespace Posix

/-- What is under a name in a directory. A link has the parts of its target, from the root or from
its own directory. -/
inductive Node where
  | file (modified : ℤ) (size : ℕ)
  | directory
  | link (absolute : Bool) (target : List String)
  deriving DecidableEq

/-- A file tree: what is under every sequence of names from the root. -/
structure FileTree where
  node : List String → Option Node

/-- A path by its parts, which are neither empty nor a single dot. -/
structure Path where
  absolute : Bool
  parts : List String
  deriving DecidableEq, Repr

/-- Split a text at the slashes. -/
def Path.parse (text : String) : Path where
  absolute := "/".toList.isPrefixOf text.toList
  parts := ((text.toList.splitOnP (fun c => c = '/')).map String.ofList).filter
    (fun part => !(part = "" || part = "."))

/-- A path behind another one; an absolute path stays what it is. -/
def Path.join (base path : Path) : Path :=
  if path.absolute then path else ⟨base.absolute, base.parts ++ path.parts⟩

/-- A part that stands for a name. -/
def Plain (part : String) : Prop :=
  '/' ∉ part.toList ∧ part ≠ "" ∧ part ≠ "." ∧ part ≠ ".."

/-- Resolve the parts of a path from a directory, in a number of steps at most: a path through a
loop of links does not end. -/
def FileTree.walk (tree : FileTree) : ℕ → List String → List String → Option (List String)
  | 0, _, _ => none
  | _ + 1, base, [] => some base
  | steps + 1, base, part :: rest =>
      if part = ".." then
        tree.walk steps base.dropLast rest
      else
        match tree.node (base ++ [part]) with
        | some (.link absolute target) =>
            tree.walk steps (if absolute then [] else base) (target ++ rest)
        | _ => tree.walk steps (base ++ [part]) rest

/-- A regular file is under a sequence of names. -/
def FileTree.isFile (tree : FileTree) (names : List String) : Bool :=
  match tree.node names with
  | some (.file _ _) => true
  | _ => false

/-- Remove what is under a sequence of names. -/
def FileTree.unlink (tree : FileTree) (names : List String) : FileTree where
  node other := if other = names then none else tree.node other

/-- A symbolic link is under a sequence of names. -/
def FileTree.isLink (tree : FileTree) (names : List String) : Bool :=
  match tree.node names with
  | some (.link _ _) => true
  | _ => false

/-- There is no link on the way from a directory along a sequence of names. -/
def FileTree.Unlinked (tree : FileTree) : List String → List String → Prop
  | _, [] => True
  | base, name :: names =>
      tree.isLink (base ++ [name]) = false ∧ tree.Unlinked (base ++ [name]) names

section

variable {tree : FileTree}

/-- A path that begins with names without links resolves from where these lead. -/
theorem FileTree.Unlinked.walk {steps : ℕ} {base names rest resolved : List String}
    (hlinks : tree.Unlinked base names) (hnames : ∀ name ∈ names, name ≠ "..")
    (h : tree.walk steps base (names ++ rest) = some resolved) :
  ∃ less, tree.walk less (base ++ names) rest = some resolved
  := by
  induction names generalizing steps base with
  | nil =>
      use steps
      rw [List.append_nil]
      apply h
  | cons name names ih =>
      cases steps with
      | zero => cases h
      | succ steps =>
          obtain ⟨hlink, hlinks⟩ := hlinks
          rw [List.cons_append, FileTree.walk, if_neg (hnames name List.mem_cons_self)] at h
          rw [List.append_cons]
          have hrest : tree.walk steps (base ++ [name]) (names ++ rest) = some resolved := by
            split at h
            case h_1 hnode => simp [FileTree.isLink, hnode] at hlink
            case h_2 => apply h
          apply ih hlinks (fun n hn => hnames n (List.mem_cons_of_mem name hn)) hrest

/-- Names without links resolve to themselves. -/
theorem FileTree.Unlinked.walk_eq {steps : ℕ} {base names resolved : List String}
    (hlinks : tree.Unlinked base names) (hnames : ∀ name ∈ names, name ≠ "..")
    (h : tree.walk steps base names = some resolved) :
  resolved = base ++ names
  := by
  rw [← List.append_nil names] at h
  obtain ⟨less, h⟩ := hlinks.walk hnames h
  cases less with
  | zero => cases h
  | succ less => apply (Option.some.inj h).symm

/-- Two dots at the end of a path lead to the directory above. -/
theorem FileTree.walk_up {steps : ℕ} {base resolved : List String}
    (h : tree.walk steps base [".."] = some resolved) :
  resolved = base.dropLast
  := by
  cases steps with
  | zero => cases h
  | succ steps =>
      rw [FileTree.walk, if_pos rfl] at h
      cases steps with
      | zero => cases h
      | succ steps => apply (Option.some.inj h).symm

/-- Files that are removed are gone, and everything else stays. -/
theorem FileTree.node_unlink_all {paths : List (List String)} {names : List String} :
  (paths.foldl FileTree.unlink tree).node names = if names ∈ paths then none else tree.node names
  := by
  induction paths generalizing tree with
  | nil => simp
  | cons path paths ih =>
      rw [List.foldl_cons, ih, FileTree.unlink]
      by_cases hpath : names = path
      · simp [hpath]
      · simp [hpath]

/-- A text without slashes is a single name, or none. -/
theorem parse_of_no_slash {text : String} (h : '/' ∉ text.toList) :
  Path.parse text = ⟨false, if text = "" || text = "." then [] else [text]⟩
  := by
  have habsolute : "/".toList.isPrefixOf text.toList = false := by
    rw [← Bool.not_eq_true, List.isPrefixOf_iff_prefix]
    intro hprefix
    apply h
    apply hprefix.subset
    decide
  have hsplit : text.toList.splitOnP (fun c => c = '/') = [text.toList] := by
    apply List.splitOnP_eq_singleton
    intro c hc
    rw [decide_eq_false_iff_not]
    rintro rfl
    apply h hc
  rw [Path.parse, habsolute, hsplit, List.map_singleton, String.ofList_toList]
  by_cases hempty : text = ""
  · simp [hempty]
  · by_cases hdot : text = "."
    · simp [hdot]
    · simp [hempty, hdot]

/-- Names without links resolve to themselves in enough steps. -/
theorem FileTree.Unlinked.walk_of_lt {steps : ℕ} {base names : List String}
    (hlinks : tree.Unlinked base names) (hnames : ∀ name ∈ names, name ≠ "..")
    (h : names.length < steps) :
  tree.walk steps base names = some (base ++ names)
  := by
  induction names generalizing steps base with
  | nil =>
      cases steps with
      | zero => cases h
      | succ steps => rw [FileTree.walk, List.append_nil]
  | cons name names ih =>
      cases steps with
      | zero => cases h
      | succ steps =>
          obtain ⟨hlink, hlinks⟩ := hlinks
          have hrest := ih hlinks (fun n hn => hnames n (List.mem_cons_of_mem name hn))
            (Nat.lt_of_succ_lt_succ h)
          rw [FileTree.walk, if_neg (hnames name List.mem_cons_self)]
          split
          case h_1 hnode => simp [FileTree.isLink, hnode] at hlink
          case h_2 => rw [hrest, List.append_cons base name names]

/-- In a tree without links, a path resolves to some of its own names. -/
theorem FileTree.walk_sublist (hlinks : ∀ names, tree.isLink names = false) {steps : ℕ}
    {base path names : List String} (h : tree.walk steps base path = some names) :
  names.Sublist (base ++ path)
  := by
  induction path generalizing steps base with
  | nil =>
      cases steps with
      | zero => cases h
      | succ steps => rw [← Option.some.inj h, List.append_nil]
  | cons part path ih =>
      cases steps with
      | zero => cases h
      | succ steps =>
          rw [FileTree.walk] at h
          split at h
          case isTrue =>
            apply (ih h).trans
            apply (List.dropLast_sublist base).append (List.sublist_cons_self part path)
          case isFalse =>
            split at h
            case h_1 hnode =>
              have hlink := hlinks (base ++ [part])
              simp [FileTree.isLink, hnode] at hlink
            case h_2 =>
              rw [List.append_cons]
              apply ih h

/-- Names with a slash in front of each of them. -/
def slashed (names : List String) : List Char :=
  names.flatMap (fun name => '/' :: name.toList)

theorem slashed_append (names names' : List String) :
  slashed (names ++ names') = slashed names ++ slashed names'
  := List.flatMap_append

/-- Names joined by slashes, with one more in front. -/
theorem slashed_eq_intercalate {names : List String} (h : names ≠ []) :
  slashed names = '/' :: ("/".intercalate names).toList
  := by
  induction names with
  | nil => exact absurd rfl h
  | cons name names ih =>
    cases names with
    | nil => simp [slashed]
    | cons name' names =>
      have hrest := ih (by simp)
      rw [String.toList_intercalate] at hrest ⊢
      rw [List.map_cons, List.map_cons, List.intercalate_cons_cons, ← List.map_cons,
        List.append_assoc]
      change '/' :: name.toList ++ slashed (name' :: names) = _
      rw [hrest]
      rfl

theorem length_slashed (names : List String) :
  (slashed names).length = (names.map (fun name => name.toList.length + 1)).sum
  := by
  simp [slashed, List.length_flatMap]

theorem length_slashed_le {names names' : List String} (h : names.Sublist names') :
  (slashed names).length ≤ (slashed names').length
  := by
  rw [length_slashed, length_slashed]
  exact (h.map _).sum_le_sum (by simp)

/-- A name that stands for a part of a path. -/
def IsPart (name : String) : Prop :=
  '/' ∉ name.toList ∧ name ≠ "" ∧ name ≠ "."

/-- The parts of a text, which are neither empty nor a single dot. -/
def textParts (text : List Char) : List String :=
  ((text.splitOnP (fun c => c = '/')).map String.ofList).filter
    (fun part => !(part = "" || part = "."))

theorem textParts_append_slash (text rest : List Char) :
  textParts (text ++ '/' :: rest) = textParts text ++ textParts rest
  := by
  rw [textParts, List.splitOnP_append_cons _ _ (by simp), List.map_append, List.filter_append,
    textParts, textParts]

theorem textParts_of_isPart {name : String} (h : IsPart name) :
  textParts name.toList = [name]
  := by
  have hparse := congrArg Path.parts (parse_of_no_slash h.1)
  rw [if_neg (by simp [h.2.1, h.2.2])] at hparse
  exact hparse

/-- A text of slashes and names has the names as its parts. -/
theorem textParts_append_slashed {names : List String} (h : ∀ name ∈ names, IsPart name)
    (text : List Char) :
  textParts (text ++ slashed names) = textParts text ++ names
  := by
  induction names generalizing text with
  | nil => simp [slashed]
  | cons name names ih =>
    rw [List.forall_mem_cons] at h
    have hcons : text ++ slashed (name :: names)
        = (text ++ '/' :: name.toList) ++ slashed names := by
      simp [slashed]
    rw [hcons, ih h.2, textParts_append_slash, textParts_of_isPart h.1, List.append_assoc,
      List.singleton_append]

/-- A text with a slash in front is an absolute path. -/
theorem parse_cons_slash (text : List Char) :
  Path.parse (String.ofList ('/' :: text)) = ⟨true, textParts ('/' :: text)⟩
  := by
  have hlist : (String.ofList ('/' :: text)).toList = '/' :: text := String.toList_ofList
  rw [Path.parse, hlist]
  rfl

theorem parse_slashed {names : List String} (hne : names ≠ []) (h : ∀ name ∈ names, IsPart name) :
  Path.parse (String.ofList (slashed names)) = ⟨true, names⟩
  := by
  have hnames : textParts ([] ++ slashed names) = textParts [] ++ names :=
    textParts_append_slashed h []
  rw [List.nil_append, slashed_eq_intercalate hne] at hnames
  rw [slashed_eq_intercalate hne, parse_cons_slash, hnames]
  rfl

theorem isPart_of_mem_textParts {text : List Char} {part : String} (h : part ∈ textParts text) :
  IsPart part
  := by
  rw [textParts, List.mem_filter] at h
  obtain ⟨hmem, hpart⟩ := h
  obtain ⟨piece, hpiece, rfl⟩ := List.mem_map.mp hmem
  constructor
  · intro hslash
    rw [String.toList_ofList] at hslash
    simpa using (Labels.of_mem_splitOnP hpiece hslash).1
  · simpa using hpart

/-- The names in a text are not longer than the text. -/
theorem length_slashed_textParts_le (text : List Char) :
  (slashed (textParts ('/' :: text))).length ≤ text.length + 1
  := by
  have hparts : textParts ('/' :: text) = textParts text := textParts_append_slash [] text
  have hpieces : (((text.splitOnP (fun c => c = '/')).map String.ofList).map
      (fun name => name.toList.length + 1)).sum = text.length + 1 := by
    have hlength : (fun name => name.toList.length + 1) ∘ String.ofList
        = fun piece => piece.length + 1 := by
      funext piece
      rw [Function.comp_apply, String.toList_ofList]
    rw [List.map_map, hlength, Labels.sum_length_splitOnP]
  rw [← hpieces, ← length_slashed, hparts]
  exact length_slashed_le List.filter_sublist

end

end Posix
