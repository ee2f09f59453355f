import GoblinKing.Library.Paths

/-!
# Resolving a path that must exist

A path is entered name by name: every name on the way must be there, and only the last one may be that of
a file. What a path leads to is reached without a link from the root, and names without links lead to
themselves. A file can also be opened beneath a directory that is open already, one directory after the
other and without following any link.
-/

namespace Posix

/-- Why a path does not resolve. -/
inductive ResolutionFailure where
  | notFound
  | notDirectory
  | tooManyLinks
  deriving DecidableEq, Repr

/-- Resolve the parts of a path from a directory, in a number of steps at most. -/
def FileTree.enter (tree : FileTree) :
    ℕ → List String → List String → Except ResolutionFailure (List String)
  | 0, _, _ => .error .tooManyLinks
  | _ + 1, base, [] => .ok base
  | steps + 1, base, part :: rest =>
      if part = ".." then
        tree.enter steps base.dropLast rest
      else
        match tree.node (base ++ [part]) with
        | none => .error .notFound
        | some (.link absolute target) =>
            tree.enter steps (if absolute then [] else base) (target ++ rest)
        | some .directory => tree.enter steps (base ++ [part]) rest
        | some (.file _ _) => if rest = [] then .ok (base ++ [part]) else .error .notDirectory

/-- What is at a path, without following a link at its end. -/
def FileTree.lookUp (tree : FileTree) (steps : ℕ) (base parts : List String) : Option Node :=
  match parts.getLast? with
  | none => some .directory
  | some last =>
      match tree.enter steps base parts.dropLast with
      | .error _ => none
      | .ok directory => if last = ".." then some .directory else tree.node (directory ++ [last])

/-- Open the directories of a path beneath an open one, and then what is at its end, without following
links. -/
def FileTree.openBeneath (tree : FileTree) : List String → List String → Option (List String)
  | _, [] => none
  | base, [last] =>
      match tree.node (base ++ [last]) with
      | some .directory | some (.file _ _) => some (base ++ [last])
      | some (.link _ _) | none => none
  | base, part :: rest =>
      match tree.node (base ++ [part]) with
      | some .directory => tree.openBeneath (base ++ [part]) rest
      | some (.file _ _) | some (.link _ _) | none => none

variable {tree : FileTree}

theorem FileTree.unlinked_append {base names rest : List String} :
  tree.Unlinked base (names ++ rest) ↔ tree.Unlinked base names ∧ tree.Unlinked (base ++ names) rest
  := by
  induction names generalizing base with
  | nil => simp [FileTree.Unlinked]
  | cons name names ih =>
      rw [List.cons_append, FileTree.Unlinked, FileTree.Unlinked, ih, ← List.append_cons, and_assoc]

/-- A directory above one that is reached without links is too. -/
theorem FileTree.unlinked_dropLast {names : List String} (h : tree.Unlinked [] names) :
  tree.Unlinked [] names.dropLast
  := by
  rcases List.eq_nil_or_concat' names with rfl | ⟨init, last, rfl⟩
  · exact h
  · rw [List.dropLast_concat]
    exact (FileTree.unlinked_append.mp h).1

/-- A name is reached without a link when there is none. -/
theorem FileTree.unlinked_concat {names : List String} {name : String} (h : tree.Unlinked [] names)
    (hlink : tree.isLink (names ++ [name]) = false) :
  tree.Unlinked [] (names ++ [name])
  := FileTree.unlinked_append.mpr ⟨h, hlink, trivial⟩

/-- What a path leads to is reached without links and without two dots. -/
theorem FileTree.enter_unlinked {steps : ℕ} {base parts names : List String}
    (hbase : tree.Unlinked [] base ∧ ".." ∉ base) (h : tree.enter steps base parts = .ok names) :
  tree.Unlinked [] names ∧ ".." ∉ names
  := by
  induction steps generalizing base parts with
  | zero => cases h
  | succ steps ih =>
      cases parts with
      | nil =>
          obtain rfl := Except.ok.inj h
          exact hbase
      | cons part rest =>
          rw [FileTree.enter] at h
          split at h
          case isTrue =>
            apply ih _ h
            exact ⟨FileTree.unlinked_dropLast hbase.1,
              fun hmem => hbase.2 (List.mem_of_mem_dropLast hmem)⟩
          case isFalse hpart =>
            have hconcat : tree.isLink (base ++ [part]) = false →
                tree.Unlinked [] (base ++ [part]) ∧ ".." ∉ base ++ [part] := by
              intro hlink
              use FileTree.unlinked_concat hbase.1 hlink
              intro hmem
              rcases List.mem_append.mp hmem with hmem | hmem
              · exact hbase.2 hmem
              · exact hpart (List.mem_singleton.mp hmem).symm
            split at h
            case h_1 => cases h
            case h_2 absolute target _ =>
              apply ih _ h
              cases absolute with
              | true => exact ⟨trivial, List.not_mem_nil⟩
              | false => exact hbase
            case h_3 hnode => exact ih (hconcat (by rw [FileTree.isLink, hnode])) h
            case h_4 hnode =>
              split at h
              case isTrue =>
                obtain rfl := Except.ok.inj h
                exact hconcat (by rw [FileTree.isLink, hnode])
              case isFalse => cases h

/-- A path that is entered is walked to the same names. -/
theorem FileTree.walk_of_enter {steps : ℕ} {base parts names : List String}
    (h : tree.enter steps base parts = .ok names) :
  ∃ more, tree.walk more base parts = some names
  := by
  induction steps generalizing base parts with
  | zero => cases h
  | succ steps ih =>
      cases parts with
      | nil => exact ⟨1, congrArg some (Except.ok.inj h)⟩
      | cons part rest =>
          rw [FileTree.enter] at h
          split at h
          case isTrue hpart =>
            obtain ⟨more, hwalk⟩ := ih h
            use more + 1
            rw [FileTree.walk, if_pos hpart, hwalk]
          case isFalse hpart =>
            split at h
            case h_1 => cases h
            case h_2 hnode =>
              obtain ⟨more, hwalk⟩ := ih h
              use more + 1
              rw [FileTree.walk, if_neg hpart, hnode]
              exact hwalk
            case h_3 hnode =>
              obtain ⟨more, hwalk⟩ := ih h
              use more + 1
              rw [FileTree.walk, if_neg hpart, hnode]
              exact hwalk
            case h_4 hnode =>
              split at h
              case isFalse => cases h
              case isTrue hrest =>
                obtain rfl := Except.ok.inj h
                use 2
                rw [FileTree.walk, if_neg hpart, hnode, hrest, FileTree.walk]

/-- What is opened beneath a directory is at the names of the path, and reached without links. -/
theorem FileTree.openBeneath_eq {base parts names : List String}
    (h : tree.openBeneath base parts = some names) :
  names = base ++ parts ∧ tree.Unlinked base parts ∧ parts ≠ []
  := by
  induction parts generalizing base with
  | nil => cases h
  | cons part rest ih =>
      cases rest with
      | nil =>
          rw [FileTree.openBeneath] at h
          split at h
          case h_1 hnode =>
            exact ⟨(Option.some.inj h).symm, ⟨by rw [FileTree.isLink, hnode], trivial⟩,
              List.cons_ne_nil _ _⟩
          case h_2 hnode =>
            exact ⟨(Option.some.inj h).symm, ⟨by rw [FileTree.isLink, hnode], trivial⟩,
              List.cons_ne_nil _ _⟩
          case h_3 => cases h
          case h_4 => cases h
      | cons next rest =>
          rw [FileTree.openBeneath] at h
          · split at h
            case h_1 hnode =>
              obtain ⟨rfl, hrest, -⟩ := ih h
              rw [← List.append_cons]
              exact ⟨rfl, ⟨by rw [FileTree.isLink, hnode], hrest⟩, List.cons_ne_nil _ _⟩
            case h_2 => cases h
            case h_3 => cases h
            case h_4 => cases h
          · exact List.cons_ne_nil _ _

end Posix
