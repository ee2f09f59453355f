import GoblinKing.Api.Artifacts
import GoblinKing.Library.Prefixes
import Mathlib.Order.Bounds.Defs

/-!
# Which artifact files a cleanup selects

The files come the oldest first. The age limit selects a prefix of them, the limit for all bytes
selects a prefix as well, and together they select the longer of the two, which is the shortest prefix
that meets both limits. The source collects the files in sets, so that files of the same time may be
reported in another order.
-/

namespace GoblinKing

open Posix

variable {tree : FileTree} {request : ArtifactCleanupRequest} {now : Instant}
  {paths : List (List String)}

/-- The files with the oldest first, none of them twice. -/
structure OldestFirst (tree : FileTree) (paths : List (List String)) : Prop where
  sorted : paths.Pairwise (fun a b => modified tree a ≤ modified tree b)
  nodup : paths.Nodup

/-- A file is at least as old as the limit says. -/
def IsAged (tree : FileTree) (now : Instant) (seconds : ℕ) (path : List String) : Prop :=
  (seconds : ℤ) * 1000000 ≤ now - modified tree path

instance (tree : FileTree) (now : Instant) (seconds : ℕ) : DecidablePred (IsAged tree now seconds) :=
  fun _ => inferInstanceAs (Decidable (_ ≤ _))

/-- A prefix of the files is long enough: it has every file that is old enough, and the files behind
it are not too many bytes. -/
structure Sufficient (tree : FileTree) (request : ArtifactCleanupRequest) (now : Instant)
    (paths : List (List String)) (n : ℕ) : Prop where
  aged : ∀ seconds, request.maxAgeSeconds = some seconds →
    ∀ path ∈ paths, IsAged tree now seconds path → path ∈ paths.take n
  within : ∀ limit, request.maxTotalBytes = some limit →
    ((paths.drop n).map (sizeOfFile tree)).sum ≤ limit

/-- The files that the age limit selects. -/
def agedFiles (tree : FileTree) (now : Instant) (paths : List (List String)) :
    Option ℕ → List (List String)
  | none => []
  | some seconds => paths.filter (fun path => decide (IsAged tree now seconds path))

/-- The files that the limit for all bytes selects. -/
def excessFiles (tree : FileTree) (paths : List (List String)) : Option ℕ → List (List String)
  | none => []
  | some limit => beyondTotal tree limit ((paths.map (sizeOfFile tree)).sum) paths

theorem selectArtifactCleanupCandidates_eq :
  selectArtifactCleanupCandidates tree request now paths
    = (agedFiles tree now paths request.maxAgeSeconds
        ++ excessFiles tree paths request.maxTotalBytes).eraseDups.insertionSort
      (fun a b => modified tree a ≤ modified tree b)
  := by
  cases request with
  | mk dryRun maxAgeSeconds maxTotalBytes =>
      cases maxAgeSeconds <;> cases maxTotalBytes <;> rfl

/-! ### The two limits -/

/-- The files that are old enough are a prefix. -/
theorem exists_take_aged (now : Instant) (h : OldestFirst tree paths) (seconds : ℕ) :
  ∃ n ≤ paths.length,
    paths.filter (fun path => decide (IsAged tree now seconds path)) = paths.take n
  := by
  have holder : paths.Pairwise (fun a b => decide (IsAged tree now seconds b) = true
      → decide (IsAged tree now seconds a) = true) := by
    apply h.sorted.imp
    intro a b hab hb
    rw [decide_eq_true_iff, IsAged] at hb ⊢
    exact le_trans hb (Int.sub_le_sub_left hab now)
  rw [List.filter_eq_takeWhile holder]
  use (paths.takeWhile (fun path => decide (IsAged tree now seconds path))).length
  constructor
  · apply (List.takeWhile_prefix _).length_le
  · exact List.prefix_iff_eq_take.mp (List.takeWhile_prefix _)

/-- The files that are too many for the limit are the shortest prefix that leaves not too many bytes. -/
theorem exists_take_beyondTotal (tree : FileTree) (limit : ℕ) (paths : List (List String)) :
  ∃ n ≤ paths.length,
    beyondTotal tree limit ((paths.map (sizeOfFile tree)).sum) paths = paths.take n
    ∧ ((paths.drop n).map (sizeOfFile tree)).sum ≤ limit
    ∧ ∀ m, ((paths.drop m).map (sizeOfFile tree)).sum ≤ limit → n ≤ m
  := by
  induction paths with
  | nil =>
      use 0
      simp [beyondTotal]
  | cons path paths ih =>
      rw [beyondTotal]
      by_cases hlimit : ((path :: paths).map (sizeOfFile tree)).sum ≤ limit
      · use 0
        rw [if_pos hlimit]
        exact ⟨Nat.zero_le _, rfl, hlimit, fun m _ => Nat.zero_le m⟩
      · obtain ⟨n, hn, hbeyond, hwithin, hleast⟩ := ih
        have hrest : ((path :: paths).map (sizeOfFile tree)).sum - sizeOfFile tree path
            = (paths.map (sizeOfFile tree)).sum := by
          rw [List.map_cons, List.sum_cons, Nat.add_sub_cancel_left]
        rw [if_neg hlimit, hrest, hbeyond]
        use n + 1, Nat.succ_le_succ hn, rfl, hwithin
        intro m hm
        cases m with
        | zero => exact absurd hm hlimit
        | succ m => exact Nat.succ_le_succ (hleast m hm)

/-- The age limit selects a prefix that is in every sufficient one, and every longer one has all files
that are old enough. -/
theorem exists_take_agedFiles (request : ArtifactCleanupRequest) (now : Instant)
    (h : OldestFirst tree paths) :
  ∃ a, agedFiles tree now paths request.maxAgeSeconds = paths.take a
    ∧ (∀ m, Sufficient tree request now paths m → a ≤ m)
    ∧ ∀ n, a ≤ n → ∀ seconds, request.maxAgeSeconds = some seconds →
      ∀ path ∈ paths, IsAged tree now seconds path → path ∈ paths.take n
  := by
  cases hage : request.maxAgeSeconds with
  | none =>
      use 0, rfl, fun m _ => Nat.zero_le m
      rintro n - seconds ⟨⟩
  | some seconds =>
      obtain ⟨a, ha, hfilter⟩ := exists_take_aged now h seconds
      use a, hfilter
      constructor
      · intro m hm
        apply List.length_le_of_subset_take h.nodup ha
        intro path hpath
        rw [← hfilter, List.mem_filter] at hpath
        exact hm.aged seconds hage path hpath.1 (of_decide_eq_true hpath.2)
      · intro n hn other hother path hpath haged
        obtain rfl := Option.some.inj hother
        apply (List.take_sublist_take_left hn).subset
        rw [← hfilter, List.mem_filter]
        exact ⟨hpath, decide_eq_true haged⟩

/-- The limit for all bytes selects a prefix that is in every sufficient one, and every longer one leaves
not too many bytes. -/
theorem exists_take_excessFiles (tree : FileTree) (request : ArtifactCleanupRequest) (now : Instant)
    (paths : List (List String)) :
  ∃ b, excessFiles tree paths request.maxTotalBytes = paths.take b
    ∧ (∀ m, Sufficient tree request now paths m → b ≤ m)
    ∧ ∀ n, b ≤ n → ∀ limit, request.maxTotalBytes = some limit →
      ((paths.drop n).map (sizeOfFile tree)).sum ≤ limit
  := by
  cases htotal : request.maxTotalBytes with
  | none =>
      use 0, rfl, fun m _ => Nat.zero_le m
      rintro n - limit ⟨⟩
  | some limit =>
      obtain ⟨b, -, hbeyond, hwithin, hleast⟩ := exists_take_beyondTotal tree limit paths
      use b, hbeyond
      constructor
      · intro m hm
        exact hleast m (hm.within limit htotal)
      · intro n hn other hother
        obtain rfl := Option.some.inj hother
        apply le_trans _ hwithin
        apply List.Sublist.sum_le_sum
        · exact (List.drop_sublist_drop_left paths hn).map _
        · intro size _
          apply Nat.zero_le

/-! ### The selection -/

/-- Two prefixes together are the longer one, which is in order. -/
theorem insertionSort_union (h : OldestFirst tree paths) (n m : ℕ) :
  (paths.take n ++ paths.take m).eraseDups.insertionSort
      (fun a b => modified tree a ≤ modified tree b)
    = paths.take (max n m)
  := by
  rw [List.eraseDups_take_append_take h.nodup]
  apply List.Pairwise.insertionSort_eq
  exact h.sorted.sublist (List.take_sublist _ _)

/-- The selected files are a prefix of the least length that is sufficient. -/
theorem exists_isLeast_sufficient (tree : FileTree) (request : ArtifactCleanupRequest) (now : Instant)
    (paths : List (List String)) (h : OldestFirst tree paths) :
  ∃ n, selectArtifactCleanupCandidates tree request now paths = paths.take n
    ∧ IsLeast {m | Sufficient tree request now paths m} n
  := by
  obtain ⟨a, haged, ha, hold⟩ := exists_take_agedFiles request now h
  obtain ⟨b, hexcess, hb, hwithin⟩ :=
    exists_take_excessFiles tree request now paths
  use max a b
  constructor
  · rw [selectArtifactCleanupCandidates_eq, haged, hexcess, insertionSort_union h]
  · constructor
    · constructor
      · exact hold _ (le_max_left a b)
      · exact hwithin _ (le_max_right a b)
    · intro m hm
      exact max_le (ha m hm) (hb m hm)

/-- A cleanup selects the shortest prefix of the files that meets both limits. -/
theorem cleanup_selects_shortest (tree : FileTree) (request : ArtifactCleanupRequest) (now : Instant)
    (paths : List (List String)) (h : OldestFirst tree paths) :
  ∃ n, selectArtifactCleanupCandidates tree request now paths = paths.take n
    ∧ Sufficient tree request now paths n ∧ ∀ m, Sufficient tree request now paths m → n ≤ m
  := by
  obtain ⟨n, hselected, hsufficient, hleast⟩ := exists_isLeast_sufficient tree request now paths h
  exact ⟨n, hselected, hsufficient, fun m hm => hleast hm⟩

/-- Three files of ten bytes, the last modified at one, two and three seconds. -/
def threeFiles : FileTree where
  node
    | ["a"] => some (.file 1000000 10)
    | ["b"] => some (.file 2000000 10)
    | ["c"] => some (.file 3000000 10)
    | _ => none

/-- At four seconds, one file is at least three seconds old, and with two files fewer ten bytes are
left: two files are selected, and no fewer would do. -/
theorem cleanup_threeFiles :
  OldestFirst threeFiles [["a"], ["b"], ["c"]]
    ∧ selectArtifactCleanupCandidates threeFiles ⟨true, some 3, some 10⟩ 4000000
        [["a"], ["b"], ["c"]] = [["a"], ["b"]]
    ∧ Sufficient threeFiles ⟨true, some 3, some 10⟩ 4000000 [["a"], ["b"], ["c"]] 2
    ∧ ∀ m, Sufficient threeFiles ⟨true, some 3, some 10⟩ 4000000 [["a"], ["b"], ["c"]] m → 2 ≤ m
  := by
  have horder : OldestFirst threeFiles [["a"], ["b"], ["c"]] := by
    constructor <;> decide
  have hselected : selectArtifactCleanupCandidates threeFiles ⟨true, some 3, some 10⟩ 4000000
      [["a"], ["b"], ["c"]] = [["a"], ["b"]] := by
    decide +kernel
  obtain ⟨n, hprefix, hsufficient, hleast⟩ := cleanup_selects_shortest threeFiles
    ⟨true, some 3, some 10⟩ 4000000 [["a"], ["b"], ["c"]] horder
  obtain rfl : n = 2 := by
    have hlength := congrArg List.length (hselected.symm.trans hprefix)
    simp only [List.length_take, List.length_cons, List.length_nil] at hlength
    omega
  exact ⟨horder, hselected, hsufficient, hleast⟩

/-! ### The files of a project -/

/-- The files of a project come the oldest first. -/
theorem oldestFirst_projectArtifactPaths {library : UrlLibrary} {storage : ArtifactStorage} {steps : ℕ}
    {artifacts : List ArtifactRecord}
    (h : projectArtifactPaths library storage steps artifacts = .ok paths) :
  OldestFirst storage.tree paths
  := by
  obtain ⟨found, -, h⟩ := Except.bind_eq_ok.mp h
  obtain rfl := Except.ok.inj h
  have htotal : Std.Total (fun a b => modified storage.tree a ≤ modified storage.tree b) :=
    ⟨fun a b => le_total (modified storage.tree a) (modified storage.tree b)⟩
  have htrans : IsTrans (List String)
      (fun a b => modified storage.tree a ≤ modified storage.tree b) :=
    ⟨fun _ _ _ => le_trans⟩
  constructor
  · apply List.pairwise_insertionSort
  · exact (List.perm_insertionSort _ _).nodup_iff.mpr (List.nodup_eraseDups _)

/-- What a cleanup removes and reports is the shortest prefix of the files of the project that meets both
limits. -/
theorem cleanupArtifactFiles_shortest {library : UrlLibrary} {storage : ArtifactStorage} {steps : ℕ}
    {artifacts : Table ArtifactRow.id} {runs : Runs} {projectId : Option Id} {left : FileTree}
    {report : ArtifactCleanupReport}
    (h : cleanupArtifactFiles library storage steps artifacts runs projectId request now
      = .ok (left, report)) :
  ∃ paths n, projectArtifactPaths library storage steps
      (listArtifactsForProject artifacts runs projectId) = .ok paths
    ∧ Sufficient storage.tree request now paths n
    ∧ (∀ m, Sufficient storage.tree request now paths m → n ≤ m)
    ∧ left = (if request.dryRun then storage.tree else (paths.take n).foldl FileTree.unlink storage.tree)
    ∧ report.files = (paths.take n).map (List.drop storage.root.length)
  := by
  obtain ⟨paths, hpaths, h⟩ := Except.bind_eq_ok.mp h
  obtain ⟨n, hselected, hsufficient, hleast⟩ := exists_isLeast_sufficient storage.tree request now paths
    (oldestFirst_projectArtifactPaths hpaths)
  rw [hselected] at h
  obtain ⟨rfl, rfl⟩ := Prod.mk.inj (Except.ok.inj h)
  exact ⟨paths, n, hpaths, hsufficient, fun m hm => hleast hm, rfl, rfl⟩

end GoblinKing
