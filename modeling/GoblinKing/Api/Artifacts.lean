import GoblinKing.Api.RepositorySources
import GoblinKing.Api.Reads
import GoblinKing.Library.Paths
import Mathlib.Algebra.GroupWithZero.Nat

/-!
# Artifact files

A worker declares its artifacts by name and URI, and the API serves and deletes the files these
resolve to. One directory holds the artifacts of all jobs and projects, and a declared file is
accepted when it resolves to something inside this directory. Only the locators `artifact://` are
resolved in the directory of the job.
-/

namespace GoblinKing

open Posix

/-! ### Locators -/

/-- What `urlsplit` returns, as far as it is read. -/
structure SplitResult where
  netloc : String
  path : String
  query : String
  fragment : String
  deriving DecidableEq

/-- The URL functions of the standard library. -/
structure UrlLibrary where
  /-- `urlsplit`; it raises on some hosts -/
  urlsplit : String → Except String SplitResult
  unquote : String → String
  url2pathname : String → String

/-- The directory of all artifacts. It was resolved when the API was started, and is there. -/
structure ArtifactStorage where
  tree : FileTree
  root : List String
  plain : ∀ name ∈ root, Plain name
  resolved : tree.Unlinked [] root
  directory : tree.node root = some .directory

/-- `str.startswith` -/
def startsWith (text start : String) : Bool :=
  start.toList.isPrefixOf text.toList

/-- `text in other` -/
def occursIn (text other : String) : Bool :=
  other.toList.tails.any (fun tail => text.toList.isPrefixOf tail)

/-- The path that an artifact names, `none` where its URI is refused. -/
def artifactCandidate (library : UrlLibrary) (artifact : ArtifactRecord)
    (mountedArtifactRoot : Option Path) : Except String (Option Path) :=
  if startsWith artifact.uri "artifact://" then do
    let parsed ← library.urlsplit artifact.uri
    match mountedArtifactRoot with
    | none => .ok none
    | some mounted =>
        if parsed.query ≠ "" ∨ parsed.fragment ≠ "" then
          .ok none
        else
          let relative := String.ofList
            ((library.unquote (parsed.netloc ++ parsed.path)).toList.dropWhile (· = '/'))
          .ok (if relative = artifact.name then some (mounted.join (.parse relative)) else none)
  else if startsWith artifact.uri "file://" then do
    let parsed ← library.urlsplit artifact.uri
    .ok (if parsed.netloc = "" ∨ parsed.netloc = "localhost" then
      some (.parse (library.url2pathname (library.unquote parsed.path)))
    else
      none)
  else if occursIn "://" artifact.uri then
    .ok none
  else
    .ok (some (.parse artifact.uri))

/-- `Path.resolve`, in a number of steps at most. A null character raises an error that is caught. -/
def resolvePath (tree : FileTree) (steps : ℕ) (path : Path) :
    Except String (Option (List String)) :=
  if path.parts.any (fun part => decide ('\x00' ∈ part.toList)) then
    .ok none
  else
    match tree.walk steps [] path.parts with
    | none => .error "Symlink loop"
    | some names => .ok (some names)

/-- Resolve a file artifact only when it stays inside the configured artifact root. -/
def artifactFilePath (library : UrlLibrary) (storage : ArtifactStorage) (steps : ℕ)
    (artifact : ArtifactRecord) (mountedArtifactRoot : Option Path) :
    Except String (Option (List String)) := do
  match ← artifactCandidate library artifact mountedArtifactRoot with
  | none => .ok none
  | some candidate => do
      let resolved ← resolvePath storage.tree steps (Path.join ⟨true, storage.root⟩ candidate)
      let root ← resolvePath storage.tree steps ⟨true, storage.root⟩
      .ok (resolved.filter (fun names => root.any (fun root => root.isPrefixOf names)))

/-! ### Downloads -/

/-- A parameter of a route is a single segment of its path. -/
structure RouteSegment where
  text : String
  segment : '/' ∉ text.toList

/-- The path of an artifact that is a file. -/
def servedPath (storage : ArtifactStorage) (path : Option (List String)) (artifactName : String) :
    Except ReadError (List String) :=
  foundOr (path.filter storage.tree.isFile) ("artifact file not found: " ++ artifactName)

/-- `download_artifact`: the names of the file that is served. -/
def downloadArtifact (library : UrlLibrary) (storage : ArtifactStorage) (steps : ℕ) (db : ReadDb)
    (settings : ApiSettings) (principal : Principal) (runId : Id) (artifactName : RouteSegment) :
    Except ReadError (List String) := do
  let run ← foundOr (db.runs.find? runId) ("run not found: " ++ runId)
  let _ ← authorize settings principal (db.projectIdForRun run)
  let artifact ← foundOr ((listRunArtifacts db.artifacts runId).find?
    (fun item => decide (item.name = artifactName.text)))
    ("artifact not found: " ++ artifactName.text)
  let path ← (artifactFilePath library storage steps artifact
    (some (Path.join ⟨true, storage.root⟩ (.parse run.jobId)))).mapError .internal
  servedPath storage path artifactName.text

/-! ### Cleanup -/

/-- Admin request for pruning files from the artifact volume. -/
structure ArtifactCleanupRequest where
  dryRun : Bool := true
  maxAgeSeconds : Option ℕ := none
  maxTotalBytes : Option ℕ := none

/-- Artifact metadata, of the runs of a project or all. -/
def listArtifactsForProject (artifacts : Table ArtifactRow.id) (runs : Runs)
    (projectId : Option Id) : List ArtifactRecord :=
  ((artifacts.select (fun row => projectId.isNone
    || (runs.find? row.runId).any (fun run => decide (run.projectId = projectId)))).insertionSort
      (fun a b => a.name ≤ b.name)).map ArtifactRow.record

/-- The last modification of a file. -/
def modified (tree : FileTree) (names : List String) : Instant :=
  match tree.node names with
  | some (.file at' _) => at'
  | _ => 0

/-- The size of a file. -/
def sizeOfFile (tree : FileTree) (names : List String) : ℕ :=
  match tree.node names with
  | some (.file _ size) => size
  | _ => 0

/-- Resolve scoped artifact metadata into safe local files, the oldest first. -/
def projectArtifactPaths (library : UrlLibrary) (storage : ArtifactStorage) (steps : ℕ)
    (artifacts : List ArtifactRecord) : Except String (List (List String)) := do
  let paths ← artifacts.mapM (fun artifact => artifactFilePath library storage steps artifact none)
  .ok (((paths.filterMap id).filter storage.tree.isFile).eraseDups.insertionSort
    (fun a b => modified storage.tree a ≤ modified storage.tree b))

/-- The oldest files that are too many for a number of bytes. -/
def beyondTotal (tree : FileTree) (maxTotalBytes : ℕ) : ℕ → List (List String) → List (List String)
  | _, [] => []
  | total, path :: paths =>
      if total ≤ maxTotalBytes then
        []
      else
        path :: beyondTotal tree maxTotalBytes (total - sizeOfFile tree path) paths

/-- Apply age and volume-size cleanup policies to artifact files. -/
def selectArtifactCleanupCandidates (tree : FileTree) (request : ArtifactCleanupRequest)
    (now : Instant) (paths : List (List String)) : List (List String) :=
  let aged := match request.maxAgeSeconds with
    | none => []
    | some seconds => paths.filter (fun path =>
        decide ((seconds : ℤ) * 1000000 ≤ now - modified tree path))
  let beyond := match request.maxTotalBytes with
    | none => []
    | some maxTotalBytes =>
        beyondTotal tree maxTotalBytes ((paths.map (sizeOfFile tree)).sum) paths
  (aged ++ beyond).eraseDups.insertionSort (fun a b => modified tree a ≤ modified tree b)

/-- Artifact cleanup counts and selected file paths. -/
structure ArtifactCleanupReport where
  dryRun : Bool
  deleted : Bool
  filesSelected : ℕ
  bytesSelected : ℕ
  files : List (List String)
  deriving DecidableEq

/-- Select and optionally delete artifact files: the tree that is left, and the report. -/
def cleanupArtifactFiles (library : UrlLibrary) (storage : ArtifactStorage) (steps : ℕ)
    (artifacts : Table ArtifactRow.id) (runs : Runs) (projectId : Option Id)
    (request : ArtifactCleanupRequest) (now : Instant) :
    Except String (FileTree × ArtifactCleanupReport) := do
  let candidates ← projectArtifactPaths library storage steps
    (listArtifactsForProject artifacts runs projectId)
  let selected := selectArtifactCleanupCandidates storage.tree request now candidates
  let report := {
    dryRun := request.dryRun
    deleted := !request.dryRun
    filesSelected := selected.length
    bytesSelected := (selected.map (sizeOfFile storage.tree)).sum
    files := selected.map (List.drop storage.root.length) }
  .ok (if request.dryRun then storage.tree else selected.foldl FileTree.unlink storage.tree, report)

/-! ### Files inside the root -/

section

variable {library : UrlLibrary} {storage : ArtifactStorage} {steps : ℕ} {artifact : ArtifactRecord}

/-- The root resolves to itself. -/
theorem ArtifactStorage.walk_root (storage : ArtifactStorage) {root : List String}
    (h : storage.tree.walk steps [] storage.root = some root) :
  root = storage.root
  := by
  apply storage.resolved.walk_eq _ h
  intro name hname
  apply (storage.plain name hname).2.2.2

/-- A path that was resolved is what the tree resolves it to. -/
theorem resolvePath_ok {tree : FileTree} {path : Path} {names : List String}
    (h : resolvePath tree steps path = .ok (some names)) :
  tree.walk steps [] path.parts = some names
  := by
  rw [resolvePath] at h
  split at h
  case isTrue => cases h
  case isFalse =>
    split at h
    case h_1 => cases h
    case h_2 hwalk =>
      cases h
      apply hwalk

/-- A file that an artifact names is inside the root, and is what its path resolves to. -/
theorem artifactFilePath_ok {mounted : Option Path} {names : List String}
    (h : artifactFilePath library storage steps artifact mounted = .ok (some names)) :
  ∃ candidate, artifactCandidate library artifact mounted = .ok (some candidate)
    ∧ storage.tree.walk steps [] (Path.join ⟨true, storage.root⟩ candidate).parts = some names
    ∧ storage.root <+: names
  := by
  rw [artifactFilePath] at h
  obtain ⟨candidate?, hcandidate, h⟩ := Except.bind_eq_ok.mp h
  cases candidate? with
  | none => cases h
  | some candidate =>
      obtain ⟨resolved, hresolved, h⟩ := Except.bind_eq_ok.mp h
      obtain ⟨root, hroot, h⟩ := Except.bind_eq_ok.mp h
      obtain ⟨rfl, hinside⟩ := Option.filter_eq_some_iff.mp (Except.ok.inj h)
      rw [Option.any_eq_true] at hinside
      obtain ⟨root, rfl, hprefix⟩ := hinside
      rw [storage.walk_root (resolvePath_ok hroot)] at hprefix
      exact ⟨candidate, hcandidate, resolvePath_ok hresolved, List.isPrefixOf_iff_prefix.mp hprefix⟩

/-- A locator is resolved under the directory of the job by the name of the artifact. -/
theorem artifactCandidate_locator {mounted candidate : Path}
    (huri : startsWith artifact.uri "artifact://" = true)
    (h : artifactCandidate library artifact (some mounted) = .ok (some candidate)) :
  candidate = mounted.join (.parse artifact.name)
  := by
  rw [artifactCandidate, if_pos huri] at h
  obtain ⟨parsed, -, h⟩ := Except.bind_eq_ok.mp h
  dsimp only at h
  split at h
  case isTrue => cases h
  case isFalse =>
    have hrelative := Except.ok.inj h
    split at hrelative
    case isTrue hname => rw [← Option.some.inj hrelative, hname]
    case isFalse => cases hrelative

/-- Without the directory of a job a locator names no file. -/
theorem artifactCandidate_unmounted {candidate : Path}
    (h : artifactCandidate library artifact none = .ok (some candidate)) :
  startsWith artifact.uri "artifact://" = false
  := by
  rw [← Bool.not_eq_true]
  intro huri
  rw [artifactCandidate, if_pos huri] at h
  obtain ⟨parsed, -, h⟩ := Except.bind_eq_ok.mp h
  cases h

/-- A locator whose name is a single segment names a file under the directory of the job, unless
the way there is through a link. -/
theorem locator_inside {jobId : Id} {names : List String} (hjob : Plain jobId)
    (hname : '/' ∉ artifact.name.toList) (huri : startsWith artifact.uri "artifact://" = true)
    (h : artifactFilePath library storage steps artifact
      (some (Path.join ⟨true, storage.root⟩ (.parse jobId))) = .ok (some names))
    (hfile : storage.tree.isFile names = true)
    (hlinks : storage.tree.Unlinked storage.root [jobId, artifact.name]) :
  storage.root ++ [jobId] <+: names
  := by
  obtain ⟨candidate, hcandidate, hwalk, -⟩ := artifactFilePath_ok h
  obtain rfl := artifactCandidate_locator huri hcandidate
  have hroot : ∀ name ∈ storage.root, name ≠ ".." := fun name hname =>
    (storage.plain name hname).2.2.2
  have hparts : (Path.join ⟨true, storage.root⟩ (Path.join (Path.join ⟨true, storage.root⟩
      (.parse jobId)) (.parse artifact.name))).parts
        = storage.root ++ ([jobId] ++ (Path.parse artifact.name).parts) := by
    rw [parse_of_no_slash hname, parse_of_no_slash hjob.1, if_neg (by simp [hjob.2.1, hjob.2.2.1])]
    simp [Path.join]
  rw [hparts] at hwalk
  obtain ⟨steps, hwalk⟩ := storage.resolved.walk hroot hwalk
  rw [List.nil_append, parse_of_no_slash hname] at hwalk
  have hplain : ∀ name ∈ [jobId], name ≠ ".." := by simp [hjob.2.2.2]
  have hdirectory : storage.tree.Unlinked storage.root [jobId] := ⟨hlinks.1, trivial⟩
  by_cases hup : artifact.name = ".."
  · -- two dots lead to the root, which is a directory
    rw [hup] at hwalk
    obtain ⟨steps, hwalk⟩ := hdirectory.walk hplain hwalk
    obtain rfl := FileTree.walk_up hwalk
    rw [List.dropLast_concat] at hfile
    simp [FileTree.isFile, storage.directory] at hfile
  · split at hwalk
    case isTrue =>
      rw [List.append_nil] at hwalk
      rw [hdirectory.walk_eq hplain hwalk]
    case isFalse =>
      rw [List.singleton_append] at hwalk
      use [artifact.name]
      rw [hlinks.walk_eq (by simp [hjob.2.2.2, hup]) hwalk, List.append_assoc,
        List.singleton_append]

end

end GoblinKing
