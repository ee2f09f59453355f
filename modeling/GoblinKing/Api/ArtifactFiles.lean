import GoblinKing.Api.Artifacts
import GoblinKing.Api.IsolationLeaks

/-!
# Artifact files and projects

Which files are served for the artifacts of a run, and which are deleted for those of a project.
Both stay inside the root and follow what the runs have declared; but the root is shared, and
a run may declare a file in the directory of the job of another project.
-/

namespace GoblinKing

open Posix

/-- The directory of the artifacts of a job. -/
def ArtifactStorage.jobDirectory (storage : ArtifactStorage) (jobId : Id) : List String :=
  storage.root ++ [jobId]

/-- `_retained_directory` -/
def ArtifactStorage.retainedDirectory (storage : ArtifactStorage) (settings : ApiSettings)
    (projectId : Option Id) (runId : Id) : List String :=
  storage.root
    ++ ["projects", projectId.elim "unscoped" settings.sha256, "runs", settings.sha256 runId]

/-- A run declares a file, in the directory of its job if by a locator. -/
def ReadDb.Declares (db : ReadDb) (library : UrlLibrary) (storage : ArtifactStorage) (steps : ℕ)
    (run : RunRecord) (names : List String) : Prop :=
  ∃ row ∈ db.artifacts.rows, row.runId = run.id
    ∧ artifactFilePath library storage steps row.record
        (some (Path.join ⟨true, storage.root⟩ (.parse run.jobId))) = .ok (some names)

/-- A download serves files of the job of the run, and files that were retained for the run. -/
def DownloadConfined (library : UrlLibrary) (storage : ArtifactStorage) (steps : ℕ)
    (db : ReadDb) (settings : ApiSettings) (principal : Principal) : Prop :=
  ∀ runId artifactName names,
    downloadArtifact library storage steps db settings principal runId artifactName = .ok names →
    ∀ run, db.runs.find? runId = some run →
      storage.jobDirectory run.jobId <+: names
        ∨ storage.retainedDirectory settings (db.projectIdForRun run) runId <+: names

/-- A cleanup for a project deletes no file that a run of another project declares. -/
def CleanupConfined (library : UrlLibrary) (storage : ArtifactStorage) (steps : ℕ)
    (db : ReadDb) : Prop :=
  ∀ projectId request now tree report,
    cleanupArtifactFiles library storage steps db.artifacts db.runs (some projectId) request now
      = .ok (tree, report) →
    ∀ names, storage.tree.isFile names = true → tree.isFile names = false →
      ∀ run ∈ db.runs.rows, run.projectId ≠ some projectId →
        ¬db.Declares library storage steps run names

section

variable {library : UrlLibrary} {storage : ArtifactStorage} {steps : ℕ} {db : ReadDb}
  {settings : ApiSettings} {principal : Principal}

/-! ### Downloads -/

/-- What the record of an artifact comes from. -/
theorem mem_of_find?_artifact {artifacts : Table ArtifactRow.id} {runId : Id} {name : String}
    {artifact : ArtifactRecord}
    (h : (listRunArtifacts artifacts runId).find? (fun item => decide (item.name = name))
      = some artifact) :
  ∃ row ∈ artifacts.rows, row.runId = runId ∧ row.name = name ∧ row.record = artifact
  := by
  obtain ⟨row, hrow, hrecord⟩ := List.mem_map.mp (List.mem_of_find?_eq_some h)
  obtain ⟨hrow, hrun⟩ := List.mem_filter.mp ((List.mem_insertionSort _).mp hrow)
  have hname := List.find?_some h
  rw [← hrecord] at hname
  exact ⟨row, hrow, of_decide_eq_true hrun, of_decide_eq_true hname, hrecord⟩

/-- A download is of a file that the run declares under the name, for a caller that may access the
project of the run. -/
theorem downloadArtifact_ok {runId : Id} {artifactName : RouteSegment} {names : List String}
    (h : downloadArtifact library storage steps db settings principal runId artifactName
      = .ok names) :
  ∃ run, db.runs.find? runId = some run
    ∧ principal.mayAccess (resolvedProject settings principal (db.projectIdForRun run)) = true
    ∧ storage.tree.isFile names = true
    ∧ ∃ row ∈ db.artifacts.rows, row.runId = runId ∧ row.name = artifactName.text
      ∧ artifactFilePath library storage steps row.record
          (some (Path.join ⟨true, storage.root⟩ (.parse run.jobId))) = .ok (some names)
  := by
  rw [downloadArtifact] at h
  obtain ⟨run, hrun, h⟩ := Except.bind_eq_ok.mp h
  obtain ⟨scope, hscope, h⟩ := Except.bind_eq_ok.mp h
  obtain ⟨artifact, hartifact, h⟩ := Except.bind_eq_ok.mp h
  obtain ⟨path, hpath, hserved⟩ := Except.bind_eq_ok.mp h
  obtain ⟨haccess, rfl⟩ := authorize_ok.mp hscope
  obtain ⟨row, hrow, hrunId, hname, rfl⟩ := mem_of_find?_artifact (foundOr_ok.mp hartifact)
  rw [servedPath, foundOr_ok, Option.filter_eq_some_iff] at hserved
  obtain ⟨rfl, hfile⟩ := hserved
  exact ⟨run, foundOr_ok.mp hrun, haccess, hfile, row, hrow, hrunId, hname,
    Except.mapError_eq_ok.mp hpath⟩

/-! ### Cleanups -/

/-- A URI that names a file without the directory of a job names it with any. -/
theorem artifactFilePath_unmounted {artifact : ArtifactRecord} {names : List String}
    (h : artifactFilePath library storage steps artifact none = .ok (some names))
    (mounted : Option Path) :
  startsWith artifact.uri "artifact://" = false
    ∧ artifactFilePath library storage steps artifact mounted = .ok (some names)
  := by
  obtain ⟨candidate, hcandidate, -⟩ := artifactFilePath_ok h
  have huri := artifactCandidate_unmounted hcandidate
  have hmounted : artifactCandidate library artifact mounted
      = artifactCandidate library artifact none := by
    have hlocator : ¬startsWith artifact.uri "artifact://" = true := by simp [huri]
    rw [artifactCandidate, if_neg hlocator, artifactCandidate, if_neg hlocator]
  rw [artifactFilePath, hmounted]
  exact ⟨huri, h⟩

/-- The rows behind the artifacts of a project. -/
theorem mem_listArtifactsForProject {artifacts : Table ArtifactRow.id} {runs : Runs}
    {projectId : Id} {artifact : ArtifactRecord}
    (h : artifact ∈ listArtifactsForProject artifacts runs (some projectId)) :
  ∃ row ∈ artifacts.rows, row.record = artifact
    ∧ ∃ run, runs.find? row.runId = some run ∧ run.projectId = some projectId
  := by
  obtain ⟨row, hrow, hrecord⟩ := List.mem_map.mp h
  obtain ⟨hrow, hproject⟩ := List.mem_filter.mp ((List.mem_insertionSort _).mp hrow)
  rw [Option.isNone_some, Bool.false_or, Option.any_eq_true] at hproject
  obtain ⟨run, hrun, hproject⟩ := hproject
  exact ⟨row, hrow, hrecord, run, hrun, of_decide_eq_true hproject⟩

/-- The files of artifacts are files that these name. -/
theorem mem_projectArtifactPaths {artifacts : List ArtifactRecord} {paths : List (List String)}
    {names : List String}
    (h : projectArtifactPaths library storage steps artifacts = .ok paths) (hnames : names ∈ paths) :
  storage.tree.isFile names = true
    ∧ ∃ artifact ∈ artifacts, artifactFilePath library storage steps artifact none
      = .ok (some names)
  := by
  obtain ⟨resolved, hresolved, h⟩ := Except.bind_eq_ok.mp h
  rw [← Except.ok.inj h, List.mem_insertionSort, List.mem_eraseDups, List.mem_filter,
    List.mem_filterMap] at hnames
  obtain ⟨⟨path, hpath, rfl⟩, hfile⟩ := hnames
  exact ⟨hfile, Except.exists_of_mem_mapM hresolved hpath⟩

/-- The files that are too many for a number of bytes are among the files. -/
theorem mem_of_mem_beyondTotal {tree : FileTree} {maxTotalBytes total : ℕ}
    {paths : List (List String)} {names : List String}
    (h : names ∈ beyondTotal tree maxTotalBytes total paths) :
  names ∈ paths
  := by
  induction paths generalizing total with
  | nil => apply h
  | cons path paths ih =>
      rw [beyondTotal] at h
      split at h
      case isTrue => cases h
      case isFalse =>
        rcases List.mem_cons.mp h with rfl | h
        · apply List.mem_cons_self
        · apply List.mem_cons_of_mem path (ih h)

/-- The files that are selected are among the candidates. -/
theorem mem_of_mem_candidates {tree : FileTree} {request : ArtifactCleanupRequest} {now : Instant}
    {paths : List (List String)} {names : List String}
    (h : names ∈ selectArtifactCleanupCandidates tree request now paths) :
  names ∈ paths
  := by
  rw [selectArtifactCleanupCandidates, List.mem_insertionSort, List.mem_eraseDups, List.mem_append]
    at h
  rcases h with haged | hbeyond
  · cases hage : request.maxAgeSeconds with
    | none => simp [hage] at haged
    | some seconds =>
        rw [hage] at haged
        apply List.mem_of_mem_filter haged
  · cases htotal : request.maxTotalBytes with
    | none => simp [htotal] at hbeyond
    | some maxTotalBytes =>
        rw [htotal] at hbeyond
        apply mem_of_mem_beyondTotal hbeyond

/-- What is left of the tree: a dry run removes nothing, and else the selected files are gone. -/
theorem cleanupArtifactFiles_ok {projectId : Option Id} {request : ArtifactCleanupRequest}
    {now : Instant} {tree : FileTree} {report : ArtifactCleanupReport}
    (h : cleanupArtifactFiles library storage steps db.artifacts db.runs projectId request now
      = .ok (tree, report)) :
  (request.dryRun = true → tree = storage.tree)
    ∧ ∃ candidates, projectArtifactPaths library storage steps
        (listArtifactsForProject db.artifacts db.runs projectId) = .ok candidates
      ∧ ∀ names, tree.node names = storage.tree.node names
        ∨ tree.node names = none ∧ names ∈ candidates
  := by
  obtain ⟨candidates, hcandidates, h⟩ := Except.bind_eq_ok.mp h
  obtain ⟨htree, -⟩ := Prod.mk.inj (Except.ok.inj h)
  constructor
  · intro hdry
    rw [← htree, if_pos hdry]
  · refine ⟨candidates, hcandidates, ?_⟩
    intro names
    rw [← htree]
    split
    case isTrue => exact .inl rfl
    case isFalse =>
      rw [FileTree.node_unlink_all]
      split
      case isTrue hselected => exact .inr ⟨rfl, mem_of_mem_candidates hselected⟩
      case isFalse => exact .inl rfl

end

/-- Every download is of a regular file inside the root, for a caller that may access the project
of the run, to which a URI resolves that the run declares under this name. The file of a locator
is in the directory of the job, unless the way there is through a symbolic link. A cleanup for a
project removes only regular files inside the root that runs of the project declare, by a path and
not by a locator; it leaves everything else, and leaves everything in a dry run. -/
theorem artifacts_stay_in_root (library : UrlLibrary) (storage : ArtifactStorage) (steps : ℕ)
    (db : ReadDb) (settings : ApiSettings) (principal : Principal) :
  (∀ runId artifactName names,
    downloadArtifact library storage steps db settings principal runId artifactName = .ok names →
    storage.root <+: names ∧ storage.tree.isFile names = true
      ∧ ∃ run, db.runs.find? runId = some run
        ∧ principal.mayAccess (resolvedProject settings principal (db.projectIdForRun run)) = true
        ∧ ∃ row ∈ db.artifacts.rows, row.runId = runId ∧ row.name = artifactName.text
          ∧ artifactFilePath library storage steps row.record
              (some (Path.join ⟨true, storage.root⟩ (.parse run.jobId))) = .ok (some names)
          ∧ (startsWith row.uri "artifact://" = true → Plain run.jobId →
              storage.tree.Unlinked storage.root [run.jobId, row.name] →
              storage.jobDirectory run.jobId <+: names))
  ∧ ∀ projectId request now tree report,
      cleanupArtifactFiles library storage steps db.artifacts db.runs (some projectId) request now
        = .ok (tree, report) →
      (request.dryRun = true → tree = storage.tree)
        ∧ ∀ names, tree.node names = storage.tree.node names
          ∨ tree.node names = none ∧ storage.root <+: names ∧ storage.tree.isFile names = true
            ∧ ∃ row ∈ db.artifacts.rows, startsWith row.uri "artifact://" = false
              ∧ artifactFilePath library storage steps row.record none = .ok (some names)
              ∧ ∃ run, db.runs.find? row.runId = some run ∧ run.projectId = some projectId
  := by
  constructor
  · intro runId artifactName names h
    obtain ⟨run, hrun, haccess, hfile, row, hrow, hrunId, hname, hpath⟩ := downloadArtifact_ok h
    obtain ⟨candidate, hcandidate, hwalk, hinside⟩ := artifactFilePath_ok hpath
    refine ⟨hinside, hfile, run, hrun, haccess, row, hrow, hrunId, hname, hpath, ?_⟩
    intro huri hjob hlinks
    apply locator_inside hjob _ huri hpath hfile hlinks
    rw [ArtifactRow.record, hname]
    apply artifactName.segment
  · intro projectId request now tree report h
    obtain ⟨hdry, candidates, hcandidates, hleft⟩ := cleanupArtifactFiles_ok h
    refine ⟨hdry, ?_⟩
    intro names
    rcases hleft names with hsame | ⟨hgone, hcandidate⟩
    · apply Or.inl hsame
    · obtain ⟨hfile, artifact, hartifact, hpath⟩ := mem_projectArtifactPaths hcandidates hcandidate
      obtain ⟨row, hrow, rfl, run, hrun, hproject⟩ := mem_listArtifactsForProject hartifact
      obtain ⟨candidate, -, -, hinside⟩ := artifactFilePath_ok hpath
      obtain ⟨huri, -⟩ := artifactFilePath_unmounted hpath none
      exact .inr ⟨hgone, hinside, hfile, row, hrow, huri, hpath, run, hrun, hproject⟩

/-- The functions of the standard library on texts that are only a path. -/
def pathLibrary : UrlLibrary where
  urlsplit text := .ok ⟨"", text, "", ""⟩
  unquote text := text
  url2pathname text := text

/-- A directory with one file, of the second of two jobs. -/
def sharedStorage : ArtifactStorage where
  tree := ⟨fun names =>
    if names = ["artifacts", "job-2", "report.txt"] then
      some (.file 0 10)
    else if names = ["artifacts"] ∨ names = ["artifacts", "job-2"] then
      some .directory
    else
      none⟩
  root := ["artifacts"]
  plain := by
    intro name hname
    rw [List.mem_singleton.mp hname]
    refine ⟨?_, ?_, ?_, ?_⟩ <;> decide
  resolved := ⟨by decide, trivial⟩
  directory := by decide

/-- Two runs of jobs of different projects. Both declare the same file. -/
def sharedDeclarations : ReadDb :=
  { StoreContents.empty.toReadDb with
    jobs := ⟨[
      { id := "job-1", kind := "k", projectId := some "team-a", createdAt := 0 },
      { id := "job-2", kind := "k", projectId := some "team-b", createdAt := 0 }], by decide⟩
    runs := ⟨[
      { id := "run-1", jobId := "job-1", kind := "k", projectId := some "team-a",
        status := .completed, startedAt := 0 },
      { id := "run-2", jobId := "job-2", kind := "k", projectId := some "team-b",
        status := .completed, startedAt := 0 }], by decide⟩
    artifacts := ⟨[
      { id := 1, runId := "run-1", name := "mine", uri := "job-2/report.txt" },
      { id := 2, runId := "run-2", name := "report.txt", uri := "job-2/report.txt" }],
      by decide⟩ }

/-- The file of a job of another project can be declared, downloaded and deleted. -/
theorem foreign_file_served :
  (¬∀ library storage steps db settings principal,
      DownloadConfined library storage steps db settings principal)
    ∧ ¬∀ library storage steps db, CleanupConfined library storage steps db
  := by
  constructor
  · intro h
    have hserved : downloadArtifact pathLibrary sharedStorage 10 sharedDeclarations .sample alice
        "run-1" ⟨"mine", by decide⟩ = .ok ["artifacts", "job-2", "report.txt"] := by decide +kernel
    rcases h _ _ _ _ _ _ _ _ _ hserved _ rfl with hjob | hretained
    · revert hjob
      decide +kernel
    · revert hretained
      decide +kernel
  · intro h
    have hdeleted : (cleanupArtifactFiles pathLibrary sharedStorage 10
        sharedDeclarations.artifacts sharedDeclarations.runs (some "team-a")
        { dryRun := false, maxAgeSeconds := some 0 } 1).toOption.any
          (fun result => !result.1.isFile ["artifacts", "job-2", "report.txt"]) = true := by
      decide +kernel
    cases hcleanup : cleanupArtifactFiles pathLibrary sharedStorage 10
        sharedDeclarations.artifacts sharedDeclarations.runs (some "team-a")
        { dryRun := false, maxAgeSeconds := some 0 } 1 with
    | error e =>
        rw [hcleanup] at hdeleted
        cases hdeleted
    | ok result =>
        have hgone : result.1.isFile ["artifacts", "job-2", "report.txt"] = false := by
          simpa [hcleanup, Except.toOption] using hdeleted
        apply h _ _ _ _ _ _ _ _ _ hcleanup ["artifacts", "job-2", "report.txt"] (by decide) hgone
          { id := "run-2", jobId := "job-2", kind := "k", projectId := some "team-b",
            status := .completed, startedAt := 0 } (by decide) (by decide)
        refine ⟨{ id := 2, runId := "run-2", name := "report.txt", uri := "job-2/report.txt" },
          by decide, rfl, ?_⟩
        decide +kernel

end GoblinKing
