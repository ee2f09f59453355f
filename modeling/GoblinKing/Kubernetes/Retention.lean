import GoblinKing.Kubernetes.ArtifactCopies
import Mathlib.Data.List.Sort

/-!
# The retention of artifacts

The declared artifacts of a result are retained together or not at all: they are copied into a
staging directory, which then takes the place of the retained directory of the run. When that is
there already it has to hold the same files. A failure is returned as a failed result without
artifacts.
-/

namespace GoblinKing

open Posix

/-! ### Directories -/

/-- What is under a name in a retained directory. A link leads to a regular file. -/
inductive RetainedEntry where
  | file (contents : ByteArray)
  | link (contents : ByteArray)
  | other

/-- `Path.is_file` -/
def RetainedEntry.isFile : RetainedEntry → Bool
  | .file _ | .link _ => true
  | .other => false

/-- The bytes that are read from an entry. -/
def RetainedEntry.contents? : RetainedEntry → Option ByteArray
  | .file contents | .link contents => some contents
  | .other => none

/-- A file that is no link. -/
def RetainedEntry.isPlain : RetainedEntry → Bool
  | .file _ => true
  | .link _ | .other => false

/-- The entries of a retained directory under their names. -/
abbrev Directory := Table (fun entry : String × RetainedEntry => entry.1)

/-- What is at the place of the retained directory of a run. -/
inductive RetainedPlace where
  | absent
  | directory (entries : Directory)
  | other

/-- A staging directory as the retained directory of a run. -/
def stagedDirectory (staging : Staging) : Directory where
  rows := staging.rows.map (fun file => (file.1, .file file.2))
  nodup := by
    rw [List.map_map]
    exact staging.nodup

/-- The names in a directory in order. -/
def sortedNames {ρ : Type} (rows : List (String × ρ)) : List String :=
  (rows.map Prod.fst).insertionSort (· ≤ ·)

variable (host : RetentionHost)

/-- The digest of a staged file. -/
def stagedDigest (staging : Staging) (name : String) : Option String :=
  (staging.find? name).map (fun file => (host.sha256 file.2).text)

/-- The digest of a retained file. -/
def retainedDigest (directory : Directory) (name : String) : Option String :=
  ((directory.find? name).bind (fun entry => entry.2.contents?)).map
    (fun contents => (host.sha256 contents).text)

/-- Compare the digests of files one after the other. -/
def digestsMatch (staging : Staging) (directory : Directory) : List String → Except Raised Bool
  | [] => .ok true
  | name :: names => do
      host.attempt (.readStaged name)
      host.attempt (.readRetained name)
      if stagedDigest host staging name = retainedDigest host directory name then
        digestsMatch staging directory names
      else
        .ok false

/-- `_directories_match` -/
def directoriesMatch (staging : Staging) (directory : Directory) : Except Raised Bool := do
  host.attempt .listStaging
  host.attempt .listRetained
  if directory.rows.all (fun entry => entry.2.isFile)
      ∧ sortedNames staging.rows = sortedNames directory.rows then
    digestsMatch host staging directory (sortedNames staging.rows)
  else
    .ok false

/-- Set the modes of entries, which must be files and no links. -/
def chmodEntries : List (String × RetainedEntry) → Except Raised Unit
  | [] => .ok ()
  | (name, entry) :: entries => do
      refuseIf (!entry.isPlain) "retained artifact directory contains an unsafe entry"
      host.attempt (.chmodEntry name)
      chmodEntries entries

/-- `_apply_retained_modes` -/
def applyRetainedModes (directory : Directory) : Except Raised Unit := do
  host.attempt .chmodRetained
  host.attempt .listModes
  chmodEntries host directory.rows

/-- A retained directory that is there already is kept when it holds the staged files. -/
def confirmRetained (staging : Staging) (directory : Directory) : Except Raised Unit := do
  let same ← directoriesMatch host staging directory
  refuseIf (!same) "retained artifact destination already contains other bytes"
  host.attempt .removeStaging
  applyRetainedModes host directory

/-- `_commit_staging`, with what is at the place of the retained directory afterwards. -/
def commitStaging (staging : Staging) (before : RetainedPlace) : Except Raised Unit × RetainedPlace :=
  match host.attempt .lookUp with
  | .error error => (.error error, before)
  | .ok () =>
      match before with
      | .directory directory => (confirmRetained host staging directory, before)
      | .other => (.error (storageError "Not a directory"), before)
      | .absent =>
          match host.attempt .rename with
          | .error error => (.error error, before)
          | .ok () =>
              (applyRetainedModes host (stagedDirectory staging),
                .directory (stagedDirectory staging))

/-! ### Retention -/

/-- `_ensure_shared_directory_tree` -/
def ensureSharedDirectoryTree : List String → List String → Except Raised Unit
  | _, [] => .ok ()
  | current, component :: components => do
      host.attempt (.makeDirectory (current ++ [component]))
      refuseIf (!host.isPlainDirectory (current ++ [component]))
        "retained artifact path must contain only directories"
      host.attempt (.chmodDirectory (current ++ [component]))
      ensureSharedDirectoryTree (current ++ [component]) components

variable (result : WorkerResult) (request : ArtifactRetentionRequest)

/-- Check the destination, the limits and the names of a request. -/
def checkRequest : Except Raised (Path × String) :=
  match request.destinationRoot, request.uriRoot with
  | some destinationRoot, some uriRoot => do
      refuseIf (request.maxFiles < 0 ∨ request.maxBytes < 0) "artifact limits must be non-negative"
      refuseIf (request.maxFiles < result.artifacts.length)
        ("artifact file count exceeds policy: " ++ toString result.artifacts.length ++ " > "
          ++ toString request.maxFiles)
      refuseIf (¬ (result.artifacts.map ArtifactRecord.name).Nodup)
        "artifact names must be unique within a result"
      .ok (destinationRoot, uriRoot)
  | _, _ => .error (retentionError "durable Kubernetes artifact storage is not configured")

/-- Prepare the source, the destination and the staging directory. -/
def prepareStaging : Except Raised Preparation := do
  let (destinationRoot, uriRoot) ← checkRequest result request
  let sourceRoot ← host.resolveRoot request.sourceRoot
  host.attempt .makeDestination
  let _ ← host.resolveRoot destinationRoot
  let relativeDirectory := retainedDirectory host request.projectId request.runId
  ensureSharedDirectoryTree host [] relativeDirectory.dropLast
  host.attempt .makeStaging
  host.attempt .chmodStaging
  .ok ⟨sourceRoot, uriRoot, relativeDirectory⟩

/-- What the loop over the artifacts begins with. -/
def Retaining.initial (metrics : Metrics) : Retaining :=
  ⟨[], metrics, 0, Table.empty⟩

/-- Copy all artifacts into a staging directory. -/
def stageArtifacts : Except Raised Retaining := do
  let preparation ← prepareStaging host result request
  retainFrom host request result.metrics preparation 0 result.artifacts (.initial result.metrics)

/-- The metrics with the number of retained artifacts and of their bytes. -/
def Retaining.summary (state : Retaining) : Metrics :=
  Function.update
    (Function.update state.metrics "artifact.retained.files" (some (.int state.retained.length)))
    "artifact.retained.bytes" (some (.int state.totalBytes))

/-- `_retain_all`, with what is at the place of the retained directory afterwards. -/
def retainAll (before : RetainedPlace) :
    Except Raised (List ArtifactRecord × Metrics) × RetainedPlace :=
  match stageArtifacts host result request with
  | .error error => (.error error, before)
  | .ok state =>
      let (committed, after) := commitStaging host state.staging before
      (committed.map (fun _ => (state.retained, state.summary)), after)

/-- A metric is about an artifact. -/
def isArtifactMetric (name : String) : Bool :=
  "artifact.".toList.isPrefixOf name.toList

/-- Return an explicit failed envelope that cannot persist unretained metadata. -/
def artifactRetentionFailure (reason : String) : WorkerResult :=
  .failure
    (((result.error.filter (· ≠ "")).map (· ++ "; ")).getD ""
      ++ ("artifact retention failed: " ++ reason))
    result.data
    (fun name => if isArtifactMetric name then none else result.metrics name)
    result.handoff

/-- Atomically retain every declared artifact or return a metadata-free failure; with what is at
the place of the retained directory afterwards. -/
def retainResultArtifacts (before : RetainedPlace) : Except Raised WorkerResult × RetainedPlace :=
  if result.artifacts = [] then
    (.ok result, before)
  else
    match retainAll host result request before with
    | (.ok (artifacts, metrics), after) =>
        (.ok { result with artifacts := artifacts, metrics := metrics }, after)
    | (.error error, after) =>
        match error.kind with
        | .artifactRetentionError => (.ok (artifactRetentionFailure result error.message), after)
        | .osError =>
            (.ok (artifactRetentionFailure result "artifact storage I/O did not complete"), after)
        | .typeError | .valueError | .dockerRuntimePathError | .redisError | .other =>
            (.error error, after)

end GoblinKing
