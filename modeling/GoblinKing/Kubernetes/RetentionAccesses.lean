import GoblinKing.Kubernetes.RetainedUris
import GoblinKing.Kubernetes.RetentionErrors
import GoblinKing.Library.Emission
import GoblinKing.Library.Resolution

/-!
# The accesses of a retention

What a retention makes, copies and renames, in the order in which it does so. Every copied byte is from a
regular file behind the source root that no link leads to. Files are created in a staging directory beside
the retained directory of the run, and then the whole directory is renamed. Different runs have different
directories.
-/

namespace GoblinKing

open Posix Except
open Emission (ofExcept)

/-- What a retention does to files. Names are behind the destination root. -/
inductive RetentionAccess where
  | makeDirectory (names : List String)
  /-- some bytes of what is opened behind a root are copied -/
  | copy (sourceRoot relative : Path)
  | create (names : List String)
  | rename (source target : List String)
  deriving DecidableEq

/-- What `tempfile.mkdtemp` puts behind the beginning of a name. -/
abbrev StagingSuffix := {text : String // '/' ∉ text.toList}

variable (host : RetentionHost) (result : WorkerResult) (request : ArtifactRetentionRequest)
  (suffix : StagingSuffix)

/-- Where a request is retained. -/
def ArtifactRetentionRequest.directory : List String :=
  retainedDirectory host request.projectId request.runId

/-- The name of a staging directory. -/
def stagingName (name : String) : String :=
  "." ++ name ++ ".staging-" ++ suffix.1

/-- Where a request is staged. -/
def stagingPlace : List String :=
  (request.directory host).dropLast ++ [stagingName suffix (host.sha256 request.runId.toUTF8).text]

/-! ### Traces -/

/-- `_ensure_shared_directory_tree` with its accesses -/
def tracedDirectoryTree : List String → List String → Emission RetentionAccess Raised Unit
  | _, [] => pure ()
  | current, component :: components => do
      ofExcept (host.attempt (.makeDirectory (current ++ [component])))
      Emission.emit (.makeDirectory (current ++ [component]))
      ofExcept (refuseIf (!host.isPlainDirectory (current ++ [component]))
        "retained artifact path must contain only directories")
      ofExcept (host.attempt (.chmodDirectory (current ++ [component])))
      tracedDirectoryTree (current ++ [component]) components

/-- Write the chunks of a file, with the accesses. -/
def tracedCopyChunks (sourceRoot relative : Path) (storedName : String) (remaining : ℤ)
    (readError : Option String) :
    List ByteArray → ByteArray → Emission RetentionAccess Raised ByteArray
  | [], copied => ofExcept (copyChunks host storedName remaining readError [] copied)
  | chunk :: chunks, copied => do
      ofExcept (refuseIf (remaining < (copied ++ chunk).size) "artifact bytes exceed policy")
      ofExcept (host.attempt (.writeCopy storedName))
      Emission.emit (.copy sourceRoot relative)
      tracedCopyChunks sourceRoot relative storedName remaining readError chunks (copied ++ chunk)

/-- Copy an opened file into a directory, with the accesses. -/
def tracedCopyFdAndHash (place : List String) (sourceRoot relative : Path) (file : OpenedFile)
    (storedName : String) (remaining : ℤ) (name : String) (validatedIdentity : ℤ × ℤ × ℤ × ℤ) :
    Emission RetentionAccess Raised (ByteArray × Digest) := do
  ofExcept (refuseIf (!file.before.regular)
    ("artifact " ++ host.repr name ++ " is not a regular file"))
  ofExcept (refuseIf (openedFileIdentity file.before ≠ validatedIdentity)
    ("artifact " ++ host.repr name ++ " changed or became unsafe before retention"))
  ofExcept (host.attempt (.createCopy storedName))
  Emission.emit (.create (place ++ [storedName]))
  ofExcept (host.attempt (.chmodCopy storedName))
  let copied ← tracedCopyChunks host sourceRoot relative storedName remaining file.readError
    file.reads ByteArray.empty
  ofExcept (refuseIf
    (fileIdentity file.before ≠ fileIdentity file.after ∨ (copied.size : ℤ) ≠ file.after.size)
    ("artifact " ++ host.repr name ++ " changed while it was retained"))
  pure (copied, host.sha256 copied)

/-- Open a source and copy it into a directory, with the accesses. -/
def tracedCopyAndHash (place : List String) (sourceRoot : Path) (source : ArtifactSource)
    (storedName : String) (remaining : ℤ) (name : String) :
    Emission RetentionAccess Raised (ByteArray × Digest) :=
  match host.openFile sourceRoot source.relative with
  | none => ofExcept (.error (retentionError
      ("artifact " ++ host.repr name ++ " changed or became unsafe before retention")))
  | some file =>
      tracedCopyFdAndHash host place sourceRoot source.relative file storedName remaining name
        source.validatedIdentity

/-- Retain one artifact in a directory, with the accesses. -/
def tracedRetainOne (place : List String) (declared : Metrics) (preparation : Preparation)
    (index : ℕ) (artifact : ArtifactRecord) (state : Retaining) :
    Emission RetentionAccess Raised Retaining := do
  ofExcept (validateArtifactName artifact.name)
  let source ← ofExcept (resolveSource host preparation.sourceRoot artifact)
  let stored := storedName host index artifact.name
  let (bytes, digest) ← tracedCopyAndHash host place preparation.sourceRoot source stored
    (request.maxBytes - state.totalBytes) artifact.name
  let staging ← ofExcept (stageCopy state.staging stored bytes)
  ofExcept (verifyDeclaredMetrics host declared artifact.name bytes.size digest)
  let mediaType ← ofExcept (validatedMediaType host artifact)
  pure {
    retained := state.retained ++ [{
      name := artifact.name
      uri := retainedUri preparation.uriRoot preparation.relativeDirectory stored
      mediaType := some mediaType }]
    metrics := Function.update (Function.update state.metrics (bytesMetric artifact.name)
      (some (.int bytes.size))) (sha256Metric artifact.name) (some (.text digest.text))
    totalBytes := state.totalBytes + bytes.size
    staging := staging }

/-- Retain artifacts from an index on in a directory, with the accesses. -/
def tracedRetainFrom (place : List String) (declared : Metrics) (preparation : Preparation) :
    ℕ → List ArtifactRecord → Retaining → Emission RetentionAccess Raised Retaining
  | _, [], state => pure state
  | index, artifact :: artifacts, state => do
      let state ← tracedRetainOne host request place declared preparation index artifact state
      tracedRetainFrom place declared preparation (index + 1) artifacts state

/-- Prepare the source, the destination and the staging directory, with the accesses. -/
def tracedPrepareStaging : Emission RetentionAccess Raised Preparation := do
  let (destinationRoot, uriRoot) ← ofExcept (checkRequest result request)
  let sourceRoot ← ofExcept (host.resolveRoot request.sourceRoot)
  ofExcept (host.attempt .makeDestination)
  Emission.emit (.makeDirectory [])
  let _ ← ofExcept (host.resolveRoot destinationRoot)
  tracedDirectoryTree host [] (request.directory host).dropLast
  ofExcept (host.attempt .makeStaging)
  Emission.emit (.makeDirectory (stagingPlace host request suffix))
  ofExcept (host.attempt .chmodStaging)
  pure ⟨sourceRoot, uriRoot, request.directory host⟩

/-- Copy all artifacts into a staging directory, with the accesses. -/
def tracedStageArtifacts : Emission RetentionAccess Raised Retaining := do
  let preparation ← tracedPrepareStaging host result request suffix
  tracedRetainFrom host request (stagingPlace host request suffix) result.metrics preparation 0
    result.artifacts (.initial result.metrics)

/-- The renaming of `_commit_staging` -/
def commitAccesses (before : RetainedPlace) : List RetentionAccess :=
  match before with
  | .directory _ | .other => []
  | .absent =>
      match host.fault .lookUp, host.fault .rename with
      | none, none => [.rename (stagingPlace host request suffix) (request.directory host)]
      | _, _ => []

/-- `_retain_all` with its accesses -/
def tracedRetainAll (before : RetainedPlace) :
    Emission RetentionAccess Raised (List ArtifactRecord × Metrics) := do
  let state ← tracedStageArtifacts host result request suffix
  ⟨commitAccesses host request suffix before,
    (commitStaging host state.staging before).1.map (fun _ => (state.retained, state.summary))⟩

/-- The accesses of `retain_result_artifacts` -/
def retentionAccesses (before : RetainedPlace) : List RetentionAccess :=
  if result.artifacts = [] then
    []
  else
    (tracedRetainAll host result request suffix before).events

/-! ### Outcomes -/

theorem outcome_tracedDirectoryTree (current components : List String) :
  (tracedDirectoryTree host current components).outcome
    = ensureSharedDirectoryTree host current components
  := by
  induction components generalizing current with
  | nil => rfl
  | cons component components ih =>
      simp only [tracedDirectoryTree, ensureSharedDirectoryTree, Emission.outcome_bind,
        Emission.outcome_ofExcept, ih]
      rfl

theorem outcome_tracedCopyChunks (sourceRoot relative : Path) (storedName : String) (remaining : ℤ)
    (readError : Option String) (chunks : List ByteArray) (copied : ByteArray) :
  (tracedCopyChunks host sourceRoot relative storedName remaining readError chunks copied).outcome
    = copyChunks host storedName remaining readError chunks copied
  := by
  induction chunks generalizing copied with
  | nil => rfl
  | cons chunk chunks ih =>
      simp only [tracedCopyChunks, copyChunks, Emission.outcome_bind, Emission.outcome_ofExcept, ih]
      rfl

theorem outcome_tracedCopyAndHash (place : List String) (sourceRoot : Path) (source : ArtifactSource)
    (storedName : String) (remaining : ℤ) (name : String) :
  (tracedCopyAndHash host place sourceRoot source storedName remaining name).outcome
    = copyAndHash host sourceRoot source storedName remaining name
  := by
  unfold tracedCopyAndHash copyAndHash
  cases host.openFile sourceRoot source.relative with
  | none => rfl
  | some file =>
      simp only [tracedCopyFdAndHash, copyFdAndHash, Emission.outcome_bind, Emission.outcome_ofExcept,
        outcome_tracedCopyChunks]
      rfl

theorem outcome_tracedRetainOne (place : List String) (declared : Metrics) (preparation : Preparation)
    (index : ℕ) (artifact : ArtifactRecord) (state : Retaining) :
  (tracedRetainOne host request place declared preparation index artifact state).outcome
    = retainOne host request declared preparation index artifact state
  := by
  simp only [tracedRetainOne, retainOne, Emission.outcome_bind, Emission.outcome_ofExcept,
    outcome_tracedCopyAndHash]
  rfl

theorem outcome_tracedRetainFrom (place : List String) (declared : Metrics) (preparation : Preparation)
    (index : ℕ) (artifacts : List ArtifactRecord) (state : Retaining) :
  (tracedRetainFrom host request place declared preparation index artifacts state).outcome
    = retainFrom host request declared preparation index artifacts state
  := by
  induction artifacts generalizing index state with
  | nil => rfl
  | cons artifact artifacts ih =>
      simp only [tracedRetainFrom, retainFrom, Emission.outcome_bind, outcome_tracedRetainOne, ih]

theorem outcome_tracedPrepareStaging :
  (tracedPrepareStaging host result request suffix).outcome = prepareStaging host result request
  := by
  simp only [tracedPrepareStaging, prepareStaging, Emission.outcome_bind, Emission.outcome_ofExcept,
    outcome_tracedDirectoryTree]
  rfl

/-- A retention with its accesses ends like one without. -/
theorem outcome_tracedRetainAll (before : RetainedPlace) :
  (tracedRetainAll host result request suffix before).outcome
    = (retainAll host result request before).1
  := by
  have hstage : (tracedStageArtifacts host result request suffix).outcome
      = stageArtifacts host result request := by
    simp only [tracedStageArtifacts, stageArtifacts, Emission.outcome_bind,
      outcome_tracedPrepareStaging, outcome_tracedRetainFrom]
  rw [tracedRetainAll, Emission.outcome_bind, hstage, retainAll]
  cases stageArtifacts host result request <;> rfl

end GoblinKing
