import GoblinKing.Kubernetes.Retention
import GoblinKing.Library.Outcomes

/-!
# The errors of a retention

The errors that a retention turns into a failed result, and the ones that it does not expect: an
address that cannot be split, a null character on the way to a file, and a root that does not
resolve for another reason than an `OSError`. Whatever succeeds does so with the same value on a
storage that does not fail.
-/

namespace GoblinKing

open Posix Except

/-- The errors that are turned into a failed result. -/
def Caught (error : Raised) : Prop :=
  error.kind = .artifactRetentionError ∨ error.kind = .osError

/-- A retention error is turned into a failed result. -/
theorem caught_retentionError (message : String) : Caught (retentionError message)
  := .inl rfl

/-- An `OSError` is turned into a failed result. -/
theorem caught_storageError (message : String) : Caught (storageError message)
  := .inr rfl

/-- A refusal is turned into a failed result. -/
theorem within_refuseIf (condition : Bool) (message : String) :
  Within Caught (refuseIf condition message)
  := by
  cases condition with
  | true => exact within_error.mpr (caught_retentionError message)
  | false => apply within_ok

/-- A condition is refused exactly when it holds. -/
theorem refuseIf_ok {condition : Bool} {message : String} :
  refuseIf condition message = .ok () ↔ condition = false
  := by
  cases condition <;> simp [refuseIf]

variable (host : RetentionHost)

/-- An operation on the destination fails with an `OSError` only. -/
theorem within_attempt (step : StorageStep) : Within Caught (host.attempt step)
  := by
  unfold RetentionHost.attempt
  split
  · apply within_ok
  · exact within_error.mpr (caught_storageError _)

/-- An operation on the destination succeeds exactly when it has no fault. -/
theorem attempt_ok {step : StorageStep} :
  host.attempt step = .ok () ↔ host.fault step = none
  := by
  unfold RetentionHost.attempt
  split
  case h_1 h => simp [h]
  case h_2 message h => simp [h]

/-! ### Sources -/

/-- No part of a path that is looked up contains a null character: the look-up of a part with one
is preceded by a part that is missing or a link. -/
def NulFree : Path → List String → Prop
  | _, [] => True
  | current, part :: parts =>
      let next : Path := { current with parts := current.parts ++ [part] }
      hasNul part = false ∧ (host.isLink next = some false → NulFree next parts)

/-- The address of an artifact can be split, and no null character is on the way to its file. -/
def SourceContained (sourceRoot : Path) (artifact : ArtifactRecord) : Prop :=
  (∃ parsed, host.urlsplit artifact.uri = .ok parsed) ∧
    ∀ relative, unresolvedRelative host sourceRoot artifact = .ok relative →
      NulFree host sourceRoot relative.parts

/-- The look-up of the parts of a path is refused, unless a null character is looked up. -/
theorem within_rejectSymbolicLinkComponents (name : String) (current : Path) (parts : List String) :
  Within Caught (rejectSymbolicLinkComponents host name current parts) ↔
    NulFree host current parts
  := by
  induction parts generalizing current with
  | nil =>
      constructor
      · exact fun _ => trivial
      · exact fun _ => within_ok ()
  | cons part parts ih =>
      rw [rejectSymbolicLinkComponents, NulFree]
      cases hpart : hasNul part with
      | true => simp [within_error, Caught]
      | false =>
          cases hlink : host.isLink { current with parts := current.parts ++ [part] } with
          | none => simp [within_error, caught_retentionError]
          | some link =>
              cases link with
              | true => simp [within_error, caught_retentionError]
              | false => simpa [hlink] using ih { current with parts := current.parts ++ [part] }

/-- The parts behind the root are refused, unless the address cannot be split. -/
theorem within_unresolvedRelative (sourceRoot : Path) (artifact : ArtifactRecord) :
  Within Caught (unresolvedRelative host sourceRoot artifact) ↔
    ∃ parsed, host.urlsplit artifact.uri = .ok parsed
  := by
  unfold unresolvedRelative splitUri
  cases hsplit : host.urlsplit artifact.uri with
  | error message =>
      rw [within_bind]
      simp [Except.mapError, within_error, Caught]
  | ok parsed =>
      rw [(show Within Caught (Except.mapError _ (.ok parsed)) from within_ok parsed).bind]
      constructor
      · exact fun _ => ⟨parsed, rfl⟩
      · rintro - parsed' -
        apply (within_refuseIf _ _).andThen
        intro _
        apply (within_refuseIf _ _).andThen
        intro _
        split
        · exact within_error.mpr (caught_retentionError _)
        · split
          · exact within_error.mpr (caught_retentionError _)
          · apply within_ok

/-- A path inside of a root is refused or fails with an `OSError`. -/
theorem within_resolveInside (sourceRoot : Path) (name : String) (candidate : Path) :
  Within Caught (resolveInside host sourceRoot name candidate)
  := by
  unfold resolveInside
  split
  · exact within_error.mpr (caught_retentionError _)
  · exact within_error.mpr (caught_storageError _)
  · split
    · apply within_ok
    · exact within_error.mpr (caught_retentionError _)

/-- The source of an artifact is refused or fails with an `OSError` exactly when nothing unexpected
is on the way to it. -/
theorem within_resolveSource (sourceRoot : Path) (artifact : ArtifactRecord) :
  Within Caught (resolveSource host sourceRoot artifact) ↔ SourceContained host sourceRoot artifact
  := by
  unfold resolveSource SourceContained
  rw [within_bind, within_unresolvedRelative]
  apply and_congr_right
  intro _
  apply forall_congr'
  intro relative
  apply imp_congr_right
  intro _
  rw [within_bind, within_rejectSymbolicLinkComponents]
  apply and_iff_left
  intro _ _
  apply (within_resolveInside host _ _ _).andThen
  intro resolved
  apply (within_mapError caught_storageError).andThen
  intro sourceStat
  apply (within_refuseIf _ _).andThen
  intro _
  apply within_ok

/-! ### The loop -/

/-- Writing the chunks of a file is refused or fails with an `OSError`. -/
theorem within_copyChunks (storedName : String) (remaining : ℤ) (readError : Option String)
    (chunks : List ByteArray) (copied : ByteArray) :
  Within Caught (copyChunks host storedName remaining readError chunks copied)
  := by
  induction chunks generalizing copied with
  | nil =>
      cases readError with
      | none => apply within_ok
      | some message => exact within_error.mpr (caught_storageError message)
  | cons chunk chunks ih =>
      rw [copyChunks]
      apply (within_refuseIf _ _).andThen
      intro _
      apply (within_attempt host _).andThen
      intro _
      apply ih

/-- Copying a source is refused or fails with an `OSError`. -/
theorem within_copyAndHash (sourceRoot : Path) (source : ArtifactSource) (storedName : String)
    (remaining : ℤ) (name : String) :
  Within Caught (copyAndHash host sourceRoot source storedName remaining name)
  := by
  unfold copyAndHash
  split
  · exact within_error.mpr (caught_retentionError _)
  · unfold copyFdAndHash
    apply (within_refuseIf _ _).andThen
    intro _
    apply (within_refuseIf _ _).andThen
    intro _
    apply (within_attempt host _).andThen
    intro _
    apply (within_attempt host _).andThen
    intro _
    apply (within_copyChunks host _ _ _ _ _).andThen
    intro copied
    apply (within_refuseIf _ _).andThen
    intro _
    apply within_ok

/-- Declared metrics are refused. -/
theorem within_verifyDeclaredMetrics (metrics : Metrics) (name : String) (actualSize : ℕ)
    (actualDigest : Digest) :
  Within Caught (verifyDeclaredMetrics host metrics name actualSize actualDigest)
  := by
  unfold verifyDeclaredMetrics
  apply (within_refuseIf _ _).andThen
  intro _
  split
  · apply within_ok
  · apply within_ok
  · apply within_refuseIf
  all_goals exact within_error.mpr (caught_retentionError _)

variable (request : ArtifactRetentionRequest) (declared : Metrics) (preparation : Preparation)

/-- Retaining an artifact is refused or fails with an `OSError` exactly when its name is refused or
nothing unexpected is on the way to its source. -/
theorem within_retainOne (index : ℕ) (artifact : ArtifactRecord) (state : Retaining) :
  Within Caught (retainOne host request declared preparation index artifact state) ↔
    (validateArtifactName artifact.name = .ok () →
      SourceContained host preparation.sourceRoot artifact)
  := by
  have hname : Within Caught (validateArtifactName artifact.name) := within_refuseIf _ _
  rw [retainOne, hname.bind_unit]
  apply imp_congr_right
  intro _
  rw [within_bind, within_resolveSource]
  apply and_iff_left
  intro source _
  apply (within_copyAndHash host _ _ _ _ _).andThen
  rintro ⟨bytes, digest⟩
  apply Within.andThen
  · unfold stageCopy
    split
    · apply within_ok
    · exact within_error.mpr (caught_storageError _)
  · intro staging
    apply (within_verifyDeclaredMetrics host _ _ _ _).andThen
    intro _
    apply Within.andThen
    · apply (within_refuseIf _ _).andThen
      intro _
      apply within_ok
    · intro mediaType
      apply within_ok

/-- Nothing unexpected is on the way to the sources of artifacts that are reached. -/
def SourcesContained : ℕ → List ArtifactRecord → Retaining → Prop
  | _, [], _ => True
  | index, artifact :: artifacts, state =>
      (validateArtifactName artifact.name = .ok () →
        SourceContained host preparation.sourceRoot artifact) ∧
      ∀ next, retainOne host request declared preparation index artifact state = .ok next →
        SourcesContained (index + 1) artifacts next

/-- The loop is refused or fails with an `OSError` exactly when nothing unexpected is reached. -/
theorem within_retainFrom (index : ℕ) (artifacts : List ArtifactRecord) (state : Retaining) :
  Within Caught (retainFrom host request declared preparation index artifacts state) ↔
    SourcesContained host request declared preparation index artifacts state
  := by
  induction artifacts generalizing index state with
  | nil =>
      constructor
      · exact fun _ => trivial
      · exact fun _ => within_ok state
  | cons artifact artifacts ih =>
      rw [retainFrom, within_bind, within_retainOne, SourcesContained]
      simp only [ih]

/-! ### The preparation -/

variable (result : WorkerResult)

/-- The roots of a valid request resolve, or fail with an `OSError`. -/
def RootsContained : Prop :=
  ∀ destinationRoot uriRoot, checkRequest result request = .ok (destinationRoot, uriRoot) →
    Within Caught (host.resolveRoot request.sourceRoot) ∧
      ∀ sourceRoot, host.resolveRoot request.sourceRoot = .ok sourceRoot →
        host.fault .makeDestination = none → Within Caught (host.resolveRoot destinationRoot)

/-- The check of a request is refused. -/
theorem within_checkRequest : Within Caught (checkRequest result request)
  := by
  unfold checkRequest
  split
  · apply (within_refuseIf _ _).andThen
    intro _
    apply (within_refuseIf _ _).andThen
    intro _
    apply (within_refuseIf _ _).andThen
    intro _
    apply within_ok
  · exact within_error.mpr (caught_retentionError _)

/-- The directories of the destination are refused or fail with an `OSError`. -/
theorem within_ensureSharedDirectoryTree (current components : List String) :
  Within Caught (ensureSharedDirectoryTree host current components)
  := by
  induction components generalizing current with
  | nil => apply within_ok
  | cons component components ih =>
      rw [ensureSharedDirectoryTree]
      apply (within_attempt host _).andThen
      intro _
      apply (within_refuseIf _ _).andThen
      intro _
      apply (within_attempt host _).andThen
      intro _
      apply ih

/-- The preparation is refused or fails with an `OSError` exactly when the roots do. -/
theorem within_prepareStaging :
  Within Caught (prepareStaging host result request) ↔ RootsContained host request result
  := by
  rw [prepareStaging, (within_checkRequest request result).bind, RootsContained, Prod.forall]
  apply forall_congr'
  intro destinationRoot
  apply forall_congr'
  intro uriRoot
  apply imp_congr_right
  intro _
  rw [within_bind]
  apply and_congr_right
  intro _
  apply forall_congr'
  intro sourceRoot
  apply imp_congr_right
  intro _
  rw [(within_attempt host _).bind_unit, attempt_ok]
  apply imp_congr_right
  intro _
  rw [within_bind]
  apply and_iff_left
  intro _ _
  apply (within_ensureSharedDirectoryTree host _ _).andThen
  intro _
  apply (within_attempt host _).andThen
  intro _
  apply (within_attempt host _).andThen
  intro _
  apply within_ok

/-- Staging is refused or fails with an `OSError` exactly when the roots do and nothing unexpected
is reached. -/
theorem within_stageArtifacts :
  Within Caught (stageArtifacts host result request) ↔
    RootsContained host request result ∧
      ∀ preparation, prepareStaging host result request = .ok preparation →
        SourcesContained host request result.metrics preparation 0 result.artifacts
          (.initial result.metrics)
  := by
  rw [stageArtifacts, within_bind, within_prepareStaging]
  simp only [within_retainFrom]

/-! ### A storage that does not fail -/

/-- The same answers, from a destination whose operations do not fail. -/
def RetentionHost.reliable : RetentionHost :=
  { host with fault := fun _ => none }

/-- No operation fails on a reliable destination. -/
theorem below_attempt (step : StorageStep) :
  Below (host.attempt step) (host.reliable.attempt step)
  := fun _ _ => rfl

/-- Chunks are written on a reliable destination when they are on any other one. -/
theorem below_copyChunks (storedName : String) (remaining : ℤ) (readError : Option String)
    (chunks : List ByteArray) (copied : ByteArray) :
  Below (copyChunks host storedName remaining readError chunks copied)
    (copyChunks host.reliable storedName remaining readError chunks copied)
  := by
  induction chunks generalizing copied with
  | nil => apply Below.refl
  | cons chunk chunks ih =>
      rw [copyChunks, copyChunks]
      apply (Below.refl _).bind
      intro _
      apply (below_attempt host _).bind
      intro _
      apply ih

/-- A source is copied to a reliable destination when it is to any other one. -/
theorem below_copyAndHash (sourceRoot : Path) (source : ArtifactSource) (storedName : String)
    (remaining : ℤ) (name : String) :
  Below (copyAndHash host sourceRoot source storedName remaining name)
    (copyAndHash host.reliable sourceRoot source storedName remaining name)
  := by
  unfold copyAndHash
  rw [show host.reliable.openFile = host.openFile by rfl]
  split
  · apply below_error
  · unfold copyFdAndHash
    apply (Below.refl _).bind
    intro _
    apply (Below.refl _).bind
    intro _
    apply (below_attempt host _).bind
    intro _
    apply (below_attempt host _).bind
    intro _
    apply (below_copyChunks host _ _ _ _ _).bind
    intro copied
    apply Below.refl

/-- Sources are looked up with a reliable destination as with any other one. -/
theorem rejectSymbolicLinkComponents_reliable (name : String) (current : Path)
    (parts : List String) :
  rejectSymbolicLinkComponents host.reliable name current parts
    = rejectSymbolicLinkComponents host name current parts
  := by
  induction parts generalizing current with
  | nil => rfl
  | cons part parts ih =>
      rw [rejectSymbolicLinkComponents, rejectSymbolicLinkComponents]
      simp only [ih]
      rfl

/-- Sources are resolved with a reliable destination as with any other one. -/
theorem resolveSource_reliable (sourceRoot : Path) (artifact : ArtifactRecord) :
  resolveSource host.reliable sourceRoot artifact = resolveSource host sourceRoot artifact
  := by
  unfold resolveSource
  simp only [rejectSymbolicLinkComponents_reliable]
  rfl

/-- An artifact is retained at a reliable destination when it is at any other one. -/
theorem below_retainOne (index : ℕ) (artifact : ArtifactRecord) (state : Retaining) :
  Below (retainOne host request declared preparation index artifact state)
    (retainOne host.reliable request declared preparation index artifact state)
  := by
  unfold retainOne
  rw [resolveSource_reliable]
  apply (Below.refl _).bind
  intro _
  apply (Below.refl _).bind
  intro source
  apply (below_copyAndHash host _ _ _ _ _).bind
  intro copied
  apply Below.refl

/-- The loop succeeds at a reliable destination when it does at any other one. -/
theorem below_retainFrom (index : ℕ) (artifacts : List ArtifactRecord) (state : Retaining) :
  Below (retainFrom host request declared preparation index artifacts state)
    (retainFrom host.reliable request declared preparation index artifacts state)
  := by
  induction artifacts generalizing index state with
  | nil => apply Below.refl
  | cons artifact artifacts ih =>
      rw [retainFrom, retainFrom]
      apply (below_retainOne host request declared preparation _ _ _).bind
      intro next
      apply ih

/-- The directories of a reliable destination are made when they are at any other one. -/
theorem below_ensureSharedDirectoryTree (current components : List String) :
  Below (ensureSharedDirectoryTree host current components)
    (ensureSharedDirectoryTree host.reliable current components)
  := by
  induction components generalizing current with
  | nil => apply Below.refl
  | cons component components ih =>
      rw [ensureSharedDirectoryTree, ensureSharedDirectoryTree]
      apply (below_attempt host _).bind
      intro _
      apply (Below.refl _).bind
      intro _
      apply (below_attempt host _).bind
      intro _
      apply ih

/-- Artifacts are staged at a reliable destination when they are at any other one. -/
theorem below_stageArtifacts :
  Below (stageArtifacts host result request) (stageArtifacts host.reliable result request)
  := by
  unfold stageArtifacts
  apply Below.bind
  · unfold prepareStaging
    apply (Below.refl _).bind
    rintro ⟨destinationRoot, uriRoot⟩
    apply (Below.refl _).bind
    intro sourceRoot
    apply (below_attempt host _).bind
    intro _
    apply (Below.refl _).bind
    intro _
    apply (below_ensureSharedDirectoryTree host _ _).bind
    intro _
    apply (below_attempt host _).bind
    intro _
    apply (below_attempt host _).bind
    intro _
    apply Below.refl
  · intro preparation
    apply below_retainFrom

/-- The digests of files are compared at a reliable destination as at any other one. -/
theorem below_digestsMatch (staging : Staging) (directory : Directory) (names : List String) :
  Below (digestsMatch host staging directory names)
    (digestsMatch host.reliable staging directory names)
  := by
  induction names with
  | nil => apply Below.refl
  | cons name names ih =>
      rw [digestsMatch, digestsMatch]
      apply (below_attempt host _).bind
      intro _
      apply (below_attempt host _).bind
      intro _
      rw [show stagedDigest host.reliable = stagedDigest host by rfl,
        show retainedDigest host.reliable = retainedDigest host by rfl]
      split
      · exact ih
      · apply Below.refl

/-- The modes of entries are set at a reliable destination when they are at any other one. -/
theorem below_chmodEntries (entries : List (String × RetainedEntry)) :
  Below (chmodEntries host entries) (chmodEntries host.reliable entries)
  := by
  induction entries with
  | nil => apply Below.refl
  | cons entry entries ih =>
      obtain ⟨name, entry⟩ := entry
      rw [chmodEntries, chmodEntries]
      apply (Below.refl _).bind
      intro _
      apply (below_attempt host _).bind
      intro _
      exact ih

/-- A retained directory is confirmed at a reliable destination when it is at any other one. -/
theorem below_confirmRetained (staging : Staging) (directory : Directory) :
  Below (confirmRetained host staging directory) (confirmRetained host.reliable staging directory)
  := by
  unfold confirmRetained directoriesMatch applyRetainedModes
  apply Below.bind
  · apply (below_attempt host _).bind
    intro _
    apply (below_attempt host _).bind
    intro _
    split
    · apply below_digestsMatch
    · apply Below.refl
  · intro same
    apply (Below.refl _).bind
    intro _
    apply (below_attempt host _).bind
    intro _
    apply (below_attempt host _).bind
    intro _
    apply (below_attempt host _).bind
    intro _
    apply below_chmodEntries

end GoblinKing
