import GoblinKing.Scheduler.Steps
import GoblinKing.Store.Validations
import GoblinKing.Repository.Contracts

/-!
# The validation gate

What `_execute_claimed_job` does between marking a job and calling the runtime, in the modes
`docker` and `kubernetes`: it finds the worker image of the kind, asks for a proof that the
image keeps the container contract, and validates the image where there is none. The gate
decides which of the transactions of the pass comes next.

The answers of external commands are inputs: of the inspection of the image, and of
`validate_workers`, which inspects the image once more. An exception is given by its type and
its text.
-/

namespace GoblinKing

/-- `GOBLIN_CONTAINER_CONTRACT_VERSION` -/
def goblinContainerContractVersion : String := "goblin-king/v1alpha1"

/-- `VALIDATOR_VERSION` -/
def validatorVersion : String := "goblin-king-validator/v1"

/-- The runtimes that execute containers. -/
inductive ContainerRuntime where
  | docker
  | kubernetes
  deriving DecidableEq, Repr

/-- One contract validation, as `validate_workers` returns it. -/
structure WorkerValidationResult where
  kind : String
  ok : Bool
  image : Option String := none
  imageDigest : Option String := none
  contractVersion : String := goblinContainerContractVersion
  validatorVersion : String := GoblinKing.validatorVersion
  validatedAt : Option Instant := none
  error : Option String := none
  deriving DecidableEq, Repr

/-- A worker image map: kinds and their images. -/
abbrev WorkerImageMap := List (String × String)

/-- What the gate reads of the configuration of a scheduler. -/
structure GateConfig where
  runtime : ContainerRuntime
  workers : Option WorkerImageMap
  /-- `validation_image_identity` of the settings of the Kubernetes runtime -/
  validationImageIdentity : (image kind : String) → String
  /-- the hexadecimal SHA-256 digest of a text -/
  sha256 : String → String

/-- What the code does not decide itself during one pass of the gate. -/
structure GateAnswers where
  /-- whether `goblin_validation_input` raises -/
  validationInput : Except String Unit := .ok ()
  /-- the identity of the image, and the error of the inspection -/
  inspectImageIdentity : Except String (Option String × Option String)
  validateWorkers : Except String (List WorkerValidationResult)
  /-- the identifier of the validation that is saved -/
  recordId : Id
  /-- the clock, for a validation without a time -/
  clock : Instant

/-! ### Validation results -/

/-- The durable record of a validation. -/
def validationRecord (result : WorkerValidationResult) (recordId : Id) (clock : Instant) :
    WorkerValidationRecord where
  id := recordId
  kind := result.kind
  image := (truthy result.image).getD ""
  imageDigest := (truthy result.imageDigest).getD ""
  contractVersion := result.contractVersion
  validatorVersion := result.validatorVersion
  validatedAt := result.validatedAt.getD clock
  status := if result.ok then .passed else .failed
  failureReasons := if result.ok then [] else [(truthy result.error).getD "validation failed"]

/-- Bind the identity of the runner image and the source of a function into one identity. -/
def notebookValidationIdentity (sha256 : String → String) (imageIdentity : Option String)
    (sourceHash : String) : String :=
  sha256 ((truthy imageIdentity).getD "<unresolved-runner-image>" ++ "\x00" ++ sourceHash)

/-- The identity of an image, bound to the source hash where there is one. -/
def boundIdentity (sha256 : String → String) (notebookSourceHash : Option String)
    (imageDigest : Option String) : Option String :=
  match notebookSourceHash with
  | none => imageDigest
  | some sourceHash => some (notebookValidationIdentity sha256 imageDigest sourceHash)

/-- A validation, with its identity bound to the source hash where there is one. -/
def WorkerValidationResult.bound (sha256 : String → String) (notebookSourceHash : Option String)
    (result : WorkerValidationResult) : WorkerValidationResult :=
  { result with imageDigest := boundIdentity sha256 notebookSourceHash result.imageDigest }

/-- The keyword arguments of `format_validation_gate_error`. -/
structure GateRejection where
  kind : String
  image : Option String
  reason : String
  imageDigest : Option String := none
  staleFromDigest : Option String := none
  contractVersion : String := goblinContainerContractVersion
  validatorVersion : String := GoblinKing.validatorVersion
  runtime : ContainerRuntime

/-- How to validate the image of a kind again. -/
def revalidateCommand (runtime : ContainerRuntime) (kind : String) : String :=
  match runtime with
  | .kubernetes =>
      "goblin-king workers validate --runtime kubernetes --kind " ++ kind
        ++ " --input <input-json> --require-success"
  | .docker =>
      "goblin-king workers validate --kind " ++ kind
        ++ " --input <input-json> --build --require-success"

/-- The error of an attempt that the gate rejects. -/
def formatValidationGateError (rejection : GateRejection) : String :=
  "\n".intercalate
    (["Goblin image failed contract validation and cannot be run by default.",
      "Kind: " ++ rejection.kind,
      "Image: " ++ (truthy rejection.image).getD "<unknown>",
      "Image digest: " ++ (truthy rejection.imageDigest).getD "<unresolved>",
      "Contract version: " ++ rejection.contractVersion,
      "Validator version: " ++ rejection.validatorVersion]
    ++ (match truthy rejection.staleFromDigest with
      | none => []
      | some digest => ["Previous validation digest: " ++ digest])
    ++ ["Reason: " ++ rejection.reason,
      "Validate first, then schedule.",
      "Revalidate with: " ++ revalidateCommand rejection.runtime rejection.kind])

/-! ### Resolving the kind -/

/-- What the kind of a job is resolved to. -/
structure GateTarget where
  workers : Option WorkerImageMap
  notebookSourceHash : Option String
  deriving DecidableEq

/-- The registry and the worker map for a registered kind; a notebook kind has a map of its
own, with its runner image. A kind that is neither raises. -/
def resolveKind (kinds : List String) (gate : GateConfig)
    (goblins : Table NotebookGoblinRecord.kind) (kind : String) : Except String GateTarget :=
  match registryGet kinds kind with
  | .ok _ => .ok ⟨gate.workers, none⟩
  | .error error =>
      match goblins.find? kind with
      | none => .error error
      | some record => .ok ⟨some [(record.kind, record.image)], some record.sourceHash⟩

/-- `WorkerImageMap.get` -/
def WorkerImageMap.get (workers : WorkerImageMap) (kind : String) : Except String String :=
  match workers.lookup kind with
  | some image => .ok image
  | none =>
      let available :=
        String.intercalate ", " ((workers.map Prod.fst).insertionSort (fun a b => a ≤ b))
      .error ("missing Docker worker image mapping for " ++ quoted kind ++ "; available: "
        ++ (if available = "" then "<none>" else available))

/-- The identity of the worker image, and the error of the inspection. -/
def imageIdentity (gate : GateConfig) (answers : GateAnswers) (image kind : String) :
    Except String (Option String × Option String) :=
  match gate.runtime with
  | .kubernetes => .ok (some (gate.validationImageIdentity image kind), none)
  | .docker => answers.inspectImageIdentity

/-- The key under which a proof for an attempt is looked up. -/
def currentKey (gate : GateConfig) (kind : String) (notebookSourceHash : Option String)
    (imageDigest : String) : ValidationKey where
  kind := kind
  imageDigest := (truthy (boundIdentity gate.sha256 notebookSourceHash (some imageDigest))).getD
    imageDigest
  contractVersion := goblinContainerContractVersion
  validatorVersion := validatorVersion

/-! ### The gate -/

/-- `validate_workers(...)[0]` -/
def firstResult (results : Except String (List WorkerValidationResult)) :
    Except String WorkerValidationResult :=
  match results with
  | .error error => .error error
  | .ok [] => .error "IndexError: list index out of range"
  | .ok (result :: _) => .ok result

/-- Validate the image and save the outcome. -/
def validateAndSave (gate : GateConfig) (validations : Validations)
    (notebookSourceHash : Option String) (answers : GateAnswers) :
    Except String (WorkerValidationResult × Validations) := do
  let result ← firstResult answers.validateWorkers
  let result := result.bound gate.sha256 notebookSourceHash
  let validations ← saveWorkerValidation validations
    (validationRecord result answers.recordId answers.clock)
  return (result, validations)

/-- The identity that the error of a fresh validation calls stale. -/
def staleFromDigest (latestForKind : Option WorkerValidationRecord) (imageDigest : String) :
    Option String :=
  (latestForKind.filter
    (fun latest => latest.status == .passed && latest.imageDigest != imageDigest)).map
    WorkerValidationRecord.imageDigest

/-- The error for which a fresh validation rejects the attempt, if it does. -/
def freshRejection (gate : GateConfig) (kind image : String) (imageDigest : String)
    (key : ValidationKey) (latestForKind : Option WorkerValidationRecord)
    (result : WorkerValidationResult) : Option String :=
  if result.ok then
    none
  else
    some (formatValidationGateError {
      kind := kind
      image := (truthy result.image).or (some image)
      imageDigest := (truthy result.imageDigest).or (some key.imageDigest)
      staleFromDigest := staleFromDigest latestForKind imageDigest
      contractVersion := result.contractVersion
      validatorVersion := result.validatorVersion
      reason := (truthy result.error).getD "worker validation failed"
      runtime := gate.runtime })

/-- The gate for an image whose identity is resolved: a stored proof, or a fresh validation. -/
def validateResolved (gate : GateConfig) (validations : Validations) (kind image : String)
    (notebookSourceHash : Option String) (imageDigest : String) (answers : GateAnswers) :
    Except String (Validations × Option String) :=
  let key := currentKey gate kind notebookSourceHash imageDigest
  let latestForKind := latestWorkerValidationForKind validations kind
  if provenCurrent validations key then
    .ok (validations, none)
  else
    match gate.runtime with
    | .kubernetes =>
        .ok (validations, some (formatValidationGateError {
          kind := kind
          image := some image
          imageDigest := some key.imageDigest
          staleFromDigest := latestForKind.map WorkerValidationRecord.imageDigest
          reason := "no current Kubernetes validation proof exists; validate first"
          runtime := gate.runtime }))
    | .docker => do
        let (result, validations) ← validateAndSave gate validations notebookSourceHash answers
        return (validations,
          freshRejection gate kind image imageDigest key latestForKind result)

/-- The gate for an image whose identity is not resolved. It is validated, and rejected in
any case. -/
def validateUnresolved (gate : GateConfig) (validations : Validations) (kind image : String)
    (notebookSourceHash imageDigest imageError : Option String) (answers : GateAnswers) :
    Except String (Validations × Option String) := do
  let (_, validations') ← validateAndSave gate validations notebookSourceHash answers
  return (validations', some (formatValidationGateError {
    kind := kind
    image := some image
    imageDigest := boundIdentity gate.sha256 notebookSourceHash imageDigest
    staleFromDigest := (latestWorkerValidationForKind validations kind).map
      WorkerValidationRecord.imageDigest
    reason := (truthy imageError).getD ("worker image digest unavailable: " ++ image)
    runtime := gate.runtime }))

/-- Ensure that the current image of a kind has passed contract validation. What is returned
beside the table is the error for which the attempt is rejected. -/
def validateBeforeContainerRun (gate : GateConfig) (validations : Validations) (kind : String)
    (target : GateTarget) (answers : GateAnswers) : Except String (Validations × Option String) :=
  match target.workers with
  | none =>
      .ok (validations, some (formatValidationGateError {
        kind := kind
        image := none
        reason := "worker image map is required for validation"
        runtime := gate.runtime }))
  | some workers =>
      match workers.get kind with
      | .error error =>
          .ok (validations, some (formatValidationGateError {
            kind := kind, image := none, reason := error, runtime := gate.runtime }))
      | .ok image =>
          match imageIdentity gate answers image kind with
          | .error error => .error error
          | .ok (some imageDigest, none) =>
              validateResolved gate validations kind image target.notebookSourceHash imageDigest
                answers
          | .ok (imageDigest, imageError) =>
              validateUnresolved gate validations kind image target.notebookSourceHash imageDigest
                imageError answers

/-- The verdict of the gate on an attempt. An exception is a rejection: validation is a
boundary of the job, not of the scheduler. -/
def gateVerdict (gate : GateConfig) (validations : Validations) (kind : String)
    (target : GateTarget) (answers : GateAnswers) : Validations × Option String :=
  match (do answers.validationInput; validateBeforeContainerRun gate validations kind target answers)
  with
  | .ok verdict => verdict
  | .error error =>
      (validations, some ("Goblin image validation could not start; the job was failed and its "
        ++ "lease was released. " ++ error))

/-- What is resolved before the gate: the kind and the policy of the job. -/
def gateTarget (env : Environment) (kinds : List String) (gate : GateConfig)
    (goblins : Table NotebookGoblinRecord.kind) (job : JobRecord) : Except String GateTarget := do
  let target ← resolveKind kinds gate goblins job.kind
  let _ ← policyFromJobMetadata env.modelValidate job.resourcePolicy
  return target

/-- From marking a job to calling the runtime. The attempt raises, is rejected, or its run is
inserted; the runtime is called next in the phase `started` and in no other one. Identifiers
that are taken are not drawn. -/
def executeGate (env : Environment) (config : SchedulerConfig) (gate : GateConfig) (w : WorkerId)
    (db : Db) (goblins : Table NotebookGoblinRecord.kind) (validations : Validations)
    (now : Instant) (job : JobRecord) (startedAt : Instant) (jobs : List JobRecord)
    (answers : GateAnswers) (runId : Id) (latestEventAt : Option Instant) (clock : Instant) :
    Option (Validations × Db × Phase × List Event) :=
  if (validations.find? answers.recordId).isSome then
    none
  else
    match gateTarget env config.kinds gate goblins job with
    | .error error => some (validations, db, .recover now job error jobs, [])
    | .ok target =>
        let verdict := gateVerdict gate validations job.kind target answers
        match verdict.2 with
        | some validationError =>
            (rejectAttempt w db now job startedAt jobs runId validationError latestEventAt
              clock).map (fun after => (verdict.1, after))
        | none =>
            (startAttempt db now job startedAt jobs runId).map (fun after => (verdict.1, after))

/-! ### The exits of the gate -/

/-- The identity of the image that an attempt is about to run, when it can be resolved. -/
def resolvedIdentity (gate : GateConfig) (kind : String) (target : GateTarget)
    (answers : GateAnswers) : Option String :=
  match target.workers with
  | none => none
  | some workers =>
      match workers.get kind with
      | .error _ => none
      | .ok image =>
          match imageIdentity gate answers image kind with
          | .ok (some imageDigest, none) => some imageDigest
          | _ => none

/-- The validation that lets an attempt pass although no proof is stored, if one does, and
the key under which the proof was looked up. -/
def freshProof (gate : GateConfig) (validations : Validations) (kind : String)
    (target : GateTarget) (answers : GateAnswers) :
    Option (ValidationKey × WorkerValidationRecord) :=
  match resolvedIdentity gate kind target answers with
  | none => none
  | some imageDigest =>
      let key := currentKey gate kind target.notebookSourceHash imageDigest
      if provenCurrent validations key || gate.runtime == .kubernetes
          || !answers.validationInput.isOk then
        none
      else
        match firstResult answers.validateWorkers with
        | .error _ => none
        | .ok result =>
            if result.ok then
              some (key, validationRecord (result.bound gate.sha256 target.notebookSourceHash)
                answers.recordId answers.clock)
            else
              none

/-- How the gate is left: with a rejection, with the stored proof, or with a fresh one. -/
inductive GateExit (gate : GateConfig) (validations : Validations) (kind : String)
    (target : GateTarget) (answers : GateAnswers) : Validations × Option String → Prop where
  | rejected {validations' : Validations} {error : String}
      (hfresh : freshProof gate validations kind target answers = none) :
      GateExit gate validations kind target answers (validations', some error)
  | cached {imageDigest : String}
      (hidentity : resolvedIdentity gate kind target answers = some imageDigest)
      (hproven : provenCurrent validations
        (currentKey gate kind target.notebookSourceHash imageDigest) = true)
      (hfresh : freshProof gate validations kind target answers = none) :
      GateExit gate validations kind target answers (validations, none)
  | fresh {imageDigest : String} {key : ValidationKey} {record : WorkerValidationRecord}
      {validations' : Validations}
      (hidentity : resolvedIdentity gate kind target answers = some imageDigest)
      (hkey : key = currentKey gate kind target.notebookSourceHash imageDigest)
      (hproven : provenCurrent validations key = false)
      (hfresh : freshProof gate validations kind target answers = some (key, record))
      (hpassed : record.status = .passed)
      (hsave : saveWorkerValidation validations record = .ok validations') :
      GateExit gate validations kind target answers (validations', none)

section Exits

variable {gate : GateConfig} {validations : Validations} {kind : String} {target : GateTarget}
  {answers : GateAnswers}

/-- A validation under a new identifier is saved. -/
theorem saveWorkerValidation_of_fresh {validation : WorkerValidationRecord}
    (hid : validations.find? validation.id = none) :
  ∃ validations', saveWorkerValidation validations validation = .ok validations'
  := by
  obtain ⟨validations', hinsert⟩ := Table.exists_insert? hid
  use validations'
  rw [saveWorkerValidation, hinsert]

/-- Nothing is fresh where no identity is resolved. -/
theorem freshProof_of_unresolved (h : resolvedIdentity gate kind target answers = none) :
  freshProof gate validations kind target answers = none
  := by
  rw [freshProof, h]

/-- How the gate is left for an image whose identity is resolved. -/
theorem gateExit_validateResolved {image imageDigest : String}
    (hidentity : resolvedIdentity gate kind target answers = some imageDigest)
    (hinput : answers.validationInput = .ok ()) {verdict : Validations × Option String}
    (h : validateResolved gate validations kind image target.notebookSourceHash imageDigest answers
      = .ok verdict) :
  GateExit gate validations kind target answers verdict
  := by
  simp only [validateResolved] at h
  split at h
  case isTrue hproven =>
    obtain rfl := Except.ok.inj h
    apply GateExit.cached hidentity hproven
    simp [freshProof, hidentity, hproven]
  case isFalse hproven =>
    rw [Bool.not_eq_true] at hproven
    split at h
    case h_1 hruntime =>
      obtain rfl := Except.ok.inj h
      apply GateExit.rejected
      simp [freshProof, hidentity, hruntime]
    case h_2 hruntime =>
      obtain ⟨⟨result, validations'⟩, hvalidate, h⟩ := Except.bind_eq_ok.mp h
      obtain rfl := Except.ok.inj h
      obtain ⟨first, hfirst, hvalidate⟩ := Except.bind_eq_ok.mp hvalidate
      obtain ⟨saved, hsave, hvalidate⟩ := Except.bind_eq_ok.mp hvalidate
      cases hvalidate
      have hok : (first.bound gate.sha256 target.notebookSourceHash).ok = first.ok := rfl
      cases hfirstOk : first.ok with
      | false =>
          rw [freshRejection, hok, hfirstOk]
          apply GateExit.rejected
          simp [freshProof, hidentity, hruntime, hproven, hinput, hfirst, hfirstOk]
      | true =>
          rw [freshRejection, hok, hfirstOk]
          apply GateExit.fresh hidentity rfl hproven
          · simp [freshProof, hidentity, hruntime, hproven, hinput, hfirst, hfirstOk]
            rfl
          · simp [validationRecord, hok, hfirstOk]
          · apply hsave

/-- An attempt whose identity is not resolved is rejected. -/
theorem gateExit_validateUnresolved {image : String} {imageDigest imageError : Option String}
    (hidentity : resolvedIdentity gate kind target answers = none)
    {verdict : Validations × Option String}
    (h : validateUnresolved gate validations kind image target.notebookSourceHash imageDigest
      imageError answers = .ok verdict) :
  GateExit gate validations kind target answers verdict
  := by
  obtain ⟨⟨result, validations'⟩, -, h⟩ := Except.bind_eq_ok.mp h
  obtain rfl := Except.ok.inj h
  apply GateExit.rejected
  apply freshProof_of_unresolved hidentity

/-- How the gate is left when it does not raise. -/
theorem gateExit_validateBeforeContainerRun
    (hinput : answers.validationInput = .ok ()) {verdict : Validations × Option String}
    (h : validateBeforeContainerRun gate validations kind target answers = .ok verdict) :
  GateExit gate validations kind target answers verdict
  := by
  rw [validateBeforeContainerRun] at h
  cases hworkers : target.workers with
  | none =>
      simp only [hworkers] at h
      obtain rfl := Except.ok.inj h
      apply GateExit.rejected
      apply freshProof_of_unresolved
      rw [resolvedIdentity, hworkers]
  | some workers =>
      simp only [hworkers] at h
      cases himage : workers.get kind with
      | error error =>
          simp only [himage] at h
          obtain rfl := Except.ok.inj h
          apply GateExit.rejected
          apply freshProof_of_unresolved
          simp only [resolvedIdentity, hworkers, himage]
      | ok image =>
          simp only [himage] at h
          split at h
          case h_1 => cases h
          case h_2 imageDigest hidentity =>
            apply gateExit_validateResolved _ hinput h
            simp only [resolvedIdentity, hworkers, himage, hidentity]
          case h_3 imageDigest imageError hresolved hidentity =>
            apply gateExit_validateUnresolved _ h
            simp only [resolvedIdentity, hworkers, himage]
            split
            case h_1 hboth =>
              cases hidentity.symm.trans hboth
              cases hresolved _ rfl rfl
            case h_2 => rfl

/-- What a fresh proof takes: an identity that is resolved and not proven, in Docker, with an
input to validate, and a validation that has passed. -/
theorem freshProof_eq_some {key : ValidationKey} {record : WorkerValidationRecord}
    (h : freshProof gate validations kind target answers = some (key, record)) :
  ∃ imageDigest result, resolvedIdentity gate kind target answers = some imageDigest
    ∧ gate.runtime = .docker ∧ answers.validationInput = .ok ()
    ∧ provenCurrent validations (currentKey gate kind target.notebookSourceHash imageDigest)
      = false
    ∧ firstResult answers.validateWorkers = .ok result
  := by
  rw [freshProof] at h
  cases hidentity : resolvedIdentity gate kind target answers with
  | none => simp [hidentity] at h
  | some imageDigest =>
      simp only [hidentity, Bool.or_eq_true, beq_iff_eq, Bool.not_eq_true'] at h
      split_ifs at h with hskip
      rw [not_or, not_or, Bool.not_eq_true, Bool.not_eq_false] at hskip
      obtain ⟨⟨hproven, hruntime⟩, hinput⟩ := hskip
      obtain ⟨_, hinput⟩ := Except.isOk_eq_true.mp hinput
      cases hfirst : firstResult answers.validateWorkers with
      | error error => simp [hfirst] at h
      | ok result =>
          refine ⟨imageDigest, result, rfl, ?_, hinput, hproven, rfl⟩
          cases hgate : gate.runtime with
          | docker => rfl
          | kubernetes => cases hruntime hgate

/-- An identity is resolved from an image of the worker map, by an inspection without error. -/
theorem resolvedIdentity_eq_some {imageDigest : String}
    (h : resolvedIdentity gate kind target answers = some imageDigest) :
  ∃ workers image, target.workers = some workers ∧ workers.get kind = .ok image
    ∧ imageIdentity gate answers image kind = .ok (some imageDigest, none)
  := by
  rw [resolvedIdentity] at h
  cases hworkers : target.workers with
  | none => simp [hworkers] at h
  | some workers =>
      cases himage : workers.get kind with
      | error error => simp [hworkers, himage] at h
      | ok image =>
          simp only [hworkers, himage] at h
          split at h
          case h_1 hidentity =>
            obtain rfl := Option.some.inj h
            exact ⟨workers, image, rfl, himage, hidentity⟩
          case h_2 => cases h

/-- Where there is a fresh proof the gate does not raise. -/
theorem gate_of_freshProof (hid : validations.find? answers.recordId = none)
    {key : ValidationKey} {record : WorkerValidationRecord}
    (h : freshProof gate validations kind target answers = some (key, record)) :
  ∃ verdict, (do answers.validationInput
                 validateBeforeContainerRun gate validations kind target answers) = .ok verdict
  := by
  obtain ⟨imageDigest, result, hresolved, hruntime, hinput, hproven, hfirst⟩ :=
    freshProof_eq_some h
  obtain ⟨workers, image, hworkers, himage, hidentity⟩ := resolvedIdentity_eq_some hresolved
  obtain ⟨validations', hsave⟩ : ∃ validations', saveWorkerValidation validations
      (validationRecord (result.bound gate.sha256 target.notebookSourceHash) answers.recordId
        answers.clock) = .ok validations' := saveWorkerValidation_of_fresh hid
  have hvalidate : validateAndSave gate validations target.notebookSourceHash answers
      = .ok (result.bound gate.sha256 target.notebookSourceHash, validations') := by
    rw [validateAndSave, hfirst]
    exact Except.bind_eq_ok.mpr ⟨result, rfl, Except.bind_eq_ok.mpr ⟨validations', hsave, rfl⟩⟩
  simp only [hinput, validateBeforeContainerRun, hworkers, himage, hidentity, validateResolved,
    hproven, hruntime, hvalidate]
  exact ⟨_, rfl⟩

/-- How the gate is left. What raises is a rejection. -/
theorem gateExit_gateVerdict (hid : validations.find? answers.recordId = none) :
  GateExit gate validations kind target answers
    (gateVerdict gate validations kind target answers)
  := by
  rw [gateVerdict]
  split
  case h_1 verdict h =>
    obtain ⟨_, hinput, h⟩ := Except.bind_eq_ok.mp h
    apply gateExit_validateBeforeContainerRun hinput h
  case h_2 error h =>
    apply GateExit.rejected
    cases hfresh : freshProof gate validations kind target answers with
    | none => rfl
    | some fresh =>
        obtain ⟨verdict, hverdict⟩ := gate_of_freshProof hid hfresh
        cases h.symm.trans hverdict

end Exits

/-! ### What an attempt comes to -/

/-- An attempt has ended as failed: its run has, and so has the job if the attempt still
owned it. -/
structure AttemptFailed (w : WorkerId) (db db' : Db) (job : JobRecord) (runId : Id) : Prop where
  run : ∃ run, db'.runs.find? runId = some run ∧ run.lineage = job.runLineage job.nextAttempt
    ∧ run.status = .failed
  job : ∀ row, db.jobs.find? job.id = some row → row.ownsAttempt w job.nextAttempt = true →
    ∃ row', db'.jobs.find? job.id = some row' ∧ row'.status = .failed ∧ row'.leaseOwner = none

section Attempt

variable {env : Environment} {config : SchedulerConfig} {gate : GateConfig} {w : WorkerId}
  {db : Db} {goblins : Table NotebookGoblinRecord.kind} {validations : Validations}
  {now : Instant} {job : JobRecord} {startedAt : Instant} {jobs : List JobRecord}
  {answers : GateAnswers} {runId : Id} {latestEventAt : Option Instant} {clock : Instant}
  {after : Validations × Db × Phase × List Event}

/-- What the gate is for. The runtime is only called when the newest validation of the kind,
under the identity that is resolved for the attempt and the current versions, has passed.
Otherwise the attempt fails. It raises, to be recorded as failed by the recovery, when its
kind or its policy cannot be resolved, or its job is gone. -/
def GateOutcome (env : Environment) (config : SchedulerConfig) (gate : GateConfig)
    (w : WorkerId) (db : Db) (goblins : Table NotebookGoblinRecord.kind) (job : JobRecord)
    (answers : GateAnswers) (runId : Id) (after : Validations × Db × Phase × List Event) : Prop :=
  match after.2.2.1 with
  | .started _ _ _ _ _ =>
      ∃ target imageDigest, gateTarget env config.kinds gate goblins job = .ok target
        ∧ resolvedIdentity gate job.kind target answers = some imageDigest
        ∧ provenCurrent after.1 (currentKey gate job.kind target.notebookSourceHash imageDigest)
          = true
  | .recover _ _ _ _ =>
      (∃ error, gateTarget env config.kinds gate goblins job = .error error)
        ∨ db.jobs.find? job.id = none
  | _ => AttemptFailed w db after.2.1 job runId

/-- A rejected attempt has ended as failed, unless its job is gone. -/
theorem rejectAttempt_outcome {validationError : String} {next : Db × Phase × List Event}
    (h : rejectAttempt w db now job startedAt jobs runId validationError latestEventAt clock
      = some next) :
  (∃ error, next.2.1 = .recover now job error jobs ∧ db.jobs.find? job.id = none)
    ∨ next.2.1 = .finalized now job jobs ∧ AttemptFailed w db next.1 job runId
  := by
  rw [rejectAttempt] at h
  split_ifs at h with hid
  rw [Option.not_isSome_iff_eq_none] at hid
  obtain rfl := Option.some.inj h
  generalize hrun : rejectedRun job runId startedAt
    (finishAttemptTimestamp startedAt latestEventAt clock) validationError = run
  have hrunId : run.id = runId := by rw [← hrun, rejectedRun]
  have hjob : run.jobId = job.id := by rw [← hrun, rejectedRun]
  have hattempt : run.attempt = job.nextAttempt := by rw [← hrun, rejectedRun]
  have hstatus : run.status = .failed := by rw [← hrun, rejectedRun]
  have hlineage : run.lineage = job.runLineage job.nextAttempt := by rw [← hrun]; rfl
  have hfinished : run.finishedAt.isSome = true := by rw [← hrun]; rfl
  rw [finalizeWithin]
  cases hfinalize : finalizeAttempt db.jobs db.runs run .failed (some validationError) none w with
  | error error =>
      left
      use error, rfl
      rcases finalizeAttempt_error.mp ⟨error, hfinalize⟩ with hgone | hrunError
      · rwa [hjob] at hgone
      · rw [normalizePersistedRun_of_finished hfinished, finalizeRun_error, hrunId, hid, hstatus]
          at hrunError
        simp [RunStatus.isTerminal] at hrunError
  | ok finalized =>
      obtain ⟨finalization, jobsTable, runs⟩ := finalized
      right
      use rfl
      obtain ⟨row, hrow, hrunOk, -, hjobs⟩ := finalizeAttempt_ok hfinalize
      rw [normalizePersistedRun_of_finished hfinished] at hrunOk
      obtain ⟨-, -, hfind⟩ := finalizeRun_ok hrunOk
      rw [hjob] at hrow
      constructor
      case run =>
        use run
        refine ⟨?_, hlineage, hstatus⟩
        rw [hfind, if_pos hrunId]
      case job =>
        intro row' hrow' howns
        obtain rfl := Option.some.inj (hrow.symm.trans hrow')
        rcases hjobs with ⟨-, -, rfl⟩ | ⟨hnot, -, -⟩
        · use row.release .failed (some validationError) none
          rw [find?_finishJob, hjob, hrow, Option.map_some, if_pos (Table.key_of_find? hrow)]
          use rfl, rfl
          rfl
        · rw [hattempt, howns] at hnot
          cases hnot

/-- An attempt that starts has its run inserted. -/
theorem startAttempt_outcome {next : Db × Phase × List Event}
    (h : startAttempt db now job startedAt jobs runId = some next) :
  next.2.1 = .started now job startedAt runId jobs
  := by
  rw [startAttempt] at h
  split_ifs at h with hid
  rw [Option.not_isSome_iff_eq_none] at hid
  obtain ⟨runs, hinsert⟩ : ∃ runs, db.runs.insert? (runningRun job runId startedAt) = some runs :=
    Table.exists_insert? hid
  have hstart : startRun db.runs (runningRun job runId startedAt)
      = insertRun db.runs (runningRun job runId startedAt) := by
    simp [startRun, runningRun]
  rw [hstart, insertRun, hinsert] at h
  obtain rfl := Option.some.inj h
  rfl

/-- What a pass of the gate does is a step of the scheduler. -/
theorem executeGate_schedulerStep
    (h : executeGate env config gate w db goblins validations now job startedAt jobs answers
      runId latestEventAt clock = some after) :
  ∃ action, schedulerStep env config w db (.marked now job startedAt jobs) action
    = some after.2
  := by
  rw [executeGate] at h
  split_ifs at h with hid
  cases htarget : gateTarget env config.kinds gate goblins job with
  | error error =>
      simp only [htarget] at h
      obtain rfl := Option.some.inj h
      use .raise error
      rfl
  | ok target =>
      simp only [htarget] at h
      split at h
      case h_1 validationError hverdict =>
        obtain ⟨next, hnext, rfl⟩ := Option.map_eq_some_iff.mp h
        use .reject runId validationError latestEventAt clock
        exact hnext
      case h_2 hverdict =>
        obtain ⟨next, hnext, rfl⟩ := Option.map_eq_some_iff.mp h
        use .start runId
        exact hnext

/-- The gate does what it is for exactly when a fresh validation that lets the attempt pass is
a proof for the attempt: tied to the key that was looked up, and newer than every validation
that is stored under it. -/
theorem executeGate_iff
    (h : executeGate env config gate w db goblins validations now job startedAt jobs answers
      runId latestEventAt clock = some after) :
  GateOutcome env config gate w db goblins job answers runId after
    ↔ ∀ target key record, gateTarget env config.kinds gate goblins job = .ok target →
      freshProof gate validations job.kind target answers = some (key, record) →
      record.key = key ∧ record.supersedes validations = true
  := by
  rw [executeGate] at h
  split_ifs at h with hid
  rw [Option.not_isSome_iff_eq_none] at hid
  cases htarget : gateTarget env config.kinds gate goblins job with
  | error error =>
      simp only [htarget] at h
      obtain rfl := Option.some.inj h
      simp [GateOutcome, htarget]
  | ok target =>
      simp only [htarget, Except.ok.injEq] at h ⊢
      have hexit : GateExit gate validations job.kind target answers
          (gateVerdict gate validations job.kind target answers) := gateExit_gateVerdict hid
      generalize gateVerdict gate validations job.kind target answers = verdict at h hexit
      cases hexit with
      | @rejected validations' error hfresh =>
          obtain ⟨next, hnext, rfl⟩ := Option.map_eq_some_iff.mp h
          constructor
          · rintro - target' key record rfl hproof
            cases hfresh.symm.trans hproof
          · intro _
            rcases rejectAttempt_outcome hnext with ⟨error, hphase, hgone⟩ | ⟨hphase, hfailed⟩
            · rw [GateOutcome, hphase]
              right
              apply hgone
            · rw [GateOutcome, hphase]
              apply hfailed
      | cached hidentity hproven hfresh =>
          obtain ⟨next, hnext, rfl⟩ := Option.map_eq_some_iff.mp h
          constructor
          · rintro - target' key record rfl hproof
            cases hfresh.symm.trans hproof
          · intro _
            rw [GateOutcome, startAttempt_outcome hnext]
            exact ⟨target, _, htarget, hidentity, hproven⟩
      | @fresh imageDigest key record validations' hidentity hkey hproven hfresh hpassed hsave =>
          obtain ⟨next, hnext, rfl⟩ := Option.map_eq_some_iff.mp h
          have hiff := provenCurrent_saveWorkerValidation hsave hpassed hproven
          rw [GateOutcome, startAttempt_outcome hnext]
          constructor
          · rintro ⟨target', imageDigest', htarget', hidentity', hproven'⟩ target'' key' record'
              rfl hproof
            obtain ⟨rfl, rfl⟩ := Prod.mk.inj (Option.some.inj (hfresh.symm.trans hproof))
            obtain rfl := Except.ok.inj (htarget.symm.trans htarget')
            obtain rfl := Option.some.inj (hidentity.symm.trans hidentity')
            rw [← hkey] at hproven'
            apply hiff.mp hproven'
          · intro htrusted
            obtain htrusted := htrusted target key record rfl hfresh
            refine ⟨target, imageDigest, htarget, hidentity, ?_⟩
            rw [← hkey]
            apply hiff.mpr htrusted

end Attempt

/-! ### An image that changes -/

/-- A job that is claimed for its first attempt. -/
def claimedReport : JobRecord where
  id := "a"
  kind := "report"
  createdAt := 0
  status := .leased
  leaseOwner := some "s1"
  leasedUntil := some 60000000

/-- A database with the job at its first attempt. -/
def markedDb : Db where
  jobs := ⟨[{ claimedReport with status := .running, attemptCount := 1 }],
    List.nodup_singleton _⟩
  runs := .empty
  schedules := .empty

/-- A Docker runtime with one worker image. -/
def dockerGate : GateConfig where
  runtime := .docker
  workers := some [("report", "report:latest")]
  validationImageIdentity := fun image _ => "kubernetes:" ++ image
  sha256 := fun text => text

/-- The image has the identity `one` when the scheduler inspects it, and is found to keep the
contract under the given identity. -/
def imageAnswers (validatedDigest : String) : GateAnswers where
  inspectImageIdentity := .ok (some "one", none)
  validateWorkers := .ok [{
    kind := "report"
    ok := true
    image := some "report:latest"
    imageDigest := some validatedDigest
    validatedAt := some 10 }]
  recordId := "v"
  clock := 10

/-- The first attempt of the job, with no validation stored. -/
def sampleGate (validatedDigest : String) : Option (Validations × Db × Phase × List Event) :=
  executeGate Environment.sample { kinds := ["report"] } dockerGate "s1" markedDb .empty .empty 0
    claimedReport 5 [] (imageAnswers validatedDigest) "r" none 20

/-- The gate does what it is for on an image that stays as it is: the attempt runs it, and the identity that
was resolved is validated. -/
theorem executeGate_iff_unchanged :
  ∃ after, sampleGate "one" = some after ∧ after.2.2.1 = .started 0 claimedReport 5 "r" [] ∧
    GateOutcome Environment.sample { kinds := ["report"] } dockerGate "s1" markedDb .empty
      claimedReport (imageAnswers "one") "r" after
  := by
  have hphase : (sampleGate "one").map (fun after => after.2.2.1)
      = some (.started 0 claimedReport 5 "r" []) := by
    decide +kernel
  obtain ⟨after, hafter, hphase⟩ := Option.map_eq_some_iff.mp hphase
  use after, hafter, hphase
  apply (executeGate_iff hafter).mpr
  intro target key record htarget hproof
  have hresolved : gateTarget Environment.sample ["report"] dockerGate .empty claimedReport
      = .ok ⟨dockerGate.workers, none⟩ := rfl
  obtain rfl := Except.ok.inj (hresolved.symm.trans htarget)
  cases hproof
  exact ⟨rfl, rfl⟩

/-- The image is replaced between the inspection and the validation. The attempt runs it, and
nothing is stored under the identity that was resolved. -/
theorem image_replaced :
  ¬ ∀ (env : Environment) (config : SchedulerConfig) (gate : GateConfig) (w : WorkerId)
    (db : Db) (goblins : Table NotebookGoblinRecord.kind) (validations : Validations)
    (now : Instant) (job : JobRecord) (startedAt : Instant) (jobs : List JobRecord)
    (answers : GateAnswers) (runId : Id) (latestEventAt : Option Instant) (clock : Instant)
    (after : Validations × Db × Phase × List Event),
    executeGate env config gate w db goblins validations now job startedAt jobs answers runId
      latestEventAt clock = some after →
    GateOutcome env config gate w db goblins job answers runId after
  := by
  intro hgate
  have hmap : (sampleGate "two").map (fun after => (after.2.2.1, provenCurrent after.1
      (currentKey dockerGate "report" none "one")))
      = some (.started 0 claimedReport 5 "r" [], false) := by
    decide +kernel
  obtain ⟨after, hafter, hpair⟩ := Option.map_eq_some_iff.mp hmap
  obtain ⟨hphase, hunproven⟩ := Prod.mk.inj hpair
  have houtcome := hgate _ _ _ _ _ _ _ _ _ _ _ _ _ _ _ after hafter
  rw [GateOutcome, hphase] at houtcome
  obtain ⟨target, imageDigest, htarget, hidentity, hproven⟩ := houtcome
  have hresolved : gateTarget Environment.sample ["report"] dockerGate .empty claimedReport
      = .ok ⟨dockerGate.workers, none⟩ := rfl
  obtain rfl := Except.ok.inj (hresolved.symm.trans htarget)
  have hone : resolvedIdentity dockerGate "report" ⟨dockerGate.workers, none⟩
      (imageAnswers "two") = some "one" := rfl
  obtain rfl := Option.some.inj (hone.symm.trans hidentity)
  have hproven' : provenCurrent after.1 (currentKey dockerGate "report" none "one") = true :=
    hproven
  rw [hunproven] at hproven'
  cases hproven'

end GoblinKing
