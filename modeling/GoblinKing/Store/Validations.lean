import GoblinKing.Contracts
import GoblinKing.Library.Latest

/-!
# Worker validations

The table of the outcomes of contract validations. A row is inserted for every validation and
never changed. The time of a row is the wall clock of the machine that has validated, as it is
stored.
-/

namespace GoblinKing

/-- The outcome of a validation. -/
inductive ValidationStatus where
  | passed
  | failed
  deriving DecidableEq, Repr

/-- The outcome of the validation of one resolved worker image. -/
structure WorkerValidationRecord where
  id : Id
  kind : String
  image : String
  imageDigest : String
  contractVersion : String
  validatorVersion : String
  validatedAt : Instant
  status : ValidationStatus
  failureReasons : List String := []
  deriving DecidableEq, Repr

/-- What a proof is tied to: the kind, the identity of the image, and the versions of the
container contract and of the validator. -/
structure ValidationKey where
  kind : String
  imageDigest : String
  contractVersion : String
  validatorVersion : String
  deriving DecidableEq, Repr

/-- What the outcome of a validation is tied to. -/
def WorkerValidationRecord.key (record : WorkerValidationRecord) : ValidationKey :=
  ⟨record.kind, record.imageDigest, record.contractVersion, record.validatorVersion⟩

/-- The table of validations. -/
abbrev Validations := Table WorkerValidationRecord.id

/-- Insert one validation. -/
def saveWorkerValidation (validations : Validations) (validation : WorkerValidationRecord) :
    Except String Validations :=
  match validations.insert? validation with
  | some validations' => .ok validations'
  | none => .error "IntegrityError: UNIQUE constraint failed: worker_validations.id"

/-- The newest validation of one resolved image identity. -/
def getLatestWorkerValidation (validations : Validations) (key : ValidationKey) :
    Option WorkerValidationRecord :=
  Latest.latest WorkerValidationRecord.key WorkerValidationRecord.validatedAt validations.rows key

/-- The newest validation of one kind. -/
def latestWorkerValidationForKind (validations : Validations) (kind : String) :
    Option WorkerValidationRecord :=
  Latest.latest WorkerValidationRecord.kind WorkerValidationRecord.validatedAt validations.rows kind

/-- The newest validation under a key has passed. -/
def provenCurrent (validations : Validations) (key : ValidationKey) : Bool :=
  (getLatestWorkerValidation validations key).any (fun record => record.status == .passed)

/-- A validation that is saved is appended. -/
theorem saveWorkerValidation_ok {validations validations' : Validations}
    {validation : WorkerValidationRecord}
    (h : saveWorkerValidation validations validation = .ok validations') :
  validations'.rows = validations.rows ++ [validation]
  := by
  rw [saveWorkerValidation] at h
  cases hinsert : validations.insert? validation with
  | none => simp [hinsert] at h
  | some table =>
      simp only [hinsert, Except.ok.injEq] at h
      rw [← h]
      apply Table.rows_insert? hinsert

/-- A validation is newer than every stored one under its key. -/
def WorkerValidationRecord.supersedes (validations : Validations)
    (record : WorkerValidationRecord) : Bool :=
  validations.rows.all (fun row => row.key != record.key || decide (row.validatedAt < record.validatedAt))

/-- Where nothing proves a key, saving a passing validation proves it exactly when the
validation is tied to that key and supersedes what is stored under it. -/
theorem provenCurrent_saveWorkerValidation {validations validations' : Validations}
    {validation : WorkerValidationRecord} {key : ValidationKey}
    (h : saveWorkerValidation validations validation = .ok validations')
    (hpassed : validation.status = .passed) (hold : provenCurrent validations key = false) :
  provenCurrent validations' key = true
    ↔ validation.key = key ∧ validation.supersedes validations = true
  := by
  have hrows := saveWorkerValidation_ok h
  by_cases hkey : validation.key = key
  · subst hkey
    by_cases hnewer : validation.supersedes validations = true
    · have hlatest : getLatestWorkerValidation validations' validation.key = some validation := by
        rw [getLatestWorkerValidation, hrows]
        apply Latest.latest_concat_self
        intro r hr hk
        have := List.all_eq_true.mp hnewer r hr
        simpa [hk] using this
      simp [provenCurrent, hlatest, hpassed, hnewer]
    · have hexists : ∃ r ∈ validations.rows, r.key = validation.key
          ∧ validation.validatedAt ≤ r.validatedAt := by
        simpa [WorkerValidationRecord.supersedes] using hnewer
      obtain ⟨r, hr, hk, hle⟩ := hexists
      have hlatest : getLatestWorkerValidation validations' validation.key
          = getLatestWorkerValidation validations validation.key := by
        rw [getLatestWorkerValidation, hrows]
        apply Latest.latest_concat_of_le hr hk hle
      rw [provenCurrent, hlatest, ← provenCurrent, hold]
      simp [hnewer]
  · have hlatest : getLatestWorkerValidation validations' key
        = getLatestWorkerValidation validations key := by
      rw [getLatestWorkerValidation, hrows]
      apply Latest.latest_concat_of_ne hkey
    rw [provenCurrent, hlatest, ← provenCurrent, hold]
    simp [hkey]

end GoblinKing
