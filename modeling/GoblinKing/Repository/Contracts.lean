import GoblinKing.Contracts

/-!
# Repository records

The records of the goblin repository: the catalog entries, their versions, and the notebook
records that hold the source which is run. The records have the columns that the functions
of this development read or compare.
-/

namespace GoblinKing

/-- The status of an entry, of a version, and of the approval of a version. -/
inductive RepositoryStatus where
  | draft
  | validated
  | pendingReview
  | approved
  | published
  | rejected
  | retired
  deriving DecidableEq, Repr

/-- The text of a status, as it stands in the database and in error messages. -/
def RepositoryStatus.text : RepositoryStatus → String
  | .draft => "draft"
  | .validated => "validated"
  | .pendingReview => "pending_review"
  | .approved => "approved"
  | .published => "published"
  | .rejected => "rejected"
  | .retired => "retired"

/-- `REPOSITORY_STATUS_TRANSITIONS` -/
def RepositoryStatus.transitions : RepositoryStatus → List RepositoryStatus
  | .draft => [.validated, .rejected, .retired]
  | .validated => [.pendingReview, .rejected, .retired]
  | .pendingReview => [.approved, .rejected, .retired]
  | .approved => [.published, .rejected, .retired]
  | .published => [.retired]
  | .rejected => [.retired]
  | .retired => []

/-- What the source of an entry defines. -/
inductive RepositoryGoblinType where
  | notebookFunction
  | notebookService
  deriving DecidableEq, Repr

/-- The mutable catalog entry of a shared goblin. -/
structure RepositoryEntryRecord where
  id : Id
  name : String
  type : RepositoryGoblinType
  projectId : Option Id := none
  owner : String
  status : RepositoryStatus := .draft
  publishedVersion : Option ℕ := none
  updatedAt : Instant
  deriving DecidableEq, Repr

/-- The JSON object without fields. -/
def JsonObject.empty : JsonObject :=
  ⟨"\x7b\x7d"⟩

/-- One submitted source version of an entry. -/
structure RepositoryVersionRecord where
  id : Id
  entryId : Id
  version : ℕ
  kind : String
  sourceHash : String
  runnerImage : String
  validationProof : JsonObject := .empty
  approvalStatus : RepositoryStatus := .draft
  status : RepositoryStatus := .draft
  approvedBy : Option String := none
  approvedAt : Option Instant := none
  publishedAt : Option Instant := none
  createdAt : Instant
  updatedAt : Instant
  deriving DecidableEq, Repr

/-- A notebook-defined function bundle. -/
structure NotebookGoblinRecord where
  kind : String
  projectId : Option Id := none
  image : String
  source : String
  sourceHash : String
  functionName : String := "run"
  timeoutSeconds : Option ℕ+ := none
  maxRetries : ℕ := 0
  deriving DecidableEq, Repr

/-- A notebook-defined service bundle and its managed runtime. -/
structure NotebookServiceRecord where
  kind : String
  projectId : Option Id := none
  source : String
  sourceHash : String
  appName : String := "app"
  requirements : List String := []
  runtimeBackend : Option String := none
  runtimeName : Option String := none
  runtimeStatus : String := "declared"
  activeServiceId : Option Id := none
  deriving DecidableEq, Repr

/-- A string that is there and is not empty: what counts as true of an optional string. -/
def truthy (value : Option String) : Option String :=
  value.filter (fun text => text ≠ "")

end GoblinKing
