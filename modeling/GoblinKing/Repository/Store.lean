import GoblinKing.Library.Index
import GoblinKing.Library.Except
import GoblinKing.Repository.Contracts
import Mathlib.Data.List.Sort

/-!
# The repository tables

The tables of the repository and the transactions of the store on them. Two operations on an
entry and two on a version read a row in one transaction, check it, and write in another one
by the key alone; here each is a function for the read with its checks, and one for the
write. A write that raises leaves the tables as they were.
-/

namespace GoblinKing

/-- The name under which an entry that is not retired is in the index
`uq_repository_entries_active_project_name`. -/
def RepositoryEntryRecord.activeName (entry : RepositoryEntryRecord) : Option (Id × String) :=
  if entry.status = .retired then none else some (entry.projectId.getD "", entry.name)

/-- The number of a version in the index `ix_repository_versions_entry_version`. -/
def RepositoryVersionRecord.number (version : RepositoryVersionRecord) : Option (Id × ℕ) :=
  some (version.entryId, version.version)

/-- The tables of the repository, and those of the notebook records. -/
structure RepositoryDb where
  entries : IndexedTable RepositoryEntryRecord.id RepositoryEntryRecord.activeName
  versions : IndexedTable RepositoryVersionRecord.id RepositoryVersionRecord.number
  goblins : Table NotebookGoblinRecord.kind
  services : Table NotebookServiceRecord.kind

/-- A repository without rows. -/
def RepositoryDb.empty : RepositoryDb :=
  ⟨.empty, .empty, .empty, .empty⟩

/-- A status may stay as it is, or follow the transitions. -/
def RepositoryStatus.mayBecome (current target : RepositoryStatus) : Bool :=
  decide (current = target) || current.transitions.contains target

/-- `_validate_repository_transition` -/
def validateRepositoryTransition (current target : RepositoryStatus) : Except String Unit :=
  if current.mayBecome target then
    .ok ()
  else
    .error ("cannot transition repository record from " ++ current.text ++ " to " ++ target.text)

/-! ### Entries -/

/-- `_ensure_repository_entry_name_available` -/
def ensureRepositoryEntryNameAvailable (db : RepositoryDb) (projectId : Option Id)
    (name : String) (excludeEntryId : Option Id) : Except String Unit :=
  let taken := fun entry : RepositoryEntryRecord =>
    decide (entry.name = name) && decide (entry.status ≠ .retired)
      && decide (entry.projectId = projectId) && decide (some entry.id ≠ excludeEntryId)
  raiseIf (db.entries.table.rows.any taken) "repository entry name already exists in project"

/-- `_require_repository_version_status` -/
def requireRepositoryVersionStatus (db : RepositoryDb) (entryId : Id) (version : ℕ)
    (status : RepositoryStatus) : Except String Unit :=
  raiseIf (decide ((db.versions.findIndex? (entryId, version)).map
      RepositoryVersionRecord.status ≠ some status))
    ("repository version " ++ toString version ++ " is not " ++ status.text)

/-- Insert a catalog entry. -/
def createRepositoryEntry (db : RepositoryDb) (entry : RepositoryEntryRecord) :
    Except String RepositoryDb := do
  raiseIf (decide (entry.status ≠ .draft)) "repository entries must start as drafts"
  raiseIf entry.publishedVersion.isSome "draft repository entries cannot be published"
  ensureRepositoryEntryNameAvailable db entry.projectId entry.name none
  let entries ← uniqueOr (db.entries.insert? entry)
  .ok { db with entries := entries }

/-- The read of `update_repository_entry`, with its checks. -/
def readEntryUpdate (db : RepositoryDb) (entry : RepositoryEntryRecord) :
    Except String RepositoryEntryRecord :=
  match db.entries.find? entry.id with
  | none => .error ("repository entry not found: " ++ entry.id)
  | some existing => do
      validateRepositoryTransition existing.status entry.status
      raiseIf (decide (entry.status = .published) && entry.publishedVersion.isNone)
        "published repository entries require a published version"
      .ok existing

/-- The columns of an entry that an update writes: all of them. -/
def RepositoryEntryRecord.replace (values row : RepositoryEntryRecord) : RepositoryEntryRecord :=
  { values with id := row.id }

theorem RepositoryEntryRecord.replace_id (values row : RepositoryEntryRecord) :
  (values.replace row).id = row.id
  := rfl

/-- The check of `update_repository_entry` on an entry that gets another name or project. -/
def ensureEntryRenamed (db : RepositoryDb) (existing entry : RepositoryEntryRecord) :
    Except String Unit :=
  if (entry.projectId, entry.name) = (existing.projectId, existing.name) then
    .ok ()
  else
    ensureRepositoryEntryNameAvailable db entry.projectId entry.name (some entry.id)

/-- The check of `update_repository_entry` on the version that an entry points at. -/
def ensurePublishedVersion (db : RepositoryDb) (entry : RepositoryEntryRecord) :
    Except String Unit :=
  match entry.publishedVersion with
  | none => .ok ()
  | some version => requireRepositoryVersionStatus db entry.id version .published

/-- The write of `update_repository_entry`, after the entry was read as `existing`. -/
def writeEntryUpdate (db : RepositoryDb) (existing entry : RepositoryEntryRecord) :
    Except String RepositoryDb := do
  ensureEntryRenamed db existing entry
  ensurePublishedVersion db entry
  let entries ← uniqueOr (db.entries.update? (fun row => decide (row.id = entry.id)) entry.replace
    entry.replace_id)
  .ok { db with entries := entries }

/-- A transition of an entry. -/
structure EntryTransition where
  status : RepositoryStatus
  updatedAt : Instant
  publishedVersion : Option ℕ := none
  deriving DecidableEq

/-- The row of an entry with its status, and with a published version when one is given. -/
def RepositoryEntryRecord.setStatus (status : RepositoryStatus) (updatedAt : Instant)
    (publishedVersion : Option ℕ) (entry : RepositoryEntryRecord) : RepositoryEntryRecord :=
  { entry with
    status := status
    updatedAt := updatedAt
    publishedVersion := publishedVersion.or entry.publishedVersion }

theorem RepositoryEntryRecord.setStatus_id (status : RepositoryStatus) (updatedAt : Instant)
    (publishedVersion : Option ℕ) (entry : RepositoryEntryRecord) :
  (entry.setStatus status updatedAt publishedVersion).id = entry.id
  := rfl

/-- The statement that sets the status of an entry. -/
def setEntryStatus (db : RepositoryDb) (entryId : Id) (status : RepositoryStatus)
    (updatedAt : Instant) (publishedVersion : Option ℕ) : Except String RepositoryDb := do
  let entries ← uniqueOr (db.entries.update? (fun row => decide (row.id = entryId))
    (RepositoryEntryRecord.setStatus status updatedAt publishedVersion)
    (RepositoryEntryRecord.setStatus_id status updatedAt publishedVersion))
  .ok { db with entries := entries }

/-- The read of `transition_repository_entry_status`, with its checks, and the published
version that is to be written. -/
def readEntryTransition (db : RepositoryDb) (entryId : Id) (transition : EntryTransition) :
    Except String EntryTransition :=
  match db.entries.find? entryId with
  | none => .error ("repository entry not found: " ++ entryId)
  | some existing => do
      validateRepositoryTransition existing.status transition.status
      if transition.status = .published then
        -- a version 0 counts as none
        match (transition.publishedVersion.filter (fun v => v ≠ 0)).or existing.publishedVersion with
        | none => .error "published repository entries require a published version"
        | some version => .ok { transition with publishedVersion := some version }
      else
        .ok transition

/-- The check of `transition_repository_entry_status` on the version of an entry that is to be
published. The version that any other status brings along is not checked. -/
def ensureEntryPublishable (db : RepositoryDb) (entryId : Id) (transition : EntryTransition) :
    Except String Unit :=
  if transition.status = .published then
    requireRepositoryVersionStatus db entryId (transition.publishedVersion.getD 0) .published
  else
    .ok ()

/-- The write of `transition_repository_entry_status`. -/
def writeEntryTransition (db : RepositoryDb) (entryId : Id) (transition : EntryTransition) :
    Except String RepositoryDb := do
  ensureEntryPublishable db entryId transition
  setEntryStatus db entryId transition.status transition.updatedAt transition.publishedVersion

/-- Delete an entry that is draft, rejected or retired, with its versions and the notebook
records under the kinds of its versions. -/
def deleteRepositoryEntry (db : RepositoryDb) (entryId : Id) : Except String RepositoryDb :=
  match db.entries.find? entryId with
  | none => .error ("repository entry not found: " ++ entryId)
  | some entry => do
      raiseIf (!([RepositoryStatus.draft, .rejected, .retired].contains entry.status))
        "repository entries must be draft, rejected, or retired before deletion"
      let kinds := (db.versions.table.select (fun version => decide (version.entryId = entryId))).map
        RepositoryVersionRecord.kind
      raiseIf (decide (entry.type = .notebookService) && db.services.rows.any (fun service =>
          kinds.contains service.kind && service.activeServiceId.isSome))
        "repository entry has an active service runtime; stop it before deleting"
      .ok {
        entries := db.entries.delete (fun row => decide (row.id = entryId))
        versions := db.versions.delete (fun version => decide (version.entryId = entryId))
        goblins :=
          if entry.type = .notebookFunction then
            db.goblins.delete (fun goblin => kinds.contains goblin.kind)
          else
            db.goblins
        services :=
          if entry.type = .notebookFunction then
            db.services
          else
            db.services.delete (fun service => kinds.contains service.kind) }

/-! ### Versions -/

/-- The newest version of an entry. -/
def latestVersion (db : RepositoryDb) (entryId : Id) : Option RepositoryVersionRecord :=
  ((db.versions.table.select (fun version => decide (version.entryId = entryId))).insertionSort
    (fun a b => b.version ≤ a.version)).head?

/-- The checks of a new version against the newest one of its entry. -/
def ensureNextVersion (version : RepositoryVersionRecord) (latest : Option RepositoryVersionRecord) :
    Except String Unit :=
  match latest with
  | none => raiseIf (decide (version.version ≠ 1)) "first repository version must be 1"
  | some latest => do
      raiseIf (decide (version.version ≠ latest.version + 1))
        "repository source changes must create the next sequential version"
      raiseIf (decide (version.sourceHash = latest.sourceHash))
        "repository version source hash must change"

/-- Insert a draft version, and make its entry a draft. -/
def createRepositoryVersion (db : RepositoryDb) (version : RepositoryVersionRecord) :
    Except String RepositoryDb := do
  raiseIf (decide (version.status ≠ .draft) || decide (version.approvalStatus ≠ .draft))
    "repository versions must start as drafts"
  raiseIf (version.approvedBy.isSome || version.approvedAt.isSome)
    "draft repository versions cannot keep approval"
  raiseIf version.publishedAt.isSome "draft repository versions cannot be published"
  match db.entries.find? version.entryId with
  | none => .error ("repository entry not found: " ++ version.entryId)
  | some entry => do
      raiseIf (decide (entry.status = .retired))
        "retired repository entries cannot receive new versions"
      ensureNextVersion version (latestVersion db version.entryId)
      raiseIf (db.versions.findIndex? (version.entryId, version.version)).isSome
        "repository version already exists"
      let versions ← uniqueOr (db.versions.insert? version)
      setEntryStatus { db with versions := versions } version.entryId .draft version.updatedAt none

/-- `REPOSITORY_VERSION_IDENTITY_FIELDS` -/
def RepositoryVersionRecord.identity (version : RepositoryVersionRecord) :
    Id × ℕ × String × String × String × Instant :=
  (version.entryId, version.version, version.kind, version.sourceHash, version.runnerImage,
    version.createdAt)

/-- `_ensure_repository_version_publishable` -/
def ensureRepositoryVersionPublishable (version : RepositoryVersionRecord) :
    Except String Unit :=
  if version.status = .published then do
    raiseIf (!([RepositoryStatus.approved, .published].contains version.approvalStatus))
      "published repository versions require approval"
    raiseIf (version.approvedBy.isNone || version.approvedAt.isNone)
      "published repository versions require approval"
    raiseIf version.publishedAt.isNone
      "published repository versions require a publication timestamp"
  else
    .ok ()

/-- The read of `update_repository_version`, with its checks. The check of the source hash
that follows in the source cannot fail, since the hash belongs to the identity. -/
def readVersionUpdate (db : RepositoryDb) (version : RepositoryVersionRecord) :
    Except String Unit :=
  match db.versions.find? version.id with
  | none => .error ("repository version not found: " ++ version.id)
  | some existing => do
      raiseIf (decide (existing.status = .published)) "published repository versions are immutable"
      raiseIf (decide (existing.identity ≠ version.identity))
        "repository version identity cannot change"
      validateRepositoryTransition existing.status version.status

/-- The columns of a version that an update writes: all of them. -/
def RepositoryVersionRecord.replace (values row : RepositoryVersionRecord) :
    RepositoryVersionRecord :=
  { values with id := row.id }

theorem RepositoryVersionRecord.replace_id (values row : RepositoryVersionRecord) :
  (values.replace row).id = row.id
  := rfl

/-- The write of `update_repository_version`. A published version is published in its entry
as well. -/
def writeVersionUpdate (db : RepositoryDb) (version : RepositoryVersionRecord) :
    Except String RepositoryDb := do
  ensureRepositoryVersionPublishable version
  let versions ← uniqueOr (db.versions.update? (fun row => decide (row.id = version.id))
    version.replace version.replace_id)
  if version.status = .published then
    setEntryStatus { db with versions := versions } version.entryId .published version.updatedAt
      (some version.version)
  else
    .ok { db with versions := versions }

/-- A transition of a version. -/
structure VersionTransition where
  status : RepositoryStatus
  updatedAt : Instant
  validationProof : Option JsonObject := none
  approvedBy : Option String := none
  approvedAt : Option Instant := none
  publishedAt : Option Instant := none
  deriving DecidableEq

/-- The columns that a transition writes; a column that is `none` is kept. The approval
status is written in every branch, and always as the status. -/
structure VersionValues where
  status : RepositoryStatus
  updatedAt : Instant
  validationProof : Option JsonObject := none
  approvedBy : Option (Option String) := none
  approvedAt : Option (Option Instant) := none
  publishedAt : Option (Option Instant) := none
  deriving DecidableEq

/-- The row of a version with the columns of a transition. -/
def VersionValues.apply (values : VersionValues) (row : RepositoryVersionRecord) :
    RepositoryVersionRecord :=
  { row with
    status := values.status
    approvalStatus := values.status
    updatedAt := values.updatedAt
    validationProof := values.validationProof.getD row.validationProof
    approvedBy := values.approvedBy.getD row.approvedBy
    approvedAt := values.approvedAt.getD row.approvedAt
    publishedAt := values.publishedAt.getD row.publishedAt }

theorem VersionValues.apply_id (values : VersionValues) (row : RepositoryVersionRecord) :
  (values.apply row).id = row.id
  := rfl

/-- What a transition writes to a version that was read as `existing`. -/
def transitionValues (existing : RepositoryVersionRecord) (transition : VersionTransition) :
    Except String VersionValues := do
  validateRepositoryTransition existing.status transition.status
  let values : VersionValues := {
    status := transition.status
    updatedAt := transition.updatedAt
    validationProof := transition.validationProof }
  match transition.status with
  | .draft =>
      .ok { values with
        approvedBy := some none
        approvedAt := some none
        validationProof := some .empty
        publishedAt := some none }
  | .rejected | .retired => .ok { values with approvedBy := some none, approvedAt := some none }
  | .validated =>
      let proof := transition.validationProof.getD existing.validationProof
      if proof = .empty then
        .error "validated repository versions require validation proof"
      else
        .ok { values with validationProof := some proof }
  | .pendingReview => .ok values
  | .approved =>
      match (truthy transition.approvedBy).or (truthy existing.approvedBy) with
      | none => .error "approved repository versions require an approver"
      | some approver =>
          .ok { values with
            approvedBy := some (some approver)
            approvedAt :=
              some (some ((transition.approvedAt.or existing.approvedAt).getD transition.updatedAt)) }
  | .published =>
      match (truthy transition.approvedBy).or (truthy existing.approvedBy),
        transition.approvedAt.or existing.approvedAt with
      | some approver, some approvedTime =>
          .ok { values with
            approvedBy := some (some approver)
            approvedAt := some (some approvedTime)
            publishedAt := some (some (transition.publishedAt.getD transition.updatedAt)) }
      | _, _ => .error "published repository versions require approval"

/-- The read of `transition_repository_version_status`, with its checks: what is to be
written, or nothing when a published version is to be published. -/
def readVersionTransition (db : RepositoryDb) (entryId : Id) (version : ℕ)
    (transition : VersionTransition) : Except String (Option VersionValues) :=
  match db.versions.findIndex? (entryId, version) with
  | none => .error ("repository version not found: " ++ entryId ++ ":" ++ toString version)
  | some existing =>
      if existing.status = .published then
        if transition.status = .published then
          .ok none
        else
          .error "published repository versions are immutable"
      else do
        let values ← transitionValues existing transition
        .ok (some values)

/-- The write of `transition_repository_version_status`. The status goes to the entry as
well. -/
def writeVersionTransition (db : RepositoryDb) (entryId : Id) (version : ℕ)
    (values : VersionValues) : Except String RepositoryDb := do
  let versions ← uniqueOr (db.versions.update?
    (fun row => decide (row.entryId = entryId) && decide (row.version = version)) values.apply
    values.apply_id)
  setEntryStatus { db with versions := versions } entryId values.status values.updatedAt
    (if values.status = .published then some version else none)

/-! ### Notebook records -/

/-- Insert or replace one notebook-defined function. -/
def saveNotebookGoblin (db : RepositoryDb) (record : NotebookGoblinRecord) : RepositoryDb :=
  { db with goblins := db.goblins.upsert record }

/-- Insert or replace one notebook-defined service. -/
def saveNotebookService (db : RepositoryDb) (record : NotebookServiceRecord) : RepositoryDb :=
  { db with services := db.services.upsert record }

/-- The columns of the runtime of a service. -/
structure ServiceRuntime where
  runtimeStatus : String
  runtimeBackend : Option String := none
  runtimeName : Option String := none
  activeServiceId : Option Id := none
  deriving DecidableEq

/-- The row of a service with another runtime. -/
def NotebookServiceRecord.setRuntime (runtime : ServiceRuntime) (record : NotebookServiceRecord) :
    NotebookServiceRecord :=
  { record with
    runtimeStatus := runtime.runtimeStatus
    runtimeBackend := runtime.runtimeBackend
    runtimeName := runtime.runtimeName
    activeServiceId := runtime.activeServiceId }

theorem NotebookServiceRecord.setRuntime_kind (runtime : ServiceRuntime)
    (record : NotebookServiceRecord) :
  (record.setRuntime runtime).kind = record.kind
  := rfl

/-- Persist the runtime of a service. A column that is not given becomes null. -/
def updateNotebookServiceRuntime (services : Table NotebookServiceRecord.kind) (kind : String)
    (runtime : ServiceRuntime) : Table NotebookServiceRecord.kind :=
  services.update (fun row => decide (row.kind = kind)) (NotebookServiceRecord.setRuntime runtime)
    (NotebookServiceRecord.setRuntime_kind runtime)

end GoblinKing
