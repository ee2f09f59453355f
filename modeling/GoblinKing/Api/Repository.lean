import GoblinKing.Repository.Calls

/-!
# The repository endpoints

Submitting, reviewing, publishing, retiring and deleting repository entries, and building
notebook functions and services, as requests that run at the same time. A request is a
sequence of transactions; between two of them it keeps what it has read. A request that
raises ends, and what it has written before stays.
-/

namespace GoblinKing

/-- The role of a caller. -/
inductive PrincipalRole where
  | admin
  | member
  | viewer
  deriving DecidableEq, Repr

/-- An authenticated caller. -/
structure Principal where
  userId : Id
  role : PrincipalRole
  projectId : Option Id := none
  deriving DecidableEq, Repr

/-- The settings of the API and the registered kinds, with the functions of the standard
library that act on whole strings. -/
structure ApiSettings where
  repositoryEnabled : Bool
  defaultProjectId : Option Id
  notebookFunctionImage : String
  notebookServiceImage : String
  /-- whether a kind is in the registry -/
  registered : String → Bool
  /-- `str.lower` -/
  lower : String → String
  /-- `str.isalnum` of a string of one character -/
  isalnum : Char → Bool
  /-- the hexadecimal SHA-256 digest of the UTF-8 encoding -/
  sha256 : String → String
  /-- the JSON text of an object with sorted keys, of the name, the requirements and the
  source of a service -/
  dumpsService : (appName : String) → (requirements : List String) → (source : String) → String

/-- `notebook_source_hash` -/
def notebookSourceHash (settings : ApiSettings) (source functionName : String) : String :=
  settings.sha256 (functionName ++ "\x00" ++ source)

/-- `notebook_service_source_hash` -/
def notebookServiceSourceHash (settings : ApiSettings) (source appName : String)
    (requirements : List String) : String :=
  settings.sha256 (settings.dumpsService appName requirements source)

/-! ### Kinds -/

/-- A lower case letter or a digit. -/
def isKindChar (c : Char) : Bool :=
  c.isLower || c.isDigit

/-- `GOBLIN_KIND_PATTERN`: segments of lower case letters and digits, with a dot or a dash
between two of them. A dollar sign matches before a final newline as well. -/
def matchesKindPattern (value : String) : Bool :=
  let chars := value.toList
  let body := if chars.getLast? = some '\n' then chars.dropLast else chars
  (body.splitOnP (fun c => c = '.' || c = '-')).all
    (fun segment => !segment.isEmpty && segment.all isKindChar)

/-- Remove the dashes at both ends, and all but one of neighbouring dashes. -/
def collapseDashes (chars : List Char) : List Char :=
  ['-'].intercalate ((chars.splitOnP (fun c => c = '-')).filter (fun part => !part.isEmpty))

/-- `_repository_kind_part` -/
def repositoryKindPart (settings : ApiSettings) (value : Option String) : String :=
  let cleaned := (settings.lower ((truthy value).getD "global")).toList.map
    (fun c => if settings.isalnum c then c else '-')
  let part := collapseDashes cleaned
  if part.isEmpty then "global" else String.ofList part

/-- `_repository_entry_kind` -/
def repositoryEntryKind (settings : ApiSettings) (projectId : Option Id) (name : String) : String :=
  "repository." ++ repositoryKindPart settings projectId ++ "." ++ name

/-- `_repository_version_kind` -/
def repositoryVersionKind (settings : ApiSettings) (projectId : Option Id) (name : String)
    (version : ℕ) : String :=
  repositoryEntryKind settings projectId name ++ ".v" ++ toString version

/-- The check of the kind of a record. -/
def validateKind (value : String) : Except String Unit :=
  raiseIf (!matchesKindPattern value) "kind must use lowercase letters, digits, dots, or dashes"

/-! ### Authorization -/

/-- `require_project_access` -/
def requireProjectAccess (principal : Principal) (projectId : Option Id) : Except String Unit :=
  raiseIf (decide (principal.role ≠ .admin)
      && (principal.projectId.isNone || decide (projectId ≠ principal.projectId)))
    "project access denied"

/-- Resolve and authorize the project of a request. -/
def projectForRequest (settings : ApiSettings) (principal : Principal)
    (requestedProjectId : Option Id) : Except String (Option Id) := do
  let projectId :=
    ((truthy requestedProjectId).or (truthy principal.projectId)).or settings.defaultProjectId
  requireProjectAccess principal projectId
  .ok projectId

/-- `_forbid_viewer_write` -/
def forbidViewerWrite (principal : Principal) : Except String Unit :=
  raiseIf (decide (principal.role = .viewer)) "viewer role cannot create notebook goblins"

/-- `_require_repository_owner_or_admin` -/
def requireRepositoryOwnerOrAdmin (principal : Principal) (entry : RepositoryEntryRecord) :
    Except String Unit :=
  raiseIf (decide (principal.role ≠ .admin) && decide (entry.owner ≠ principal.userId))
    "repository entry owner or admin required"

/-- `require_admin` -/
def requireAdmin (principal : Principal) : Except String Unit :=
  raiseIf (decide (principal.role ≠ .admin)) "admin role required"

/-- `_require_repository_enabled` -/
def requireRepositoryEnabled (settings : ApiSettings) : Except String Unit :=
  raiseIf (!settings.repositoryEnabled) "repository service is not enabled"

/-! ### Requests -/

/-- Request body for submitting notebook-authored source to the repository. -/
structure RepositorySubmitRequest where
  name : String
  type : RepositoryGoblinType := .notebookFunction
  source : String
  projectId : Option Id := none
  image : Option String := none
  functionName : String := "run"
  timeoutSeconds : Option ℕ+ := none
  maxRetries : ℕ := 0
  appName : String := "app"
  requirements : List String := []
  deriving DecidableEq

/-- Request body for building a notebook-defined function. -/
structure NotebookGoblinCreateRequest where
  kind : String
  source : String
  functionName : String := "run"
  image : Option String := none
  projectId : Option Id := none
  timeoutSeconds : Option ℕ+ := none
  maxRetries : ℕ := 0
  deriving DecidableEq

/-- Request body for declaring a notebook-defined service. -/
structure NotebookServiceCreateRequest where
  kind : String
  source : String
  appName : String := "app"
  requirements : List String := []
  projectId : Option Id := none
  deriving DecidableEq

/-- A step of the review of a version. -/
inductive ReviewAction where
  | validate
  | requestReview
  | approve
  | reject
  | publish
  deriving DecidableEq, Repr

/-- The check of the role of the caller of a step of a review. -/
def ReviewAction.authorize (principal : Principal) : ReviewAction → Except String Unit
  | .validate => forbidViewerWrite principal
  | .requestReview => .ok ()
  | .approve | .reject | .publish => requireAdmin principal

/-- The check of the caller of a step of a review against the entry. -/
def ReviewAction.authorizeEntry (principal : Principal) (entry : RepositoryEntryRecord) :
    ReviewAction → Except String Unit
  | .validate | .requestReview => requireRepositoryOwnerOrAdmin principal entry
  | .approve | .reject | .publish => .ok ()

/-- A request of a caller. -/
inductive ApiRequest where
  | submit (principal : Principal) (request : RepositorySubmitRequest)
  | createNotebookGoblin (principal : Principal) (request : NotebookGoblinCreateRequest)
  | createNotebookService (principal : Principal) (request : NotebookServiceCreateRequest)
  | review (principal : Principal) (action : ReviewAction) (entryId : Id) (version : Option ℕ)
  | retire (principal : Principal) (entryId : Id)
  | delete (principal : Principal) (entryId : Id)
  deriving DecidableEq

/-- An authorized submission. -/
structure Submission where
  principal : Principal
  projectId : Option Id
  request : RepositorySubmitRequest
  now : Instant
  deriving DecidableEq

/-- An authorized step of a review. -/
structure Review where
  principal : Principal
  action : ReviewAction
  entryId : Id
  version : Option ℕ
  deriving DecidableEq

/-- The transaction that comes next in a request, with what was read before it. -/
inductive RequestPhase where
  | submitFind (submission : Submission)
  | submitUpdate (submission : Submission) (existing : RepositoryEntryRecord)
  | submitWriteUpdate (submission : Submission) (existing values : RepositoryEntryRecord)
  | submitReload (submission : Submission) (entryId : Id)
  | submitVersions (submission : Submission) (entry : RepositoryEntryRecord)
  | submitCreate (submission : Submission)
  | submitCreated (submission : Submission) (entryId : Id)
  | submitSave (submission : Submission) (entry : RepositoryEntryRecord) (version : ℕ)
  | submitVersion (version : RepositoryVersionRecord)
  | goblinFind (principal : Principal) (projectId : Option Id)
      (request : NotebookGoblinCreateRequest)
  | goblinSave (record : NotebookGoblinRecord)
  | serviceFindGoblin (principal : Principal) (request : NotebookServiceCreateRequest)
  | serviceFind (principal : Principal) (projectId : Option Id)
      (request : NotebookServiceCreateRequest)
  | serviceSave (record : NotebookServiceRecord)
  | reviewEntry (review : Review)
  | reviewVersion (review : Review) (entry : RepositoryEntryRecord)
  | validateNotebook (entry : RepositoryEntryRecord) (version : RepositoryVersionRecord)
  | validateRuntime (version : RepositoryVersionRecord) (proof : JsonObject)
  | retireEntry (principal : Principal) (entryId : Id)
  | deleteEntry (principal : Principal) (entryId : Id)
  | deleteVersions (entry : RepositoryEntryRecord)
  | deleteServices (entryId : Id) (kinds : List String)
  | storeRead (call : StoreCall)
  | storeWrite (write : StoreWrite)
  deriving DecidableEq

/-- The checks of a request before its first transaction. -/
def openRequest (settings : ApiSettings) (now : Instant) : ApiRequest → Except String RequestPhase
  | .submit principal request => do
      requireRepositoryEnabled settings
      forbidViewerWrite principal
      raiseIf (!matchesKindPattern request.name)
        "name must use lowercase letters, digits, dots, or dashes"
      let projectId ← projectForRequest settings principal request.projectId
      .ok (.submitFind ⟨principal, projectId, request, now⟩)
  | .createNotebookGoblin principal request => do
      forbidViewerWrite principal
      raiseIf (settings.registered request.kind)
        ("goblin kind already exists in registry: " ++ request.kind)
      let projectId ← projectForRequest settings principal request.projectId
      .ok (.goblinFind principal projectId request)
  | .createNotebookService principal request => do
      forbidViewerWrite principal
      raiseIf (settings.registered request.kind)
        ("goblin kind already exists in registry: " ++ request.kind)
      .ok (.serviceFindGoblin principal request)
  | .review principal action entryId version => do
      requireRepositoryEnabled settings
      action.authorize principal
      .ok (.reviewEntry ⟨principal, action, entryId, version⟩)
  | .retire principal entryId => do
      requireAdmin principal
      requireRepositoryEnabled settings
      .ok (.retireEntry principal entryId)
  | .delete principal entryId => do
      requireAdmin principal
      requireRepositoryEnabled settings
      .ok (.deleteEntry principal entryId)

/-! ### Transactions -/

/-- What a transaction is given from outside: the clock, a fresh identifier, and the outcome
of a validation. -/
structure StepInput where
  now : Instant
  freshId : Id
  validation : Except String JsonObject := .error "not validated"

/-- A write of a request. -/
inductive ApiWrite where
  | store (write : StoreWrite)
  | goblin (record : NotebookGoblinRecord)
  | service (record : NotebookServiceRecord)
  | serviceRuntime (kind : String) (runtime : ServiceRuntime)
  deriving DecidableEq

/-- The tables after a write of a request. -/
def ApiWrite.commit (db : RepositoryDb) : ApiWrite → Except String RepositoryDb
  | .store write => write.commit db
  | .goblin record => .ok (saveNotebookGoblin db record)
  | .service record => .ok (saveNotebookService db record)
  | .serviceRuntime kind runtime =>
      .ok { db with services := updateNotebookServiceRuntime db.services kind runtime }

/-- `get_repository_entry_by_project_name`, which leaves retired entries out. The index on
active names leaves at most one entry to choose. -/
def getRepositoryEntryByProjectName (db : RepositoryDb) (projectId : Option Id) (name : String) :
    Option RepositoryEntryRecord :=
  db.entries.table.rows.find? (fun entry => decide (entry.name = name)
    && decide (entry.projectId = projectId) && decide (entry.status ≠ .retired))

/-- The entry that a submission creates. -/
def Submission.entry (submission : Submission) (entryId : Id) : RepositoryEntryRecord where
  id := entryId
  name := submission.request.name
  type := submission.request.type
  projectId := submission.projectId
  owner := submission.principal.userId
  updatedAt := submission.now

/-- The source hash of what is submitted. -/
def Submission.sourceHash (settings : ApiSettings) (submission : Submission) : String :=
  match submission.request.type with
  | .notebookFunction =>
      notebookSourceHash settings submission.request.source submission.request.functionName
  | .notebookService =>
      notebookServiceSourceHash settings submission.request.source submission.request.appName
        submission.request.requirements

/-- The image that runs the source of a submission. -/
def Submission.runnerImage (settings : ApiSettings) (submission : Submission) : String :=
  (truthy submission.request.image).getD
    (match submission.request.type with
    | .notebookFunction => settings.notebookFunctionImage
    | .notebookService => settings.notebookServiceImage)

/-- The notebook record that a submission saves. -/
def Submission.notebook (settings : ApiSettings) (submission : Submission) (kind : String) :
    ApiWrite :=
  match submission.request.type with
  | .notebookFunction =>
      .goblin {
        kind := kind
        projectId := submission.projectId
        image := submission.runnerImage settings
        source := submission.request.source
        sourceHash := submission.sourceHash settings
        functionName := submission.request.functionName
        timeoutSeconds := submission.request.timeoutSeconds
        maxRetries := submission.request.maxRetries }
  | .notebookService =>
      .service {
        kind := kind
        projectId := submission.projectId
        source := submission.request.source
        sourceHash := submission.sourceHash settings
        appName := submission.request.appName
        requirements := submission.request.requirements }

/-- The version that a submission creates. -/
def Submission.version (settings : ApiSettings) (submission : Submission) (entryId : Id)
    (version : ℕ) (kind : String) (versionId : Id) : RepositoryVersionRecord where
  id := versionId
  entryId := entryId
  version := version
  kind := kind
  sourceHash := submission.sourceHash settings
  runnerImage := submission.runnerImage settings
  createdAt := submission.now
  updatedAt := submission.now

/-- The check of a step of a review on the status of the version. -/
def ReviewAction.ensure (status : RepositoryStatus) : ReviewAction → Except String Unit
  | .validate | .reject => .ok ()
  | .requestReview =>
      raiseIf (decide (status ≠ .validated)) "repository version must be validated"
  | .approve =>
      raiseIf (decide (status ≠ .pendingReview)) "repository version must be pending review"
  | .publish => raiseIf (decide (status ≠ .approved)) "repository version must be approved"

/-- The transition of a step of a review; a validation has its own. -/
def Review.transition (review : Review) (version : RepositoryVersionRecord) (now : Instant) :
    VersionTransition :=
  match review.action with
  | .validate => { status := .validated, updatedAt := now }
  | .requestReview => { status := .pendingReview, updatedAt := now }
  | .approve =>
      { status := .approved, updatedAt := now, approvedBy := some review.principal.userId }
  | .reject => { status := .rejected, updatedAt := now }
  | .publish =>
      { status := .published
        updatedAt := now
        approvedBy := version.approvedBy
        approvedAt := version.approvedAt }

/-- `_repository_requested_version` -/
def repositoryRequestedVersion (db : RepositoryDb) (entryId : Id) (version : Option ℕ) :
    Except String RepositoryVersionRecord :=
  match version with
  | some version =>
      match db.versions.findIndex? (entryId, version) with
      | none =>
          .error ("repository version not found: " ++ entryId ++ ":" ++ toString version)
      | some row => .ok row
  | none =>
      match latestVersion db entryId with
      | none => .error ("repository entry has no versions: " ++ entryId)
      | some row => .ok row

/-- The entry under an identifier. -/
def requireEntry (db : RepositoryDb) (entryId : Id) : Except String RepositoryEntryRecord :=
  match db.entries.find? entryId with
  | none => .error ("repository entry not found: " ++ entryId)
  | some entry => .ok entry

/-- The assertion that an entry that was just written is there. -/
def assertEntry (db : RepositoryDb) (entryId : Id) : Except String RepositoryEntryRecord :=
  match db.entries.find? entryId with
  | none => .error "assert loaded is not None"
  | some entry => .ok entry

/-- The checks of `create_notebook_goblin` on the function that has the kind already. -/
def ensureGoblinProject (settings : ApiSettings) (principal : Principal) (projectId : Option Id)
    (existing : Option NotebookGoblinRecord) : Except String Unit :=
  match existing with
  | none => .ok ()
  | some existing => do
      let _ ← projectForRequest settings principal existing.projectId
      raiseIf (decide (existing.projectId ≠ projectId))
        "notebook goblin kind already belongs to another project"

/-- The checks of `create_notebook_service` on the service that has the kind already. -/
def ensureServiceDeclarable (settings : ApiSettings) (principal : Principal)
    (projectId : Option Id) (existing : Option NotebookServiceRecord) : Except String Unit :=
  match existing with
  | none => .ok ()
  | some existing => do
      let _ ← projectForRequest settings principal existing.projectId
      raiseIf (decide (existing.projectId ≠ projectId))
        "notebook service kind already belongs to another project"
      raiseIf ((truthy existing.activeServiceId).isSome
          && decide (existing.runtimeStatus = "running"))
        "stop the notebook service before declaring new source"

/-- The write that a phase makes, if it makes one. -/
def RequestPhase.write (settings : ApiSettings) (input : StepInput) :
    RequestPhase → Option ApiWrite
  | .submitWriteUpdate _ existing values => some (.store (.updateEntry existing values))
  | .submitCreate submission => some (.store (.createEntry (submission.entry input.freshId)))
  | .submitSave submission entry version =>
      some (submission.notebook settings
        (repositoryVersionKind settings submission.projectId entry.name version))
  | .submitVersion version => some (.store (.createVersion version))
  | .goblinSave record => some (.goblin record)
  | .serviceSave record => some (.service record)
  | .validateRuntime version _ => some (.serviceRuntime version.kind { runtimeStatus := "validated" })
  | .storeWrite write => some (.store write)
  | _ => none

/-- The phase after a write. -/
def RequestPhase.afterWrite (settings : ApiSettings) (input : StepInput) :
    RequestPhase → Option RequestPhase
  | .submitWriteUpdate submission _ values => some (.submitReload submission values.id)
  | .submitCreate submission => some (.submitCreated submission input.freshId)
  | .submitSave submission entry version =>
      some (.submitVersion (submission.version settings entry.id version
        (repositoryVersionKind settings submission.projectId entry.name version) input.freshId))
  | .validateRuntime version proof =>
      some (.storeRead (.transitionVersion version.entryId version.version
        { status := .validated, updatedAt := input.now, validationProof := some proof }))
  | _ => none

/-- The checks of the records of a phase before its write. -/
def RequestPhase.validate (settings : ApiSettings) : RequestPhase → Except String Unit
  | .submitCreate submission => do
      validateKind submission.request.name
      validateKind (repositoryEntryKind settings submission.projectId submission.request.name)
  | .submitSave submission entry version =>
      validateKind (repositoryVersionKind settings submission.projectId entry.name version)
  | .goblinSave record => validateKind record.kind
  | .serviceSave record => validateKind record.kind
  | _ => .ok ()

/-- The phase after a transaction that only reads. -/
def readPhase (settings : ApiSettings) (db : RepositoryDb) (input : StepInput) :
    RequestPhase → Except String (Option RequestPhase)
  | .submitFind submission =>
      match getRepositoryEntryByProjectName db submission.projectId submission.request.name with
      | none => .ok (some (.submitCreate submission))
      | some existing => do
          let _ ← projectForRequest settings submission.principal existing.projectId
          requireRepositoryOwnerOrAdmin submission.principal existing
          raiseIf (decide (existing.type ≠ submission.request.type))
            "repository entry already exists with a different type"
          .ok (some (.submitUpdate submission existing))
  | .submitUpdate submission existing => do
      -- the copy keeps the status and the published version that were read
      let values := { existing with updatedAt := submission.now }
      let row ← readEntryUpdate db values
      .ok (some (.submitWriteUpdate submission row values))
  | .submitReload submission entryId => do
      let entry ← assertEntry db entryId
      .ok (some (.submitVersions submission entry))
  | .submitVersions submission entry => do
      let latest ← repositoryRequestedVersion db entry.id none
      .ok (some (.submitSave submission entry (latest.version + 1)))
  | .submitCreated submission entryId => do
      let entry ← assertEntry db entryId
      .ok (some (.submitSave submission entry 1))
  | .goblinFind principal projectId request => do
      ensureGoblinProject settings principal projectId (db.goblins.find? request.kind)
      .ok (some (.goblinSave {
        kind := request.kind
        projectId := projectId
        image := (truthy request.image).getD settings.notebookFunctionImage
        source := request.source
        sourceHash := notebookSourceHash settings request.source request.functionName
        functionName := request.functionName
        timeoutSeconds := request.timeoutSeconds
        maxRetries := request.maxRetries }))
  | .serviceFindGoblin principal request => do
      raiseIf (db.goblins.find? request.kind).isSome
        ("notebook function goblin already exists: " ++ request.kind)
      let projectId ← projectForRequest settings principal request.projectId
      .ok (some (.serviceFind principal projectId request))
  | .serviceFind principal projectId request => do
      ensureServiceDeclarable settings principal projectId (db.services.find? request.kind)
      .ok (some (.serviceSave {
        kind := request.kind
        projectId := projectId
        source := request.source
        sourceHash := notebookServiceSourceHash settings request.source request.appName
          request.requirements
        appName := request.appName
        requirements := request.requirements }))
  | .reviewEntry review => do
      let entry ← requireEntry db review.entryId
      let _ ← projectForRequest settings review.principal entry.projectId
      review.action.authorizeEntry review.principal entry
      .ok (some (.reviewVersion review entry))
  | .reviewVersion review entry => do
      let version ← repositoryRequestedVersion db entry.id review.version
      review.action.ensure version.status
      match review.action with
      | .validate => .ok (some (.validateNotebook entry version))
      | .requestReview | .approve | .reject | .publish =>
          .ok (some (.storeRead (.transitionVersion entry.id version.version
            (review.transition version input.now))))
  | .validateNotebook entry version =>
      match entry.type with
      | .notebookFunction => do
          raiseIf (db.goblins.find? version.kind).isNone
            ("repository notebook goblin missing: " ++ version.kind)
          let proof ← input.validation
          .ok (some (.storeRead (.transitionVersion entry.id version.version
            { status := .validated, updatedAt := input.now, validationProof := some proof })))
      | .notebookService => do
          raiseIf (db.services.find? version.kind).isNone
            ("repository notebook service missing: " ++ version.kind)
          let proof ← input.validation
          .ok (some (.validateRuntime version proof))
  | .retireEntry principal entryId => do
      let entry ← requireEntry db entryId
      let _ ← projectForRequest settings principal entry.projectId
      .ok (some (.storeRead (.transitionEntry entry.id
        { status := .retired, updatedAt := input.now })))
  | .deleteEntry principal entryId => do
      let entry ← requireEntry db entryId
      let _ ← projectForRequest settings principal entry.projectId
      raiseIf (!([RepositoryStatus.draft, .rejected, .retired].contains entry.status))
        "repository entry must be draft, rejected, or retired before permanent deletion; retire published entries first"
      .ok (some (.deleteVersions entry))
  | .deleteVersions entry =>
      match entry.type with
      | .notebookFunction => .ok (some (.storeWrite (.deleteEntry entry.id)))
      | .notebookService =>
          .ok (some (.deleteServices entry.id
            ((db.versions.table.select (fun version => decide (version.entryId = entry.id))).map
              RepositoryVersionRecord.kind)))
  | .deleteServices entryId kinds =>
      match kinds with
      | [] => .ok (some (.storeWrite (.deleteEntry entryId)))
      | kind :: kinds => do
          raiseIf ((db.services.find? kind).any
              (fun service => (truthy service.activeServiceId).isSome))
            "repository service is still running; stop it before deleting"
          .ok (some (.deleteServices entryId kinds))
  | .storeRead call => do
      let write ← call.read db
      .ok (write.map RequestPhase.storeWrite)
  | _ => .ok none

/-- A transaction of a request: the tables after it, and the phase of the request. -/
def requestStep (settings : ApiSettings) (db : RepositoryDb) (input : StepInput)
    (phase : RequestPhase) : Except String (RepositoryDb × Option RequestPhase) :=
  match phase.write settings input with
  | some write => do
      phase.validate settings
      let db ← write.commit db
      .ok (db, phase.afterWrite settings input)
  | none => do
      let next ← readPhase settings db input phase
      .ok (db, next)

/-- The repository with the requests that are under way, and the identifiers drawn so far. -/
structure RepositoryApi where
  db : RepositoryDb
  requests : Id → Option RequestPhase
  drawn : List Id

/-- An empty repository without requests. -/
def RepositoryApi.init : RepositoryApi where
  db := .empty
  requests := fun _ => none
  drawn := []

/-- A step of the API: a request comes in, or one of those under way goes on. -/
inductive ApiAction where
  | receive (requestId : Id) (now : Instant) (request : ApiRequest)
  | advance (requestId : Id) (input : StepInput)

/-- One step of the API; `none` when the action is not possible. An identifier is drawn
only once. -/
def apiStep (settings : ApiSettings) (σ : RepositoryApi) : ApiAction → Option RepositoryApi
  | .receive requestId now request =>
      if (σ.requests requestId).isSome then
        none
      else
        match openRequest settings now request with
        | .error _ => some σ
        | .ok phase =>
            some { σ with requests := Function.update σ.requests requestId (some phase) }
  | .advance requestId input =>
      match σ.requests requestId with
      | none => none
      | some phase =>
          if input.freshId ∈ σ.drawn then
            none
          else
            match requestStep settings σ.db input phase with
            | .error _ => some { σ with requests := Function.update σ.requests requestId none }
            | .ok (db, next) =>
                some {
                  db := db
                  requests := Function.update σ.requests requestId next
                  drawn := input.freshId :: σ.drawn }

end GoblinKing
