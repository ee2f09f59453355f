import GoblinKing.Api.Repository
import GoblinKing.Scheduler.Pass

/-!
# Queueing jobs

The five ways in which a job gets into the queue: a request for a job, for a published
repository function, for a batch of jobs, or for the retry of a job, and a schedule that is
due. Each resolves the effective policy of the job, and is rejected when it exceeds a ceiling;
except a job for a notebook kind, which has no policy and is not checked.
-/

namespace GoblinKing

/-! ### Requests -/

/-- Request body for queueing one job. -/
structure JobCreateRequest where
  kind : String
  priority : ℤ := 100
  projectId : Option Id := none
  maxRetries : ℕ := 0
  timeoutSeconds : Option ℕ+ := none
  deriving DecidableEq

/-- Request body for running a published repository function by name. -/
structure RepositoryFunctionRunRequest where
  projectId : Option Id := none
  version : Option ℕ+ := none
  priority : ℤ := 100
  maxRetries : ℕ := 0
  timeoutSeconds : Option ℕ+ := none
  deriving DecidableEq

/-- One queued job request inside a fanout batch. -/
structure FanoutItem where
  kind : String
  priority : ℤ := 100
  maxRetries : ℕ := 0
  timeoutSeconds : Option ℕ+ := none
  deriving DecidableEq

/-- Create request for a mixed-kind fanout batch. -/
structure FanoutCreateRequest where
  items : List FanoutItem
  nonempty : items ≠ []
  deriving DecidableEq

/-- Create request for a fresh retry job copied from a terminal source job. -/
structure RetryCreateRequest where
  priority : Option ℤ := none
  maxRetries : Option ℕ := none
  timeoutSeconds : Option ℕ+ := none
  deriving DecidableEq

/-- A timeout of a request as the timeout of a job. -/
def seconds? (timeoutSeconds : Option ℕ+) : Option ℕ :=
  timeoutSeconds.map PNat.val

/-! ### State -/

/-- The settings of the API, the registry and the resource policies. -/
structure QueueConfig where
  api : ApiSettings
  kinds : List String
  policies : Option ResourcePolicySet
  floats : Floats
  /-- the JSON text of `ResourcePolicy.compact` -/
  compact : ResourcePolicy → String

/-- The tables that queueing reads or writes. -/
structure QueueDb where
  scheduler : Db
  fanouts : Table FanoutRecord.id
  repository : RepositoryDb

/-- `effective_policy`, or `None` when there are no policies. -/
def effectivePolicy (config : QueueConfig) (kind : String) (timeoutSeconds : Option ℕ)
    (maxRetries : ℕ) : Except String (Option ResourcePolicy) :=
  match config.policies with
  | none => .ok none
  | some policies => do
      let policy ← policies.effectiveFor config.floats kind timeoutSeconds (some maxRetries)
      .ok (some policy)

/-- The values of a job under its effective policy, or the requested ones when there is
none. -/
def JobRecord.underPolicy (config : QueueConfig) (policy : Option ResourcePolicy)
    (job : JobRecord) : JobRecord :=
  match policy with
  | none => job
  | some policy => job.withPolicy ⟨policy, config.compact policy⟩

/-! ### One job -/

/-- The project of a job that is requested; that of the notebook when the request names
none. -/
def jobProject (config : QueueConfig) (request : JobCreateRequest) (principal : Principal)
    (notebookProjectId : Option Id) : Except String (Option Id) :=
  projectForRequest config.api principal ((truthy request.projectId).or notebookProjectId)

/-- `_queue_job` for a kind of the registry, up to `save_job`. -/
def registryJob (config : QueueConfig) (request : JobCreateRequest) (principal : Principal)
    (jobId : Id) (createdAt : Instant) : Except String JobRecord := do
  let projectId ← jobProject config request principal none
  let policy ← effectivePolicy config request.kind (seconds? request.timeoutSeconds)
    request.maxRetries
  let job : JobRecord :=
    { id := jobId
      kind := request.kind
      createdAt := createdAt
      projectId := projectId
      priority := request.priority
      dueAt := some createdAt
      maxRetries := request.maxRetries
      timeoutSeconds := seconds? request.timeoutSeconds }
  .ok (job.underPolicy config policy)

/-- `request.max_retries or notebook_record.max_retries` -/
def notebookRetries (request : JobCreateRequest) (notebook : NotebookGoblinRecord) : ℕ :=
  if request.maxRetries = 0 then notebook.maxRetries else request.maxRetries

/-- `request.timeout_seconds or notebook_record.timeout_seconds` -/
def notebookTimeout (request : JobCreateRequest) (notebook : NotebookGoblinRecord) : Option ℕ :=
  seconds? (request.timeoutSeconds.or notebook.timeoutSeconds)

/-- `_queue_job` for a notebook kind, up to `save_job`. No policy is resolved. -/
def notebookJob (config : QueueConfig) (notebook : NotebookGoblinRecord)
    (request : JobCreateRequest) (principal : Principal) (jobId : Id) (createdAt : Instant) :
    Except String JobRecord := do
  let projectId ← jobProject config request principal notebook.projectId
  raiseIf (request.projectId.isSome && decide (request.projectId ≠ notebook.projectId))
    "notebook goblin cannot be submitted outside its project"
  .ok
    { id := jobId
      kind := notebook.kind
      createdAt := createdAt
      projectId := projectId
      priority := request.priority
      dueAt := some createdAt
      maxRetries := notebookRetries request notebook
      timeoutSeconds := notebookTimeout request notebook }

/-- `_queue_job` up to `save_job`. -/
def queuedJob (config : QueueConfig) (db : QueueDb) (request : JobCreateRequest)
    (principal : Principal) (jobId : Id) (createdAt : Instant) : Except String JobRecord :=
  match registryGet config.kinds request.kind with
  | .ok _ => registryJob config request principal jobId createdAt
  | .error error =>
      match db.repository.goblins.find? request.kind with
      | none => .error error
      | some notebook => notebookJob config notebook request principal jobId createdAt

/-! ### Published functions -/

/-- The name of a type in messages. -/
def RepositoryGoblinType.text : RepositoryGoblinType → String
  | .notebookFunction => "notebook_function"
  | .notebookService => "notebook_service"

/-- The published version of an entry with the highest number. -/
def newestPublished (db : RepositoryDb) (entryId : Id) : Option RepositoryVersionRecord :=
  ((db.versions.table.rows.filter (fun row => decide (row.entryId = entryId))).insertionSort
    (fun a b => a.version ≤ b.version)).filter (fun row => decide (row.status = .published))
      |>.getLast?

/-- Resolve one published repository entry and version visible to a caller. -/
def resolvePublishedRepositoryVersion (settings : ApiSettings) (db : RepositoryDb) (name : String)
    (expectedType : RepositoryGoblinType) (principal : Principal) (projectId : Option Id)
    (version : Option ℕ+) : Except String (RepositoryEntryRecord × RepositoryVersionRecord) := do
  requireRepositoryEnabled settings
  let scopedProject ← projectForRequest settings principal projectId
  match getRepositoryEntryByProjectName db scopedProject name with
  | none => .error ("published repository entry not found: " ++ name)
  | some entry => do
      raiseIf (decide (entry.type ≠ expectedType))
        ("repository entry is " ++ entry.type.text ++ ", not " ++ expectedType.text)
      match (version.map PNat.val).or entry.publishedVersion with
      | none =>
          match newestPublished db entry.id with
          | none => .error ("repository entry has no published version: " ++ name)
          | some row => .ok (entry, row)
      | some requested =>
          match db.versions.findIndex? (entry.id, requested) with
          | none =>
              .error ("repository version not found: " ++ name ++ ":" ++ toString requested)
          | some row => do
              raiseIf (decide (row.status ≠ .published))
                ("repository version is not published: " ++ name ++ ":" ++ toString requested)
              .ok (entry, row)

/-- `run_repository_function` up to `_queue_job`: the request for its job. -/
def repositoryFunctionRequest (config : QueueConfig) (db : QueueDb) (name : String)
    (request : RepositoryFunctionRunRequest) (principal : Principal) :
    Except String JobCreateRequest := do
  let (entry, version) ← resolvePublishedRepositoryVersion config.api db.repository name
    .notebookFunction principal request.projectId request.version
  raiseIf (db.repository.goblins.find? version.kind).isNone
    ("repository notebook goblin missing: " ++ version.kind)
  .ok
    { kind := version.kind
      projectId := entry.projectId
      priority := request.priority
      maxRetries := request.maxRetries
      timeoutSeconds := request.timeoutSeconds }

/-! ### Batches -/

/-- The job of an item of a batch, under its effective policy. -/
def fanoutJob (config : QueueConfig) (projectId : Option Id) (fanoutId : Id) (now : Instant)
    (jobId : Id) (item : FanoutItem) (policy : Option ResourcePolicy) : JobRecord :=
  let job : JobRecord :=
    { id := jobId
      kind := item.kind
      createdAt := now
      projectId := projectId
      fanoutId := some fanoutId
      priority := item.priority
      dueAt := some now
      maxRetries := item.maxRetries
      timeoutSeconds := seconds? item.timeoutSeconds }
  job.underPolicy config policy

/-- `create_fanout` up to `save_fanout`: all items are validated before any job is saved. -/
def fanoutPolicies (config : QueueConfig) (items : List FanoutItem) :
    Except String (List (Option ResourcePolicy)) := do
  let _ ← items.mapM (fun item => registryGet config.kinds item.kind)
  items.mapM (fun item =>
    effectivePolicy config item.kind (seconds? item.timeoutSeconds) item.maxRetries)

/-- The jobs of a batch. -/
def fanoutJobs (config : QueueConfig) (projectId : Option Id) (fanoutId : Id) (now : Instant)
    (items : List (FanoutItem × Id)) (policies : List (Option ResourcePolicy)) : List JobRecord :=
  List.zipWith (fun item policy => fanoutJob config projectId fanoutId now item.2 item.1 policy)
    items policies

/-! ### Retries -/

/-- The source job of a retry. -/
def retrySource (db : QueueDb) (jobId : Id) : Except String JobRecord :=
  match db.scheduler.jobs.find? jobId with
  | none => .error ("job not found: " ++ jobId)
  | some source => do
      raiseIf (!source.status.isTerminal) ("job is not terminal: " ++ source.status.text)
      .ok source

/-- `retry_job` up to `save_job`. -/
def retriedJob (config : QueueConfig) (db : QueueDb) (sourceId : Id) (request : RetryCreateRequest)
    (jobId : Id) (createdAt : Instant) : Except String JobRecord := do
  let source ← retrySource db sourceId
  let timeoutSeconds := (seconds? request.timeoutSeconds).or source.timeoutSeconds
  let maxRetries := request.maxRetries.getD source.maxRetries
  let policy ← effectivePolicy config source.kind timeoutSeconds maxRetries
  let retry : JobRecord :=
    { id := jobId
      kind := source.kind
      createdAt := createdAt
      projectId := source.projectId
      fanoutId := source.fanoutId
      resourcePolicy := source.resourcePolicy
      priority := request.priority.getD source.priority
      dueAt := some createdAt
      maxRetries := maxRetries
      timeoutSeconds := timeoutSeconds }
  .ok (retry.underPolicy config policy)

/-! ### The queue -/

/-- The configuration of the scheduler under the resource policies. -/
def QueueConfig.scheduler (config : QueueConfig) : SchedulerConfig where
  kinds := config.kinds
  effectiveFor := config.policies.map (fun policies kind timeoutSeconds maxRetries => do
    let policy ← policies.effectiveFor config.floats kind timeoutSeconds (some maxRetries)
    .ok ⟨policy, config.compact policy⟩)

/-- What queues a job, with the identifiers it draws and the time of the clock. -/
inductive QueueAction where
  /-- `create_job` -/
  | createJob (request : JobCreateRequest) (principal : Principal) (jobId : Id)
      (createdAt : Instant)
  /-- `run_repository_function` -/
  | runRepositoryFunction (name : String) (request : RepositoryFunctionRunRequest)
      (principal : Principal) (jobId : Id) (createdAt : Instant)
  /-- `create_fanout`; the items with the identifiers of their jobs -/
  | createFanout (request : FanoutCreateRequest) (projectId : Option Id) (fanoutId : Id)
      (jobIds : List Id) (now : Instant)
  /-- `retry_job` -/
  | retryJob (sourceId : Id) (request : RetryCreateRequest) (jobId : Id) (createdAt : Instant)
  /-- the loop body of `materialize_due_schedules` up to `save_job` -/
  | materialize (w : WorkerId) (schedule : ScheduleRecord) (jobId : Id) (now : Instant)

/-- Save a job; `none` when its identifier is taken. -/
def QueueDb.save (db : QueueDb) (job : JobRecord) : Option QueueDb :=
  (saveJob db.scheduler.jobs job).map (fun jobs =>
    { db with scheduler := { db.scheduler with jobs := jobs } })

/-- Save a list of jobs, one by one. -/
def QueueDb.saveAll (db : QueueDb) : List JobRecord → Option QueueDb
  | [] => some db
  | job :: jobs => (db.save job).bind (fun db => db.saveAll jobs)

/-- Save what was queued, if it was. -/
def QueueDb.saveOr (db : QueueDb) (job : Except String JobRecord) : Option QueueDb :=
  match job with
  | .error _ => some db
  | .ok job => db.save job

/-- Queue by one request or schedule; nothing is saved when it raises. -/
def queueStep (config : QueueConfig) (db : QueueDb) : QueueAction → Option QueueDb
  | .createJob request principal jobId createdAt =>
      db.saveOr (queuedJob config db request principal jobId createdAt)
  | .runRepositoryFunction name request principal jobId createdAt =>
      db.saveOr (do
        let jobRequest ← repositoryFunctionRequest config db name request principal
        queuedJob config db jobRequest principal jobId createdAt)
  | .createFanout request projectId fanoutId jobIds now =>
      match fanoutPolicies config request.items with
      | .error _ => some db
      | .ok policies => do
          let fanouts ← db.fanouts.insert?
            { id := fanoutId, createdAt := now, projectId := projectId }
          if jobIds.length = request.items.length then
            QueueDb.saveAll { db with fanouts := fanouts }
              (fanoutJobs config projectId fanoutId now (request.items.zip jobIds) policies)
          else
            none
  | .retryJob sourceId request jobId createdAt =>
      db.saveOr (retriedJob config db sourceId request jobId createdAt)
  | .materialize w schedule jobId now => do
      let (scheduler, _, _) ← materialize config.scheduler w db.scheduler now schedule [] jobId
      some { db with scheduler := scheduler }

end GoblinKing
