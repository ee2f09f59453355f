import GoblinKing.Api.Repository
import GoblinKing.Store.Listing

/-!
# The read endpoints

The endpoints that return stored rows to a caller. Some restrict a query to a project, some
filter what the store has returned, and some authorize the project of a single row, where a
row without a project counts as one of the caller's own project or of the default project.
-/

namespace GoblinKing

/-- The tables that the endpoints read. -/
structure ReadDb where
  jobs : Jobs
  runs : Runs
  artifacts : Table ArtifactRow.id
  fanouts : Table FanoutRecord.id
  schedules : Schedules
  events : IndexedTable EventRecord.id EventRecord.sequenceIndex
  longServices : Table LongServiceRecord.id
  goblins : Table NotebookGoblinRecord.kind

/-- How a request fails: with status 404, with status 403, with status 409, or with another
status or an exception that the endpoint does not handle. -/
inductive ReadError where
  | notFound (detail : String)
  | forbidden (detail : String)
  | conflict (detail : String)
  | internal (detail : String)
  deriving DecidableEq, Repr

/-- `PageMeta` and the items of a page. -/
structure ListResponse (α : Type) where
  items : List α
  limit : ℕ
  offset : ℕ
  count : ℕ
  deriving DecidableEq

/-- The response with the items of a page. -/
def PageQuery.respond {α : Type} (query : PageQuery) (items : List α) : ListResponse α where
  items := items
  limit := query.limit
  offset := query.offset
  count := items.length

/-- `project_for_request`, with the status of its error. -/
def authorize (settings : ApiSettings) (principal : Principal) (projectId : Option Id) :
    Except ReadError (Option Id) :=
  (projectForRequest settings principal projectId).mapError .forbidden

/-- A row that was looked up, and the message when there is none. -/
def foundOr {α : Type} (row : Option α) (detail : String) : Except ReadError α :=
  match row with
  | none => .error (.notFound detail)
  | some row => .ok row

/-! ### Jobs and runs -/

/-- `list_jobs` -/
def ReadDb.listJobs (db : ReadDb) (settings : ApiSettings) (principal : Principal)
    (query : PageQuery) (status : Option String) (projectId : Option Id) :
    Except ReadError (ListResponse JobRecord) := do
  let scopedProject ← authorize settings principal projectId
  .ok (query.respond (listJobsPage db.jobs scopedProject status query))

/-- `get_job` -/
def ReadDb.getJob (db : ReadDb) (settings : ApiSettings) (principal : Principal) (jobId : Id) :
    Except ReadError JobRecord := do
  let job ← foundOr (db.jobs.find? jobId) ("job not found: " ++ jobId)
  let _ ← authorize settings principal job.projectId
  .ok (rowToJob job)

/-- `list_runs` -/
def ReadDb.listRuns (db : ReadDb) (settings : ApiSettings) (principal : Principal)
    (query : PageQuery) (status kind : Option String) (projectId : Option Id) :
    Except ReadError (ListResponse RunRecord) := do
  let scopedProject ← authorize settings principal projectId
  .ok (query.respond (listRunsPage db.runs scopedProject status kind query))

/-- `project_id_for_run`: the project of the job of a run, or that of the run when its job is
gone. -/
def ReadDb.projectIdForRun (db : ReadDb) (run : RunRecord) : Option Id :=
  match db.jobs.find? run.jobId with
  | some job => job.projectId
  | none => run.projectId

/-- `run_for_principal` -/
def ReadDb.runForPrincipal (db : ReadDb) (settings : ApiSettings) (principal : Principal)
    (runId : Id) : Except ReadError RunRecord := do
  let run ← foundOr (db.runs.find? runId) ("run not found: " ++ runId)
  let _ ← authorize settings principal (db.projectIdForRun run)
  .ok run

/-- An artifact of a run with its download link. -/
structure ArtifactLink where
  artifact : ArtifactRecord
  downloadUrl : String
  deriving DecidableEq

/-- `list_run_artifacts` -/
def ReadDb.listRunArtifacts (db : ReadDb) (settings : ApiSettings) (principal : Principal)
    (runId : Id) : Except ReadError (List ArtifactLink) := do
  let _ ← db.runForPrincipal settings principal runId
  .ok ((GoblinKing.listRunArtifacts db.artifacts runId).map (fun artifact =>
    ⟨artifact, "/runs/" ++ runId ++ "/artifacts/" ++ artifact.name⟩))

/-! ### Fanouts -/

/-- `FanoutStatus` -/
inductive FanoutStatus where
  | queued
  | running
  | completed
  | failed
  | partly
  deriving DecidableEq, Repr

/-- Derive fanout status from child job statuses. -/
def deriveFanoutStatus (jobs : List JobRecord) : FanoutStatus :=
  let statuses := jobs.map JobRecord.status
  if statuses.isEmpty then
    .queued
  else if statuses.all (· = .completed) then
    .completed
  else if statuses.all JobStatus.isTerminal then
    if statuses.any (· = .completed) then .partly else .failed
  else if statuses.any (· = .completed)
      && statuses.any (fun status => status = .failed || status = .timedOut
        || status = .cancelled) then
    .partly
  else if statuses.any (fun status => status = .leased || status = .running
      || status = .retrying) then
    .running
  else
    .queued

/-- Count one more job with a status. -/
def countStatus : List (String × ℕ) → String → List (String × ℕ)
  | [], status => [(status, 1)]
  | (text, n) :: counts, status =>
      if text = status then (text, n + 1) :: counts else (text, n) :: countStatus counts status

/-- Count child jobs by status, and all of them. -/
def statusCounts (jobs : List JobRecord) : List (String × ℕ) :=
  (jobs.map (fun job => job.status.text)).foldl countStatus [] ++ [("total", jobs.length)]

/-- Read model for fanout metadata, derived status, child jobs, and runs. -/
structure FanoutDetail where
  fanout : FanoutRecord
  status : FanoutStatus
  counts : List (String × ℕ)
  jobs : List JobRecord
  runs : List RunRecord
  deriving DecidableEq

/-- The detail of a fanout that was loaded. -/
def ReadDb.detail (db : ReadDb) (fanout : FanoutRecord) : FanoutDetail :=
  let jobs := listFanoutJobs db.jobs fanout.id
  { fanout := fanout
    status := deriveFanoutStatus jobs
    counts := statusCounts jobs
    jobs := jobs
    runs := jobs.flatMap (fun job => listJobRuns db.runs job.id) }

/-- `fanout_detail` -/
def ReadDb.fanoutDetail (db : ReadDb) (fanoutId : Id) : Except ReadError FanoutDetail := do
  let fanout ← foundOr (db.fanouts.find? fanoutId) ("fanout not found: " ++ fanoutId)
  .ok (db.detail fanout)

/-- An admin without a project is shown everything. -/
def Principal.seesAll (principal : Principal) : Bool :=
  decide (principal.role = .admin) && principal.projectId.isNone

/-- `get_fanouts` -/
def ReadDb.getFanouts (db : ReadDb) (principal : Principal) :
    Except ReadError (List FanoutDetail) :=
  let details := (listFanouts db.fanouts).map db.detail
  .ok (if principal.seesAll then
    details
  else
    details.filter (fun detail => decide (detail.fanout.projectId = principal.projectId)))

/-- `get_fanout` -/
def ReadDb.getFanout (db : ReadDb) (settings : ApiSettings) (principal : Principal)
    (fanoutId : Id) : Except ReadError FanoutDetail := do
  let detail ← db.fanoutDetail fanoutId
  let _ ← authorize settings principal detail.fanout.projectId
  .ok detail

/-! ### Schedules, events, services and notebook goblins -/

/-- `list_schedules`: all rows are loaded before those of the caller are picked. -/
def ReadDb.listSchedules (db : ReadDb) (principal : Principal) :
    Except ReadError (List ScheduleRecord) := do
  let schedules ← (GoblinKing.listSchedules db.schedules).mapError .internal
  .ok (if principal.seesAll then
    schedules
  else
    schedules.filter (fun schedule => decide (schedule.projectId = principal.projectId)))

/-- `list_events`, on the only table it reads. -/
def eventsResponse (events : IndexedTable EventRecord.id EventRecord.sequenceIndex)
    (settings : ApiSettings) (principal : Principal) (query : EventQuery) :
    Except ReadError (ListResponse EventRecord) := do
  let scopedProject ← authorize settings principal query.projectId
  .ok (query.page.respond (listEvents events query scopedProject))

/-- `list_events` -/
def ReadDb.listEvents (db : ReadDb) (settings : ApiSettings) (principal : Principal)
    (query : EventQuery) : Except ReadError (ListResponse EventRecord) :=
  eventsResponse db.events settings principal query

/-- `list_long_running_services`: the project of the caller is the filter, and a caller without
one has no filter. -/
def ReadDb.listLongRunningServices (db : ReadDb) (principal : Principal) :
    Except ReadError (List LongServiceRecord) :=
  .ok (listLongServices db.longServices principal.projectId)

/-- `list_notebook_goblins` -/
def ReadDb.listNotebookGoblins (db : ReadDb) (settings : ApiSettings) (principal : Principal) :
    Except ReadError (List NotebookGoblinRecord) :=
  .ok ((GoblinKing.listNotebookGoblins db.goblins none).filter (fun record =>
    (projectForRequest settings principal record.projectId).isOk))

/-! ### Requests -/

/-- A request to read. -/
inductive ReadRequest where
  | listJobs (query : PageQuery) (status : Option String) (projectId : Option Id)
  | getJob (jobId : Id)
  | listRuns (query : PageQuery) (status kind : Option String) (projectId : Option Id)
  | getRun (runId : Id)
  | listRunArtifacts (runId : Id)
  | getFanouts
  | getFanout (fanoutId : Id)
  | listSchedules
  | listEvents (query : EventQuery)
  | listLongRunningServices
  | listNotebookGoblins

/-- What a request to read returns. -/
inductive ReadBody where
  | jobs (response : ListResponse JobRecord)
  | job (job : JobRecord)
  | runs (response : ListResponse RunRecord)
  | run (run : RunRecord)
  | artifacts (links : List ArtifactLink)
  | fanouts (details : List FanoutDetail)
  | fanout (detail : FanoutDetail)
  | schedules (schedules : List ScheduleRecord)
  | events (response : ListResponse EventRecord)
  | longServices (services : List LongServiceRecord)
  | goblins (records : List NotebookGoblinRecord)
  deriving DecidableEq

/-- The response to a request of a caller. -/
def ReadDb.respond (db : ReadDb) (settings : ApiSettings) (principal : Principal) :
    ReadRequest → Except ReadError ReadBody
  | .listJobs query status projectId =>
      (db.listJobs settings principal query status projectId).map .jobs
  | .getJob jobId => (db.getJob settings principal jobId).map .job
  | .listRuns query status kind projectId =>
      (db.listRuns settings principal query status kind projectId).map .runs
  | .getRun runId => (db.runForPrincipal settings principal runId).map .run
  | .listRunArtifacts runId => (db.listRunArtifacts settings principal runId).map .artifacts
  | .getFanouts => (db.getFanouts principal).map .fanouts
  | .getFanout fanoutId => (db.getFanout settings principal fanoutId).map .fanout
  | .listSchedules => (db.listSchedules principal).map .schedules
  | .listEvents query => (db.listEvents settings principal query).map .events
  | .listLongRunningServices => (db.listLongRunningServices principal).map .longServices
  | .listNotebookGoblins => (db.listNotebookGoblins settings principal).map .goblins

/-! ### What is authorized -/

/-- The project that a request is about, before it is authorized. -/
def resolvedProject (settings : ApiSettings) (principal : Principal) (projectId : Option Id) :
    Option Id :=
  ((truthy projectId).or (truthy principal.projectId)).or settings.defaultProjectId

/-- A caller may access a project. -/
def Principal.mayAccess (principal : Principal) (projectId : Option Id) : Bool :=
  decide (principal.role = .admin)
    || (principal.projectId.isSome && decide (projectId = principal.projectId))

section

variable {settings : ApiSettings} {principal : Principal} {projectId : Option Id}

/-- A row that is looked up is there. -/
theorem foundOr_ok {α : Type} {row : Option α} {detail : String} {a : α} :
  foundOr row detail = .ok a ↔ row = some a
  := by
  cases row with
  | none => simp [foundOr]
  | some a => simp [foundOr]

/-- A request is authorized when the caller may access its project. -/
theorem projectForRequest_eq :
  projectForRequest settings principal projectId
    = if principal.mayAccess (resolvedProject settings principal projectId) then
        .ok (resolvedProject settings principal projectId)
      else
        .error "project access denied"
  := by
  rw [projectForRequest, requireProjectAccess, resolvedProject, Principal.mayAccess]
  generalize ((truthy projectId).or (truthy principal.projectId)).or settings.defaultProjectId
    = resolved
  by_cases hadmin : principal.role = .admin
  · simp [hadmin, raiseIf, bind, Except.bind]
  · cases hproject : principal.projectId with
    | none => simp [hadmin, raiseIf, bind, Except.bind]
    | some p =>
        by_cases h : resolved = some p
        · simp [h, raiseIf, bind, Except.bind]
        · simp [hadmin, h, raiseIf, bind, Except.bind]

/-- A request is authorized when the caller may access its project. -/
theorem authorize_eq :
  authorize settings principal projectId
    = if principal.mayAccess (resolvedProject settings principal projectId) then
        .ok (resolvedProject settings principal projectId)
      else
        .error (.forbidden "project access denied")
  := by
  rw [authorize, projectForRequest_eq]
  split <;> rfl

/-- What is authorized is the project that was resolved, and the caller may access it. -/
theorem authorize_ok {scope : Option Id} :
  authorize settings principal projectId = .ok scope
    ↔ principal.mayAccess scope = true ∧ scope = resolvedProject settings principal projectId
  := by
  rw [authorize_eq]
  split
  case isTrue h =>
    rw [Except.ok.injEq]
    constructor
    · rintro rfl
      exact ⟨h, rfl⟩
    · rintro ⟨-, rfl⟩
      rfl
  case isFalse h =>
    simp only [reduceCtorEq, false_iff, not_and]
    rintro hscope rfl
    apply h hscope

/-- A caller who is no admin may access the own project only. -/
theorem mayAccess_member (hmember : principal.role ≠ .admin) :
  principal.mayAccess projectId = true
    ↔ principal.projectId.isSome = true ∧ projectId = principal.projectId
  := by
  simp [Principal.mayAccess, hmember]

/-- Nothing resolves to another project for a row of a project. -/
theorem resolvedProject_of_truthy {project : Id} (h : truthy projectId = some project) :
  resolvedProject settings principal projectId = some project
  := by
  rw [resolvedProject, h]
  rfl

end

end GoblinKing
