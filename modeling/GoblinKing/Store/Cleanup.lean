import GoblinKing.Library.Prefixes
import GoblinKing.Library.References
import GoblinKing.Scheduler.System
import GoblinKing.Store.Events

/-!
# Cleanup of historical rows

The deletion of jobs, runs, artifacts, handoffs, fanouts, events, heartbeats and services that
are history, in one transaction, or a preview of it. Jobs are selected by their status, and
runs with their jobs; but where there is no job to delete the runs are selected by themselves,
so that a job that is still to be retried loses the runs of its earlier attempts. Nor does
the deletion of a cancelled job wait for its last run.
-/

namespace GoblinKing

/-- An artifact, or a handoff, of a run. -/
structure RunProduct where
  id : ℕ
  runId : Id
  deriving DecidableEq

/-- `HeartbeatOwnerType` -/
inductive HeartbeatOwnerType where
  | scheduler
  | worker
  deriving DecidableEq

/-- The latest sign of life of a scheduler or a worker. -/
structure HeartbeatRecord where
  ownerId : Id
  ownerType : HeartbeatOwnerType
  jobId : Option Id := none
  runId : Option Id := none
  deriving DecidableEq

/-- The tables that the cleanup reads or writes. -/
structure RuntimeDb where
  jobs : Jobs
  runs : Runs
  artifacts : Table RunProduct.id
  handoffs : Table RunProduct.id
  fanouts : Table FanoutRecord.id
  events : EventDb
  heartbeats : Table HeartbeatRecord.ownerId
  longServices : Table LongServiceRecord.id

/-- Numbers of rows. -/
structure RuntimeRowCounts where
  artifacts : ℕ
  handoffs : ℕ
  runs : ℕ
  jobs : ℕ
  fanouts : ℕ
  events : ℕ
  workerHeartbeats : ℕ
  longServices : ℕ
  deriving DecidableEq

/-- A job is history. -/
def historicalJob (projectId : Option Id) (job : JobRecord) : Bool :=
  job.status.isTerminal && inScope projectId job.projectId

/-- `terminal_job_ids` -/
def RuntimeDb.terminalJobIds (db : RuntimeDb) (projectId : Option Id) : List Id :=
  (db.jobs.select (historicalJob projectId)).map JobRecord.id

/-- A run is history, when the jobs with some identifiers are. -/
def historicalRun (projectId : Option Id) (terminalJobIds : List Id) (run : RunRecord) : Bool :=
  run.status.isTerminal
    && (if terminalJobIds = [] then inScope projectId run.projectId
      else decide (run.jobId ∈ terminalJobIds))

/-- `run_ids` -/
def RuntimeDb.runIds (db : RuntimeDb) (projectId : Option Id) : List Id :=
  (db.runs.select (historicalRun projectId (db.terminalJobIds projectId))).map RunRecord.id

/-- A fanout has a job that is not terminal. -/
def RuntimeDb.activeChild (db : RuntimeDb) (fanoutId : Id) : Bool :=
  db.jobs.rows.any (fun job => decide (job.fanoutId = some fanoutId) && !job.status.isTerminal)

/-- `fanout_ids` -/
def RuntimeDb.fanoutIds (db : RuntimeDb) (projectId : Option Id) : List Id :=
  ((db.fanouts.select (fun fanout => inScope projectId fanout.projectId)).map
    FanoutRecord.id).filter (fun fanoutId => !db.activeChild fanoutId)

/-- `service_ids` -/
def RuntimeDb.serviceIds (db : RuntimeDb) (projectId : Option Id) (includeUnprobedServices : Bool) :
    List Id :=
  let ended := (db.longServices.select (fun service =>
    decide (service.status = .failed) || decide (service.status = .stopped))).map
      LongServiceRecord.id
  let unprobed := (db.longServices.select (fun service =>
    decide (service.status = .registered) && service.lastProbeAt.isNone)).map LongServiceRecord.id
  let serviceIds := (if includeUnprobedServices then ended ++ unprobed else ended).eraseDups
  match projectId with
  | none => serviceIds
  | some projectId =>
      let scopedServiceIds := (db.longServices.select (fun service =>
        decide (service.projectId = some projectId))).map LongServiceRecord.id
      serviceIds.filter (fun serviceId => decide (serviceId ∈ scopedServiceIds))

/-- `event_ids` -/
def RuntimeDb.eventIds (db : RuntimeDb) (projectId : Option Id) : List Id :=
  (db.events.events.table.select (fun event => inScope projectId event.projectId)).map
    EventRecord.id

/-- `worker_heartbeat_ids` -/
def RuntimeDb.workerHeartbeatIds (db : RuntimeDb) : List Id :=
  (db.heartbeats.select (fun heartbeat => decide (heartbeat.ownerType = .worker))).map
    HeartbeatRecord.ownerId

/-- Delete historical runtime rows, or preview their numbers. -/
def RuntimeDb.cleanupRuntimeRows (db : RuntimeDb) (projectId : Option Id)
    (dryRun includeUnprobedServices : Bool) : RuntimeDb × RuntimeRowCounts :=
  let terminalJobIds := db.terminalJobIds projectId
  let runIds := db.runIds projectId
  let fanoutIds := db.fanoutIds projectId
  let serviceIds := db.serviceIds projectId includeUnprobedServices
  let eventIds := db.eventIds projectId
  let workerHeartbeatIds := db.workerHeartbeatIds
  let counts : RuntimeRowCounts :=
    { artifacts := (db.artifacts.select (fun row => decide (row.runId ∈ runIds))).length
      handoffs := (db.handoffs.select (fun row => decide (row.runId ∈ runIds))).length
      runs := runIds.length
      jobs := terminalJobIds.length
      fanouts := fanoutIds.length
      events := eventIds.length
      workerHeartbeats := workerHeartbeatIds.length
      longServices := serviceIds.length }
  if dryRun then
    (db, counts)
  else
    ({ artifacts := db.artifacts.delete (fun row => decide (row.runId ∈ runIds))
       handoffs := db.handoffs.delete (fun row => decide (row.runId ∈ runIds))
       runs := db.runs.delete (fun run => decide (run.id ∈ runIds))
       jobs := db.jobs.delete (fun job => decide (job.id ∈ terminalJobIds))
       fanouts := db.fanouts.delete (fun fanout => decide (fanout.id ∈ fanoutIds))
       events := { db.events with
         events := db.events.events.delete (fun event => decide (event.id ∈ eventIds)) }
       heartbeats := db.heartbeats.delete (fun heartbeat =>
         decide (heartbeat.ownerId ∈ workerHeartbeatIds))
       longServices := db.longServices.delete (fun service =>
         decide (service.id ∈ serviceIds)) }, counts)

/-! ### What a cleanup must not do -/

/-- A row belongs to another project than the one that a cleanup is restricted to. -/
def foreign (projectId rowProjectId : Option Id) : Prop :=
  ∃ p q, projectId = some p ∧ rowProjectId = some q ∧ q ≠ p

/-- A row of a run refers to the run. -/
def RunProduct.ofRun (row : RunProduct) (run : RunRecord) : Prop :=
  run.id = row.runId

/-- A run refers to its job. -/
def RunRecord.ofJob (run : RunRecord) (job : JobRecord) : Prop :=
  job.id = run.jobId

/-- A row of a run refers to the job of the run. -/
def RuntimeDb.productOfJob (db : RuntimeDb) (row : RunProduct) (job : JobRecord) : Prop :=
  ∃ run ∈ db.runs.rows, row.ofRun run ∧ run.ofJob job

/-- A heartbeat names a job or a run of another project. -/
def RuntimeDb.foreignHeartbeat (db : RuntimeDb) (projectId : Option Id)
    (heartbeat : HeartbeatRecord) : Prop :=
  (∃ job ∈ db.jobs.rows, heartbeat.jobId = some job.id ∧ foreign projectId job.projectId)
    ∨ ∃ run ∈ db.runs.rows, heartbeat.runId = some run.id ∧ foreign projectId run.projectId

/-- Runs, artifacts and handoffs are deleted with their jobs only. -/
structure LeavesLiveWork (before after : RuntimeDb) : Prop where
  runs : Table.GoWithParents RunRecord.ofJob before.runs after.runs before.jobs after.jobs
  artifacts : Table.GoWithParents before.productOfJob before.artifacts after.artifacts
    before.jobs after.jobs
  handoffs : Table.GoWithParents before.productOfJob before.handoffs after.handoffs
    before.jobs after.jobs

/-- The runs that are left keep their jobs, and the artifacts and handoffs their runs. -/
structure KeepsReferences (before after : RuntimeDb) : Prop where
  runs : Table.KeepsParents RunRecord.ofJob after.runs before.jobs after.jobs
  artifacts : Table.KeepsParents RunProduct.ofRun after.artifacts before.runs after.runs
  handoffs : Table.KeepsParents RunProduct.ofRun after.handoffs before.runs after.runs

/-- No row that is deleted belongs to another project, or to a run of another project. -/
structure StaysInProject (projectId : Option Id) (before after : RuntimeDb) : Prop where
  jobs : ∀ job ∈ before.jobs.missing after.jobs, ¬ foreign projectId job.projectId
  runs : ∀ run ∈ before.runs.missing after.runs, ¬ foreign projectId run.projectId
  artifacts : ∀ row ∈ before.artifacts.missing after.artifacts, ∀ run ∈ before.runs.rows,
    row.ofRun run → ¬ foreign projectId run.projectId
  handoffs : ∀ row ∈ before.handoffs.missing after.handoffs, ∀ run ∈ before.runs.rows,
    row.ofRun run → ¬ foreign projectId run.projectId
  fanouts : ∀ fanout ∈ before.fanouts.missing after.fanouts, ¬ foreign projectId fanout.projectId
  events : ∀ event ∈ before.events.events.table.missing after.events.events.table,
    ¬ foreign projectId event.projectId
  heartbeats : ∀ heartbeat ∈ before.heartbeats.missing after.heartbeats,
    ¬ before.foreignHeartbeat projectId heartbeat
  longServices : ∀ service ∈ before.longServices.missing after.longServices,
    ¬ foreign projectId service.projectId

/-- The numbers of rows that are missing. -/
def missingRows (before after : RuntimeDb) : RuntimeRowCounts where
  artifacts := (before.artifacts.missing after.artifacts).length
  handoffs := (before.handoffs.missing after.handoffs).length
  runs := (before.runs.missing after.runs).length
  jobs := (before.jobs.missing after.jobs).length
  fanouts := (before.fanouts.missing after.fanouts).length
  events := (before.events.events.table.missing after.events.events.table).length
  workerHeartbeats := (before.heartbeats.missing after.heartbeats).length
  longServices := (before.longServices.missing after.longServices).length

/-- A cleanup touches neither live work nor other projects, and its preview is right. -/
structure RuntimeDb.CleanupSound (db : RuntimeDb) (projectId : Option Id)
    (dryRun includeUnprobedServices : Bool) : Prop where
  live : LeavesLiveWork db (db.cleanupRuntimeRows projectId dryRun includeUnprobedServices).1
  references : KeepsReferences db
    (db.cleanupRuntimeRows projectId dryRun includeUnprobedServices).1
  project : StaysInProject projectId db
    (db.cleanupRuntimeRows projectId dryRun includeUnprobedServices).1
  preview : (db.cleanupRuntimeRows projectId true includeUnprobedServices).2
    = missingRows db (db.cleanupRuntimeRows projectId false includeUnprobedServices).1

/-- When a cleanup that is no preview touches neither live work nor other projects: there is a
job to delete, or no finished run in scope belongs to a job; the runs of the jobs to delete are
finished, and of the same project; and no worker was last seen at work for another project. -/
structure RuntimeDb.HistoryOnly (db : RuntimeDb) (projectId : Option Id) : Prop where
  special : (∃ job ∈ db.jobs.rows, historicalJob projectId job = true)
    ∨ ∀ run ∈ db.runs.rows, run.status.isTerminal = true → inScope projectId run.projectId = true →
      ∀ job ∈ db.jobs.rows, ¬ run.ofJob job
  finished : ∀ run ∈ db.runs.rows, ∀ job ∈ db.jobs.rows, run.ofJob job →
    historicalJob projectId job = true → run.status.isTerminal = true
  project : ∀ run ∈ db.runs.rows, ∀ job ∈ db.jobs.rows, run.ofJob job →
    historicalJob projectId job = true → run.status.isTerminal = true →
      ¬ foreign projectId run.projectId
  workers : ∀ heartbeat ∈ db.heartbeats.rows, heartbeat.ownerType = .worker →
    ¬ db.foreignHeartbeat projectId heartbeat

section

variable {db : RuntimeDb} {projectId : Option Id} {includeUnprobedServices : Bool}

/-- A row in scope belongs to no other project. -/
theorem not_foreign_of_inScope {rowProjectId : Option Id}
    (h : inScope projectId rowProjectId = true) :
  ¬ foreign projectId rowProjectId
  := by
  rintro ⟨p, q, rfl, rfl, hne⟩
  apply hne
  simpa [inScope] using h

/-- The jobs to delete are those that are history. -/
theorem mem_terminalJobIds {job : JobRecord} (hjob : job ∈ db.jobs.rows) :
  job.id ∈ db.terminalJobIds projectId ↔ historicalJob projectId job = true
  := Table.mem_keys_select hjob

/-- There is no job to delete when no job is history. -/
theorem terminalJobIds_eq_nil :
  db.terminalJobIds projectId = [] ↔ ∀ job ∈ db.jobs.rows, historicalJob projectId job = false
  := by
  simp [RuntimeDb.terminalJobIds, Table.select, List.filter_eq_nil_iff]

/-- A run of a job is history when it is finished and its job is history; or when it is
finished and in scope, and no job is history. -/
theorem historicalRun_iff {run : RunRecord} {job : JobRecord} (hjob : job ∈ db.jobs.rows)
    (hof : run.ofJob job) :
  historicalRun projectId (db.terminalJobIds projectId) run = true
    ↔ run.status.isTerminal = true ∧ (historicalJob projectId job = true
      ∨ (∀ job ∈ db.jobs.rows, historicalJob projectId job = false)
        ∧ inScope projectId run.projectId = true)
  := by
  rw [historicalRun, Bool.and_eq_true]
  apply and_congr_right
  intro _
  split
  case isTrue hnil =>
    have hnone := terminalJobIds_eq_nil.mp hnil
    rw [hnone job hjob]
    simp only [Bool.false_eq_true, false_or]
    exact ⟨fun h => ⟨hnone, h⟩, And.right⟩
  case isFalse hsome =>
    rw [decide_eq_true_iff, ← hof, mem_terminalJobIds hjob]
    constructor
    · apply Or.inl
    · rintro (h | ⟨hnone, -⟩)
      · apply h
      · cases hsome (terminalJobIds_eq_nil.mpr hnone)

/-- A run that is history belongs to a job that is; unless no job is history, and it is
in scope. -/
theorem job_of_historicalRun {run : RunRecord}
    (h : historicalRun projectId (db.terminalJobIds projectId) run = true) :
  run.status.isTerminal = true ∧ ((∃ job ∈ db.jobs.rows, run.ofJob job
      ∧ historicalJob projectId job = true)
    ∨ inScope projectId run.projectId = true)
  := by
  rw [historicalRun, Bool.and_eq_true] at h
  use h.1
  have h := h.2
  split at h
  · right
    apply h
  · left
    obtain ⟨job, hjob, hid⟩ := List.mem_map.mp (decide_eq_true_iff.mp h)
    obtain ⟨hjob, hhistorical⟩ := List.mem_filter.mp hjob
    exact ⟨job, hjob, hid, hhistorical⟩

/-! ### The rows that are deleted -/

/-- A fanout is history. -/
def RuntimeDb.historicalFanout (db : RuntimeDb) (projectId : Option Id) (fanout : FanoutRecord) :
    Bool :=
  inScope projectId fanout.projectId && !db.activeChild fanout.id

/-- A service is history. -/
def historicalService (projectId : Option Id) (includeUnprobedServices : Bool)
    (service : LongServiceRecord) : Bool :=
  (decide (service.status = .failed) || decide (service.status = .stopped)
      || includeUnprobedServices
        && (decide (service.status = .registered) && service.lastProbeAt.isNone))
    && inScope projectId service.projectId

/-- The identifiers of the fanouts that are history. -/
theorem fanoutIds_eq :
  db.fanoutIds projectId = (db.fanouts.select (db.historicalFanout projectId)).map FanoutRecord.id
  := by
  rw [RuntimeDb.fanoutIds, List.filter_map]
  congr 1
  simp only [Table.select, List.filter_filter]
  apply List.filter_congr
  intro fanout _
  simp [RuntimeDb.historicalFanout, Bool.and_comm]

/-- The identifiers of the services that are history. -/
theorem mem_serviceIds {serviceId : Id} :
  serviceId ∈ db.serviceIds projectId includeUnprobedServices
    ↔ ∃ service ∈ db.longServices.rows,
      historicalService projectId includeUnprobedServices service = true ∧ service.id = serviceId
  := by
  have hids : serviceId ∈ db.serviceIds none includeUnprobedServices
      ↔ ∃ service ∈ db.longServices.rows,
        historicalService none includeUnprobedServices service = true ∧ service.id = serviceId := by
    simp only [RuntimeDb.serviceIds, List.mem_eraseDups]
    cases includeUnprobedServices with
    | false => simp [Table.mem_map_select, historicalService, inScope]
    | true =>
        rw [if_pos rfl, List.mem_append, Table.mem_map_select, Table.mem_map_select, ← exists_or]
        simp [historicalService, inScope, ← and_or_left, ← or_and_right]
  cases projectId with
  | none => apply hids
  | some projectId =>
      have hscoped : serviceId ∈ db.serviceIds (some projectId) includeUnprobedServices
          ↔ serviceId ∈ db.serviceIds none includeUnprobedServices
            ∧ ∃ service ∈ db.longServices.rows,
              decide (service.projectId = some projectId) = true ∧ service.id = serviceId := by
        rw [← Table.mem_map_select]
        simp [RuntimeDb.serviceIds]
      rw [hscoped, hids]
      constructor
      · rintro ⟨⟨service, hservice, hhistorical, hid⟩, scoped', hscoped', hproject, hid'⟩
        obtain rfl := db.longServices.eq_of_key_eq hservice hscoped' (hid.trans hid'.symm)
        use service, hservice
        simp_all [historicalService, inScope]
      · rintro ⟨service, hservice, hhistorical, hid⟩
        constructor
        · use service, hservice
          simp_all [historicalService, inScope]
        · use service, hservice
          simp_all [historicalService, inScope]

/-- Each service that is history is listed once. -/
theorem perm_serviceIds :
  (db.serviceIds projectId includeUnprobedServices).Perm
    ((db.longServices.select (historicalService projectId includeUnprobedServices)).map
      LongServiceRecord.id)
  := by
  have hnodup : (db.serviceIds projectId includeUnprobedServices).Nodup := by
    cases projectId with
    | none => apply List.nodup_eraseDups
    | some projectId => apply (List.nodup_eraseDups _).filter
  have hkeys : ((db.longServices.select
      (historicalService projectId includeUnprobedServices)).map LongServiceRecord.id).Nodup :=
    db.longServices.nodup.sublist (List.filter_sublist.map LongServiceRecord.id)
  rw [List.perm_ext_iff_of_nodup hnodup hkeys]
  intro serviceId
  rw [mem_serviceIds, Table.mem_map_select]

/-- What a cleanup leaves. -/
structure Cleaned (db : RuntimeDb) (projectId : Option Id) (includeUnprobedServices : Bool)
    (after : RuntimeDb) : Prop where
  jobs : after.jobs = db.jobs.delete (historicalJob projectId)
  runs : after.runs
    = db.runs.delete (historicalRun projectId (db.terminalJobIds projectId))
  artifacts : after.artifacts
    = db.artifacts.delete (fun row => decide (row.runId ∈ db.runIds projectId))
  handoffs : after.handoffs
    = db.handoffs.delete (fun row => decide (row.runId ∈ db.runIds projectId))
  fanouts : after.fanouts = db.fanouts.delete (db.historicalFanout projectId)
  events : after.events.events.table
    = db.events.events.table.delete (fun event => inScope projectId event.projectId)
  heartbeats : after.heartbeats
    = db.heartbeats.delete (fun heartbeat => decide (heartbeat.ownerType = .worker))
  longServices : after.longServices
    = db.longServices.delete (historicalService projectId includeUnprobedServices)

/-- A cleanup that is no preview deletes what is history. -/
theorem cleaned_cleanupRuntimeRows (db : RuntimeDb) (projectId : Option Id)
    (includeUnprobedServices : Bool) :
  Cleaned db projectId includeUnprobedServices
    (db.cleanupRuntimeRows projectId false includeUnprobedServices).1
  := by
  constructor
  · apply Table.delete_keys
  · apply Table.delete_keys
  · rfl
  · rfl
  · dsimp only [RuntimeDb.cleanupRuntimeRows]
    rw [fanoutIds_eq]
    apply Table.delete_keys
  · apply Table.delete_keys
  · apply Table.delete_keys
  · have hids : (fun service : LongServiceRecord =>
        decide (service.id ∈ db.serviceIds projectId includeUnprobedServices))
        = fun service => decide (service.id ∈ (db.longServices.select
          (historicalService projectId includeUnprobedServices)).map LongServiceRecord.id) := by
      funext service
      rw [decide_eq_decide]
      apply perm_serviceIds.mem_iff
    dsimp only [RuntimeDb.cleanupRuntimeRows]
    rw [hids]
    apply Table.delete_keys

/-- A preview leaves everything. -/
theorem cleanupRuntimeRows_preview (db : RuntimeDb) :
  (db.cleanupRuntimeRows projectId true includeUnprobedServices).1 = db
  := rfl

end

section

variable {db after : RuntimeDb} {projectId : Option Id} {includeUnprobedServices : Bool}

/-- The preview counts the rows that are deleted. -/
theorem preview_eq_missingRows (db : RuntimeDb) (projectId : Option Id)
    (includeUnprobedServices : Bool) :
  (db.cleanupRuntimeRows projectId true includeUnprobedServices).2
    = missingRows db (db.cleanupRuntimeRows projectId false includeUnprobedServices).1
  := by
  have h := cleaned_cleanupRuntimeRows db projectId includeUnprobedServices
  simp only [missingRows, h.jobs, h.runs, h.artifacts, h.handoffs, h.fanouts, h.events,
    h.heartbeats, h.longServices, Table.missing_delete]
  simp only [RuntimeDb.cleanupRuntimeRows, if_pos, RuntimeDb.terminalJobIds, RuntimeDb.runIds,
    RuntimeDb.eventIds, RuntimeDb.workerHeartbeatIds, fanoutIds_eq, perm_serviceIds.length_eq,
    List.length_map]

/-- A row of a run is deleted when the run is. -/
theorem mem_runIds_of_run {row : RunProduct} {run : RunRecord} (hrun : run ∈ db.runs.rows)
    (hof : row.ofRun run) :
  row.runId ∈ db.runIds projectId
    ↔ historicalRun projectId (db.terminalJobIds projectId) run = true
  := by
  rw [← hof]
  apply Table.mem_keys_select hrun

/-- Runs are deleted with their jobs only, when a job is deleted or no finished run in scope
belongs to a job. -/
theorem runs_go_with_jobs_iff :
  (∀ run ∈ db.runs.rows, historicalRun projectId (db.terminalJobIds projectId) run = true →
      ∀ job ∈ db.jobs.rows, run.ofJob job → historicalJob projectId job = true)
    ↔ (∃ job ∈ db.jobs.rows, historicalJob projectId job = true)
      ∨ ∀ run ∈ db.runs.rows, run.status.isTerminal = true →
        inScope projectId run.projectId = true → ∀ job ∈ db.jobs.rows, ¬ run.ofJob job
  := by
  constructor
  · intro h
    by_cases hsome : ∃ job ∈ db.jobs.rows, historicalJob projectId job = true
    · left
      apply hsome
    · right
      have hnone : ∀ job ∈ db.jobs.rows, historicalJob projectId job = false := by
        intro job hjob
        rw [← Bool.not_eq_true]
        exact fun hhistorical => hsome ⟨job, hjob, hhistorical⟩
      intro run hrun hterminal hscope job hjob hof
      apply hsome
      have hhistorical := (historicalRun_iff hjob hof).mpr ⟨hterminal, .inr ⟨hnone, hscope⟩⟩
      exact ⟨job, hjob, h run hrun hhistorical job hjob hof⟩
  · intro h run hrun hhistorical job hjob hof
    obtain ⟨hterminal, hjobs⟩ := (historicalRun_iff hjob hof).mp hhistorical
    rcases hjobs with hjobs | ⟨hnone, hscope⟩
    · apply hjobs
    · rcases h with ⟨job', hjob', hsome⟩ | h
      · rw [hnone job' hjob'] at hsome
        cases hsome
      · cases h run hrun hterminal hscope job hjob hof

/-- When a cleanup leaves live work. -/
theorem Cleaned.leavesLiveWork_iff (h : Cleaned db projectId includeUnprobedServices after) :
  LeavesLiveWork db after
    ↔ (∃ job ∈ db.jobs.rows, historicalJob projectId job = true)
      ∨ ∀ run ∈ db.runs.rows, run.status.isTerminal = true →
        inScope projectId run.projectId = true → ∀ job ∈ db.jobs.rows, ¬ run.ofJob job
  := by
  rw [← runs_go_with_jobs_iff]
  constructor
  · intro hlive
    have hruns := hlive.runs
    rw [h.runs, h.jobs, Table.goWithParents_delete] at hruns
    apply hruns
  · intro hruns
    -- an artifact is deleted with its run, and the run with its job
    have hproducts : ∀ row : RunProduct, decide (row.runId ∈ db.runIds projectId) = true →
        ∀ job ∈ db.jobs.rows, db.productOfJob row job → historicalJob projectId job = true := by
      rintro row hrow job hjob ⟨run, hrun, hofRun, hofJob⟩
      rw [decide_eq_true_iff, mem_runIds_of_run hrun hofRun] at hrow
      apply hruns run hrun hrow job hjob hofJob
    constructor
    · rw [h.runs, h.jobs, Table.goWithParents_delete]
      apply hruns
    · rw [h.artifacts, h.jobs, Table.goWithParents_delete]
      apply fun row _ => hproducts row
    · rw [h.handoffs, h.jobs, Table.goWithParents_delete]
      apply fun row _ => hproducts row

/-- When a cleanup keeps the references: all runs of the jobs it deletes are finished. -/
theorem Cleaned.keepsReferences_iff (h : Cleaned db projectId includeUnprobedServices after) :
  KeepsReferences db after
    ↔ ∀ run ∈ db.runs.rows, ∀ job ∈ db.jobs.rows, run.ofJob job →
      historicalJob projectId job = true → run.status.isTerminal = true
  := by
  constructor
  · intro hkeeps run hrun job hjob hof hhistorical
    have hruns := hkeeps.runs
    rw [h.runs, h.jobs, Table.keepsParents_delete] at hruns
    apply ((historicalRun_iff hjob hof).mp (hruns run hrun job hjob hof hhistorical)).1
  · intro hfinished
    have hproducts : ∀ row : RunProduct, ∀ run ∈ db.runs.rows, row.ofRun run →
        historicalRun projectId (db.terminalJobIds projectId) run = true →
          decide (row.runId ∈ db.runIds projectId) = true := by
      intro row run hrun hof hhistorical
      rw [decide_eq_true_iff, mem_runIds_of_run hrun hof]
      apply hhistorical
    constructor
    · rw [h.runs, h.jobs, Table.keepsParents_delete]
      intro run hrun job hjob hof hhistorical
      apply (historicalRun_iff hjob hof).mpr
      exact ⟨hfinished run hrun job hjob hof hhistorical, .inl hhistorical⟩
    · rw [h.artifacts, h.runs, Table.keepsParents_delete]
      apply fun row _ => hproducts row
    · rw [h.handoffs, h.runs, Table.keepsParents_delete]
      apply fun row _ => hproducts row

/-- When a cleanup stays in its project: the finished runs of the jobs that it deletes are of no
other project, and no worker was last seen at work for another project. -/
theorem Cleaned.staysInProject_iff (h : Cleaned db projectId includeUnprobedServices after) :
  StaysInProject projectId db after
    ↔ (∀ run ∈ db.runs.rows, ∀ job ∈ db.jobs.rows, run.ofJob job →
        historicalJob projectId job = true → run.status.isTerminal = true →
          ¬ foreign projectId run.projectId)
      ∧ ∀ heartbeat ∈ db.heartbeats.rows, heartbeat.ownerType = .worker →
        ¬ db.foreignHeartbeat projectId heartbeat
  := by
  have hmem : ∀ run, run ∈ db.runs.missing after.runs ↔ run ∈ db.runs.rows
      ∧ historicalRun projectId (db.terminalJobIds projectId) run = true := by
    intro run
    rw [h.runs, Table.missing_delete]
    apply List.mem_filter
  constructor
  · intro hstays
    constructor
    · intro run hrun job hjob hof hhistorical hterminal
      apply hstays.runs run
      apply (hmem run).mpr ⟨hrun, (historicalRun_iff hjob hof).mpr ⟨hterminal, .inl hhistorical⟩⟩
    · intro heartbeat hheartbeat hworker
      apply hstays.heartbeats heartbeat
      rw [h.heartbeats, Table.missing_delete]
      apply List.mem_filter.mpr ⟨hheartbeat, decide_eq_true hworker⟩
  · rintro ⟨hproject, hworkers⟩
    have hruns : ∀ run ∈ db.runs.missing after.runs, ¬ foreign projectId run.projectId := by
      intro run hmissing
      obtain ⟨hrun, hhistorical⟩ := (hmem run).mp hmissing
      obtain ⟨hterminal, ⟨job, hjob, hof, hhistorical⟩ | hscope⟩ := job_of_historicalRun hhistorical
      · apply hproject run hrun job hjob hof hhistorical hterminal
      · apply not_foreign_of_inScope hscope
    have hproducts : ∀ row : RunProduct, decide (row.runId ∈ db.runIds projectId) = true →
        ∀ run ∈ db.runs.rows, row.ofRun run → ¬ foreign projectId run.projectId := by
      intro row hrow run hrun hof
      rw [decide_eq_true_iff, mem_runIds_of_run hrun hof] at hrow
      apply hruns run ((hmem run).mpr ⟨hrun, hrow⟩)
    constructor
    · intro job hmissing
      rw [h.jobs, Table.missing_delete] at hmissing
      obtain ⟨-, hhistorical⟩ := List.mem_filter.mp hmissing
      rw [historicalJob, Bool.and_eq_true] at hhistorical
      apply not_foreign_of_inScope hhistorical.2
    · apply hruns
    · intro row hmissing
      rw [h.artifacts, Table.missing_delete] at hmissing
      apply hproducts row (List.mem_filter.mp hmissing).2
    · intro row hmissing
      rw [h.handoffs, Table.missing_delete] at hmissing
      apply hproducts row (List.mem_filter.mp hmissing).2
    · intro fanout hmissing
      rw [h.fanouts, Table.missing_delete] at hmissing
      obtain ⟨-, hhistorical⟩ := List.mem_filter.mp hmissing
      rw [RuntimeDb.historicalFanout, Bool.and_eq_true] at hhistorical
      apply not_foreign_of_inScope hhistorical.1
    · intro event hmissing
      rw [h.events, Table.missing_delete] at hmissing
      apply not_foreign_of_inScope (List.mem_filter.mp hmissing).2
    · intro heartbeat hmissing
      rw [h.heartbeats, Table.missing_delete] at hmissing
      obtain ⟨hheartbeat, hworker⟩ := List.mem_filter.mp hmissing
      apply hworkers heartbeat hheartbeat (of_decide_eq_true hworker)
    · intro service hmissing
      rw [h.longServices, Table.missing_delete] at hmissing
      obtain ⟨-, hhistorical⟩ := List.mem_filter.mp hmissing
      rw [historicalService, Bool.and_eq_true] at hhistorical
      apply not_foreign_of_inScope hhistorical.2

/-- A preview touches nothing. -/
theorem cleanupSound_preview (db : RuntimeDb) (projectId : Option Id)
    (includeUnprobedServices : Bool) :
  db.CleanupSound projectId true includeUnprobedServices
  := by
  constructor
  · rw [cleanupRuntimeRows_preview]
    exact ⟨Table.goWithParents_self, Table.goWithParents_self, Table.goWithParents_self⟩
  · rw [cleanupRuntimeRows_preview]
    exact ⟨Table.keepsParents_self, Table.keepsParents_self, Table.keepsParents_self⟩
  · rw [cleanupRuntimeRows_preview]
    constructor <;> simp [Table.missing_self]
  · apply preview_eq_missingRows

/-- On the tables of the scheduler, the cleanup is the step that the system takes. -/
theorem cleanupRuntimeRows_scheduler (db : RuntimeDb) (projectId : Option Id)
    (includeUnprobedServices : Bool) :
  cleanupRuntimeRows db.jobs db.runs projectId
    = ((db.cleanupRuntimeRows projectId false includeUnprobedServices).1.jobs,
      (db.cleanupRuntimeRows projectId false includeUnprobedServices).1.runs)
  := by
  have h := cleaned_cleanupRuntimeRows db projectId includeUnprobedServices
  rw [h.jobs, h.runs]
  rfl

/-- On the event log, the cleanup is the deletion of events. -/
theorem cleanupRuntimeRows_events (db : RuntimeDb) (projectId : Option Id)
    (includeUnprobedServices : Bool) :
  (db.cleanupRuntimeRows projectId false includeUnprobedServices).1.events
    = cleanupEvents db.events projectId
  := by
  have hscope : (fun event : EventRecord => inScope projectId event.projectId)
      = fun event => projectId.isNone || decide (event.projectId = projectId) := by
    funext event
    cases projectId with
    | none => rfl
    | some projectId => simp [inScope, beq_eq_decide]
  have htable := (cleaned_cleanupRuntimeRows db projectId includeUnprobedServices).events
  rw [hscope] at htable
  simp only [RuntimeDb.cleanupRuntimeRows, Bool.false_eq_true, if_false, IndexedTable.delete]
    at htable ⊢
  simp only [cleanupEvents, IndexedTable.delete, htable]

end

/-- A cleanup touches neither live work nor other projects, and its preview is right, exactly
when it is a preview itself, or there is nothing but history to delete. -/
theorem cleanup_sound_iff (db : RuntimeDb) (projectId : Option Id)
    (dryRun includeUnprobedServices : Bool) :
  db.CleanupSound projectId dryRun includeUnprobedServices
    ↔ dryRun = true ∨ db.HistoryOnly projectId
  := by
  cases dryRun with
  | true => exact iff_of_true (cleanupSound_preview db projectId _) (.inl rfl)
  | false =>
      have h := cleaned_cleanupRuntimeRows db projectId includeUnprobedServices
      constructor
      · intro hsound
        right
        obtain ⟨hproject, hworkers⟩ := h.staysInProject_iff.mp hsound.project
        exact ⟨h.leavesLiveWork_iff.mp hsound.live, h.keepsReferences_iff.mp hsound.references,
          hproject, hworkers⟩
      · rintro (hfalse | hhistory)
        · cases hfalse
        · exact ⟨h.leavesLiveWork_iff.mpr hhistory.special,
            h.keepsReferences_iff.mpr hhistory.finished,
            h.staysInProject_iff.mpr ⟨hhistory.project, hhistory.workers⟩,
            preview_eq_missingRows db projectId includeUnprobedServices⟩

/-- A job that is still to be retried. -/
def retryingJob : JobRecord :=
  { id := "j", kind := "k", createdAt := 10, status := .retrying, maxRetries := 1 }

/-- The run of its first attempt. -/
def failedAttempt : RunRecord :=
  { id := "r", jobId := "j", kind := "k", status := .failed, startedAt := 10 }

/-- A database with the job and the run. -/
def retryingDb : RuntimeDb where
  jobs := ⟨[retryingJob], List.nodup_singleton _⟩
  runs := ⟨[failedAttempt], List.nodup_singleton _⟩
  artifacts := .empty
  handoffs := .empty
  fanouts := .empty
  events := .init
  heartbeats := .empty
  longServices := .empty

/-- When there is no job to delete, the run of a job that is still to be retried is deleted. -/
theorem run_of_retrying_job_deleted :
  ¬ ∀ (db : RuntimeDb) (projectId : Option Id) (dryRun includeUnprobedServices : Bool),
    db.CleanupSound projectId dryRun includeUnprobedServices
  := by
  intro h
  have hlive := (h retryingDb none false true).live.runs
  have hrun : failedAttempt ∉ (retryingDb.cleanupRuntimeRows none false true).1.runs.rows := by
    decide +kernel
  have hjob : retryingJob ∈ (retryingDb.cleanupRuntimeRows none false true).1.jobs.rows := by
    decide +kernel
  apply hlive failedAttempt List.mem_cons_self hrun retryingJob List.mem_cons_self rfl hjob

end GoblinKing
