import GoblinKing.Scheduler.Steps
import GoblinKing.Api.Schedules
import GoblinKing.Library.Transition
import Mathlib.Logic.Function.Basic

/-!
# The system

Any number of schedulers and API requests on one database. A step of the system is one
committed transaction, so a run of the system is an interleaving of the transactions of all
parties. Lease renewals run in threads of their own: a renewal for any job may be committed
at any time, also after the attempt that it was started for.
-/

namespace GoblinKing

/-- A patch request that has read its schedule. -/
structure PendingPatch where
  schedule : ScheduleRecord
  request : SchedulePatchRequest
  deriving DecidableEq

/-- The database, the schedulers, the patch requests between their two transactions, and
the log, newest first. -/
structure System where
  db : Db
  phase : WorkerId → Phase
  patch : Id → Option PendingPatch
  log : List Event

/-- An empty database, with all schedulers idle. -/
def System.init : System where
  db := ⟨.empty, .empty, .empty⟩
  phase := fun _ => .idle none
  patch := fun _ => none
  log := []

/-- What can happen. -/
inductive Action where
  /-- a job is submitted through the API -/
  | submit (job : JobRecord)
  /-- a job is cancelled through the API -/
  | cancel (jobId : Id)
  /-- the lease thread of a scheduler renews -/
  | renew (w : WorkerId) (jobId : Id) (leaseUntil : Instant)
  /-- historical rows are deleted -/
  | cleanup (projectId : Option Id)
  /-- a schedule is created through the API -/
  | create (kinds : List String) (request : ScheduleCreateRequest) (projectId : Option Id)
      (scheduleId : Id) (createdAt : Instant)
  /-- a patch request reads its schedule -/
  | readPatch (requestId scheduleId : Id) (request : SchedulePatchRequest)
  /-- a patch request writes its schedule, or fails -/
  | writePatch (requestId : Id) (now : Instant)
  /-- a scheduler takes a step -/
  | scheduler (w : WorkerId) (action : SchedulerAction)

/-- The scheduler that takes a step, if one does. -/
def Action.worker : Action → Option WorkerId
  | .scheduler w _ => some w
  | _ => none

/-- No row is deleted by the action. -/
def Action.keepsRows : Action → Bool
  | .cleanup _ => false
  | _ => true

/-- A job as it is submitted: queued, without a lease, and never attempted. -/
def JobRecord.submitted (job : JobRecord) : Bool :=
  job.status == .queued && job.leaseOwner == none && job.leasedUntil == none
    && job.attemptCount == 0

/-- A row belongs to the project that a cleanup is restricted to, if it is. -/
def inScope (projectId rowProjectId : Option Id) : Bool :=
  projectId.all (fun p => rowProjectId == some p)

/-- Delete the terminal jobs and the terminal runs of these jobs; the terminal runs of all
jobs when no job is deleted. -/
def cleanupRuntimeRows (jobs : Jobs) (runs : Runs) (projectId : Option Id) : Jobs × Runs :=
  let terminal := fun job : JobRecord => job.status.isTerminal && inScope projectId job.projectId
  let jobIds := (jobs.select terminal).map JobRecord.id
  let historical := fun run : RunRecord =>
    run.status.isTerminal
      && (if jobIds = [] then inScope projectId run.projectId else decide (run.jobId ∈ jobIds))
  (jobs.delete terminal, runs.delete historical)

/-- The system after a step of a scheduler. -/
def System.after (σ : System) (w : WorkerId) (db : Db) (phase : Phase) (events : List Event) :
    System :=
  { σ with db := db, phase := Function.update σ.phase w phase, log := events ++ σ.log }

@[simp]
theorem System.after_db (σ : System) (w : WorkerId) (db : Db) (phase : Phase)
    (events : List Event) :
  (σ.after w db phase events).db = db
  := rfl

@[simp]
theorem System.after_log (σ : System) (w : WorkerId) (db : Db) (phase : Phase)
    (events : List Event) :
  (σ.after w db phase events).log = events ++ σ.log
  := rfl

@[simp]
theorem System.after_phase_self (σ : System) (w : WorkerId) (db : Db) (phase : Phase)
    (events : List Event) :
  (σ.after w db phase events).phase w = phase
  := by
  simp [System.after]

theorem System.after_phase_of_ne (σ : System) {v w : WorkerId} (h : v ≠ w) (db : Db)
    (phase : Phase) (events : List Event) :
  (σ.after w db phase events).phase v = σ.phase v
  := by
  simp [System.after, h]

/-- The system after the first transaction of a patch request. -/
def System.readPatch (σ : System) (requestId scheduleId : Id) (request : SchedulePatchRequest) :
    Option System :=
  if (σ.patch requestId).isSome then
    none
  else
    match getSchedule σ.db.schedules scheduleId with
    | .ok (some schedule) =>
        some { σ with
          patch := Function.update σ.patch requestId (some ⟨schedule, request⟩)
          log := .patchRead requestId scheduleId :: σ.log }
    | .ok none | .error _ => some σ

/-- The system after the second transaction of a patch request. When the request fails
nothing is written. -/
def System.writePatch (env : Environment) (σ : System) (requestId : Id) (now : Instant) :
    Option System :=
  match σ.patch requestId with
  | none => none
  | some pending =>
      let answered := { σ with patch := Function.update σ.patch requestId none }
      match patched env pending.request pending.schedule now with
      | .error _ => some answered
      | .ok copy =>
          match updateSchedule σ.db.schedules copy with
          | .error _ => some answered
          | .ok schedules =>
              some { answered with
                db := { σ.db with schedules := schedules }
                log := .patched requestId copy :: σ.log }

/-- One transaction of the system; `none` when the action is not possible. -/
def step (env : Environment) (config : WorkerId → SchedulerConfig) (σ : System) :
    Action → Option System
  | .submit job =>
      if job.submitted then
        (saveJob σ.db.jobs job).map (fun jobs => { σ with db := { σ.db with jobs := jobs } })
      else
        none
  | .cancel jobId =>
      some { σ with db := { σ.db with jobs := (tryCancelJob σ.db.jobs jobId).2 } }
  | .renew w jobId leaseUntil =>
      some { σ with db := { σ.db with jobs := (tryRenewJobLease σ.db.jobs jobId w leaseUntil).2 } }
  | .cleanup projectId =>
      let (jobs, runs) := cleanupRuntimeRows σ.db.jobs σ.db.runs projectId
      some { σ with db := { σ.db with jobs := jobs, runs := runs } }
  | .create kinds request projectId scheduleId createdAt =>
      match createSchedule env kinds σ.db.schedules request projectId scheduleId createdAt with
      | .error _ => none
      | .ok (_, schedules) => some { σ with db := { σ.db with schedules := schedules } }
  | .readPatch requestId scheduleId request => σ.readPatch requestId scheduleId request
  | .writePatch requestId now => σ.writePatch env requestId now
  | .scheduler w action =>
      (schedulerStep env (config w) w σ.db (σ.phase w) action).map
        (fun (db, phase, events) => σ.after w db phase events)

/-- Schedulers to replay runs with: all of them know the kind `report`. -/
def sampleConfig : WorkerId → SchedulerConfig :=
  fun _ => { kinds := ["report"] }

/-- The state after a run of the sample schedulers from an empty database. -/
def sampleRun (as : List Action) : Option System :=
  Transition.run (step Environment.sample sampleConfig) System.init as

/-- The state after a run of the sample schedulers whose steps all meet a guard. -/
def sampleRunUnder (g : System → Action → Bool) (as : List Action) : Option System :=
  Transition.runUnder (step Environment.sample sampleConfig) g System.init as

end GoblinKing
