import GoblinKing.Scheduler.Failures
import GoblinKing.Store.Schedules

/-!
# The pass of a scheduler

`run_once` as a state machine. A phase of the machine stands between two transactions of the
pass and holds the local variables that are still needed; a step is one transaction with
the computation up to the next one. What the code does not decide itself is in the action:
the clock, the identifiers drawn by `uuid4`, the timestamps of events, the result of the
runtime, and where an exception is raised.

The passes of one scheduler are sequential. A pass may begin when none is under way, also
after one that ended with an exception.
-/

namespace GoblinKing

/-- The tables that a scheduler reads and writes. -/
structure Db where
  jobs : Jobs
  runs : Runs
  schedules : Schedules
  deriving DecidableEq

/-- The policy that is resolved for a job, and the JSON text it is stored as. -/
structure EffectivePolicy where
  policy : ResourcePolicy
  compact : String

/-- The configuration of one scheduler. -/
structure SchedulerConfig where
  /-- the kinds in the registry -/
  kinds : List String
  /-- `ResourcePolicySet.effective_for` of the policy set, when there is one -/
  effectiveFor : Option ((kind : String) → (timeoutSeconds : Option ℕ) → (maxRetries : ℕ) →
    Except String EffectivePolicy) := none
  leaseSeconds : ℤ := 60
  claimLimit : ℕ := 10

/-- Where a scheduler stands in its pass, and what it still holds. -/
inductive Phase where
  /-- no pass is under way; the exception with which the last one has ended, if it did -/
  | idle (exception : Option String)
  /-- the loop of `materialize_due_schedules` -/
  | due (now : Instant) (schedules : List ScheduleRecord)
  /-- the job of a schedule is saved, and the schedule not yet advanced -/
  | saved (now : Instant) (schedule : ScheduleRecord) (schedules : List ScheduleRecord)
  /-- the loop of `claim_due_jobs` over the claimed jobs -/
  | check (now : Instant) (claimed runnable : List JobRecord)
  /-- a job has passed the project limit, the limit of its kind is still to be checked -/
  | checkKind (now : Instant) (job : JobRecord) (maxRunning : ℕ+)
      (claimed runnable : List JobRecord)
  /-- a job is to be put back into the queue -/
  | defer (now : Instant) (job : JobRecord) (message : String)
      (claimed runnable : List JobRecord)
  /-- the loop of `run_once` over the runnable jobs -/
  | attempt (now : Instant) (jobs : List JobRecord)
  /-- the job is marked running -/
  | marked (now : Instant) (job : JobRecord) (startedAt : Instant) (jobs : List JobRecord)
  /-- the run is inserted, the runtime executes -/
  | started (now : Instant) (job : JobRecord) (startedAt : Instant) (runId : Id)
      (jobs : List JobRecord)
  /-- the attempt is finalized, its event not yet emitted -/
  | finalized (now : Instant) (job : JobRecord) (jobs : List JobRecord)
  /-- the attempt raised: before `get_job` -/
  | recover (now : Instant) (job : JobRecord) (error : String) (jobs : List JobRecord)
  /-- before `list_job_runs` -/
  | inspect (now : Instant) (job : JobRecord) (error : String) (current : JobRecord)
      (jobs : List JobRecord)
  /-- before `finish_job` with the status of the latest run -/
  | reconcile (now : Instant) (job : JobRecord) (current : JobRecord) (latest : RunRecord)
      (jobs : List JobRecord)
  /-- before the failure is recorded, in a running run or in a new one -/
  | fail (now : Instant) (job : JobRecord) (error : String) (current : JobRecord)
      (runningRun : Option RunRecord) (jobs : List JobRecord)
  deriving DecidableEq

/-- What a scheduler does next, with what the code does not decide itself. -/
inductive SchedulerAction where
  /-- call `run_once` -/
  | begin (now : Instant)
  /-- the next transaction, when all it needs is known -/
  | tick
  /-- save the job of the next due schedule under a new identifier -/
  | save (jobId : Id)
  /-- try to mark the next job running; the timestamp of its `job.running` event -/
  | mark (runningEventAt : Instant)
  /-- an exception is raised within the attempt -/
  | raise (error : String)
  /-- insert the running run under a new identifier -/
  | start (runId : Id)
  /-- the validation of the image rejects the attempt -/
  | reject (runId : Id) (validationError : String) (latestEventAt : Option Instant)
      (clock : Instant)
  /-- the runtime returns -/
  | finish (result : GoblinResult) (elapsed : ℤ) (latestEventAt : Option Instant)
      (clock : Instant)
  /-- record the failure, under a new identifier when no running run is there -/
  | fail (runId : Id) (runningEventAt latestEventAt : Option Instant) (clock : Instant)
  deriving DecidableEq

/-- The log of what transactions have done, which no step reads. -/
inductive Event where
  /-- `list_due_schedules` returned -/
  | listed (w : WorkerId) (due : List ScheduleRecord)
  /-- a job was saved for the occurrence of a schedule -/
  | materialized (w : WorkerId) (schedule : ScheduleRecord)
  /-- the policy set rejected the job of a schedule -/
  | rejected (w : WorkerId) (schedule : ScheduleRecord)
  /-- a schedule was advanced -/
  | advanced (w : WorkerId) (schedule : ScheduleRecord)
  /-- the claim returned -/
  | claimed (w : WorkerId) (jobs : List JobRecord)
  /-- a claimed job is among the jobs that `claim_due_jobs` returns -/
  | returned (w : WorkerId) (jobId : Id)
  /-- a claimed job was put back into the queue -/
  | deferred (w : WorkerId) (jobId : Id)
  /-- a runnable job was attempted -/
  | attempted (w : WorkerId) (jobId : Id)
  /-- `finalize_attempt` returned `finalized` -/
  | finalized (jobId : Id) (attempt : ℕ)
  /-- a patch request read its schedule -/
  | patchRead (request : Id) (scheduleId : Id)
  /-- a patch request wrote its schedule -/
  | patched (request : Id) (schedule : PatchedSchedule)
  deriving DecidableEq

/-! ### Materializing -/

/-- `GoblinRegistry.get`, as far as it raises. -/
def registryGet (kinds : List String) (kind : String) : Except String String :=
  if kind ∈ kinds then
    .ok kind
  else
    let available := String.intercalate ", " (kinds.insertionSort (fun a b => a ≤ b))
    .error ("unknown goblin kind " ++ quoted kind ++ "; available: "
      ++ (if available = "" then "<none>" else available))

/-- The job of a due schedule. -/
def scheduledJob (schedule : ScheduleRecord) (jobId : Id) (current : Instant) : JobRecord where
  id := jobId
  kind := schedule.kind
  createdAt := current
  projectId := schedule.projectId
  status := .queued
  priority := schedule.priority
  scheduleId := some schedule.id
  dueAt := some current
  maxRetries := schedule.maxRetries
  timeoutSeconds := schedule.timeoutSeconds

/-- The job with the policy that is resolved for it. -/
def JobRecord.withPolicy (effective : EffectivePolicy) (job : JobRecord) : JobRecord :=
  { job with
    resourcePolicy := some effective.compact
    timeoutSeconds := effective.policy.timeoutSeconds
    maxRetries := effective.policy.maxRetries.getD 0 }

/-- The job of a due schedule under the policies of the scheduler, or the error for which
the policies reject it. -/
def materializedJob (config : SchedulerConfig) (schedule : ScheduleRecord) (jobId : Id)
    (current : Instant) : Except String JobRecord :=
  let job := scheduledJob schedule jobId current
  match config.effectiveFor with
  | none => .ok job
  | some effectiveFor =>
      match effectiveFor schedule.kind schedule.timeoutSeconds schedule.maxRetries with
      | .error error => .error error
      | .ok effective => .ok (job.withPolicy effective)

/-- The body of the loop over the due schedules up to `save_job`. An identifier that is
taken is not drawn. -/
def materialize (config : SchedulerConfig) (w : WorkerId) (db : Db) (now : Instant)
    (schedule : ScheduleRecord) (schedules : List ScheduleRecord) (jobId : Id) :
    Option (Db × Phase × List Event) :=
  match registryGet config.kinds schedule.kind with
  | .error error => some (db, .idle (some error), [])
  | .ok _ =>
      match materializedJob config schedule jobId now with
      | .error _ => some (db, .due now schedules, [.rejected w schedule])
      | .ok job =>
          match saveJob db.jobs job with
          | none => none
          | some jobs => some ({ db with jobs := jobs }, .saved now schedule schedules,
              [.materialized w schedule])

/-- `next_run_after` and `update_schedule_after_materialize`. -/
def advance (env : Environment) (w : WorkerId) (db : Db) (now : Instant)
    (schedule : ScheduleRecord) (schedules : List ScheduleRecord) : Db × Phase × List Event :=
  match env.nextRunAfter schedule.cron schedule.timezone now with
  | .error error => (db, .idle (some error), [])
  | .ok nextRunAt =>
      ({ db with
          schedules := updateScheduleAfterMaterialize db.schedules schedule.id now nextRunAt },
        .due now schedules, [.advanced w schedule])

/-! ### Claiming -/

/-- The claim, in one transaction. -/
def claim (config : SchedulerConfig) (w : WorkerId) (db : Db) (now : Instant) :
    Db × Phase × List Event :=
  let (claimed, jobs) :=
    claimDueJobs db.jobs w now (now + seconds config.leaseSeconds) config.claimLimit
  ({ db with jobs := jobs }, .check now claimed [], [.claimed w claimed])

/-- The reason for which a job over the limit of its project is deferred. -/
def projectDeferral (activeCount : ℕ) (maxProjectRunning : ℕ+) : String :=
  "deferred by project concurrency policy: active=" ++ toString activeCount
    ++ " max_project_running=" ++ toString (maxProjectRunning : ℕ)

/-- The reason for which a job over the limit of its kind is deferred. -/
def kindDeferral (activeCount : ℕ) (maxRunning : ℕ+) : String :=
  "deferred by goblin concurrency policy: active=" ++ toString activeCount
    ++ " max_running=" ++ toString (maxRunning : ℕ)

/-- The limits in the policy of a job. -/
def concurrency (policy : Option ResourcePolicy) : ConcurrencyPolicy :=
  match policy with
  | none => {}
  | some policy => policy.concurrency

/-- The project limit is passed; go on to the limit of the kind, when there is one. -/
def passProject (w : WorkerId) (now : Instant) (job : JobRecord)
    (limits : ConcurrencyPolicy) (claimed runnable : List JobRecord) : Phase × List Event :=
  match limits.maxRunning with
  | none => (.check now claimed (runnable ++ [job]), [.returned w job.id])
  | some maxRunning => (.checkKind now job maxRunning claimed runnable, [])

/-- The body of the loop over the claimed jobs up to the first limit. -/
def checkProject (env : Environment) (w : WorkerId) (db : Db) (now : Instant)
    (job : JobRecord) (claimed runnable : List JobRecord) : Phase × List Event :=
  match policyFromJobMetadata env.modelValidate job.resourcePolicy with
  | .error error => (.idle (some error), [])
  | .ok policy =>
      match (concurrency policy).maxProjectRunning with
      | none => passProject w now job (concurrency policy) claimed runnable
      | some maxProjectRunning =>
          let activeCount := countActiveProjectJobs db.jobs job.projectId job.id
          if (maxProjectRunning : ℕ) ≤ activeCount then
            (.defer now job (projectDeferral activeCount maxProjectRunning) claimed runnable, [])
          else
            passProject w now job (concurrency policy) claimed runnable

/-- The check of the limit of the kind. -/
def checkKindLimit (w : WorkerId) (db : Db) (now : Instant) (job : JobRecord)
    (maxRunning : ℕ+) (claimed runnable : List JobRecord) : Phase × List Event :=
  let activeCount := countActiveJobs db.jobs job.kind job.id
  if (maxRunning : ℕ) ≤ activeCount then
    (.defer now job (kindDeferral activeCount maxRunning) claimed runnable, [])
  else
    (.check now claimed (runnable ++ [job]), [.returned w job.id])

/-- Enter the leases of the runnable jobs. A lease of no length is refused. -/
def enterLeases (config : SchedulerConfig) (now : Instant) (runnable : List JobRecord) : Phase :=
  if runnable ≠ [] ∧ config.leaseSeconds ≤ 0 then
    .idle (some "lease_seconds must be greater than zero")
  else
    .attempt now runnable

/-! ### Attempts -/

/-- `try_mark_job_running` on the next job; a job that was lost is skipped. -/
def markNext (w : WorkerId) (db : Db) (now : Instant) (job : JobRecord)
    (jobs : List JobRecord) (runningEventAt : Instant) : Db × Phase × List Event :=
  let (marked, jobsTable) := tryMarkJobRunning db.jobs job.id job.nextAttempt w
  ({ db with jobs := jobsTable },
    if marked then
      .marked now job (attemptStartedAt now runningEventAt) jobs
    else
      .attempt now jobs,
    [.attempted w job.id])

/-- `start_run`; an error is raised within the attempt. An identifier that is taken is not
drawn. -/
def startAttempt (db : Db) (now : Instant) (job : JobRecord) (startedAt : Instant)
    (jobs : List JobRecord) (runId : Id) : Option (Db × Phase × List Event) :=
  if (db.runs.find? runId).isSome then
    none
  else
    match startRun db.runs (runningRun job runId startedAt) with
    | .error error => some (db, .recover now job error jobs, [])
    | .ok runs => some ({ db with runs := runs }, .started now job startedAt runId jobs, [])

/-- The event of a finalization, when the attempt still owned its job. -/
def finalizationEvents (run : RunRecord) (outcome : AttemptOutcome) : List Event :=
  match outcome with
  | .finalized => [.finalized run.jobId run.attempt]
  | .cancelled | .stale => []

/-- `finalize_job_attempt` within an attempt; an error is raised within the attempt, and
nothing is changed. -/
def finalizeWithin (w : WorkerId) (db : Db) (now : Instant) (job : JobRecord)
    (jobs : List JobRecord) (run : RunRecord) (status : JobStatus) (lastError : Option String)
    (dueAt : Option Instant) (after : AttemptOutcome → Phase) : Db × Phase × List Event :=
  match finalizeAttempt db.jobs db.runs run status lastError dueAt w with
  | .error error => (db, .recover now job error jobs, [])
  | .ok (finalization, jobsTable, runs) =>
      ({ db with jobs := jobsTable, runs := runs }, after finalization.outcome,
        finalizationEvents run finalization.outcome)

/-- Reject the attempt: the run is inserted as failed, and the job fails with it. -/
def rejectAttempt (w : WorkerId) (db : Db) (now : Instant) (job : JobRecord)
    (startedAt : Instant) (jobs : List JobRecord) (runId : Id) (validationError : String)
    (latestEventAt : Option Instant) (clock : Instant) : Option (Db × Phase × List Event) :=
  if (db.runs.find? runId).isSome then
    none
  else
    let finishedAt := finishAttemptTimestamp startedAt latestEventAt clock
    some (finalizeWithin w db now job jobs
      (rejectedRun job runId startedAt finishedAt validationError) .failed (some validationError)
      none (fun _ => .finalized now job jobs))

/-- Finish the attempt with the result of the runtime. Nothing is emitted for an attempt
that no longer owned its job. -/
def finishAttempt (w : WorkerId) (db : Db) (now : Instant) (job : JobRecord)
    (startedAt : Instant) (runId : Id) (jobs : List JobRecord) (result : GoblinResult)
    (elapsed : ℤ) (latestEventAt : Option Instant) (clock : Instant) : Db × Phase × List Event :=
  let finishedAt := finishAttemptTimestamp startedAt latestEventAt clock
  let run := finishedRun job runId startedAt finishedAt result elapsed
  finalizeWithin w db now job jobs run (finishedJobStatus job run.status) run.error
    (if retrying job run.status then some now else none)
    (fun outcome => match outcome with
      | .finalized => .finalized now job jobs
      | .cancelled | .stale => .attempt now jobs)

/-! ### Recovery -/

/-- `get_job` of the recovery. -/
def recoverJob (db : Db) (now : Instant) (job : JobRecord) (error : String)
    (jobs : List JobRecord) : Phase :=
  match getJob db.jobs job.id with
  | none => .idle (some ("cannot recover scheduler failure because job " ++ quoted job.id
      ++ " disappeared"))
  | some current => .inspect now job error current jobs

/-- `list_job_runs` of the recovery, and its decision. The policy of the job is read again
before a failure is recorded. -/
def inspectRuns (env : Environment) (db : Db) (now : Instant) (job : JobRecord)
    (error : String) (current : JobRecord) (jobs : List JobRecord) : Phase :=
  match reconciliation current (listJobRuns db.runs current.id) with
  | .settled _ => .attempt now jobs
  | .finish latest => .reconcile now job current latest jobs
  | .fail runningRun =>
      match policyFromJobMetadata env.modelValidate current.resourcePolicy with
      | .error error => .idle (some error)
      | .ok _ => .fail now job error current runningRun jobs

/-- `finish_job` of the recovery. -/
def reconcileJob (db : Db) (now : Instant) (current : JobRecord) (latest : RunRecord)
    (jobs : List JobRecord) : Db × Phase × List Event :=
  ({ db with
      jobs := finishJob db.jobs current.id latest.status.toJobStatus latest.error none },
    .attempt now jobs, [])

/-- `finalize_job_attempt` of the recovery. Here an error ends the pass. -/
def failAttempt (w : WorkerId) (db : Db) (now : Instant) (job : JobRecord) (error : String)
    (current : JobRecord) (runningRun : Option RunRecord) (jobs : List JobRecord) (runId : Id)
    (runningEventAt latestEventAt : Option Instant) (clock : Instant) :
    Option (Db × Phase × List Event) :=
  if (db.runs.find? runId).isSome then
    none
  else
    let startedAt := failureStartedAt current runningRun runningEventAt now
    let finishedAt := finishAttemptTimestamp startedAt latestEventAt clock
    let run := failedRun current job runningRun runId startedAt finishedAt error
    match finalizeAttempt db.jobs db.runs run .failed run.error none w with
    | .error error => some (db, .idle (some error), [])
    | .ok (finalization, jobsTable, runs) =>
        some ({ db with jobs := jobsTable, runs := runs }, .attempt now jobs,
          finalizationEvents run finalization.outcome)

/-! ### The steps of a pass -/

/-- Call `run_once`: the first transaction lists the due schedules. -/
def beginPass (w : WorkerId) (db : Db) (now : Instant) : Phase × List Event :=
  match listDueSchedules db.schedules now with
  | .error error => (.idle (some error), [])
  | .ok due => (.due now due, [.listed w due])

/-- One step of a scheduler. -/
def schedulerStep (env : Environment) (config : SchedulerConfig) (w : WorkerId) (db : Db)
    (phase : Phase) (action : SchedulerAction) : Option (Db × Phase × List Event) :=
  match phase with
  | .idle _ =>
      match action with
      | .begin now => some (db, beginPass w db now)
      | _ => none
  | .due now [] =>
      match action with
      | .tick => some (claim config w db now)
      | _ => none
  | .due now (schedule :: schedules) =>
      match action with
      | .save jobId => materialize config w db now schedule schedules jobId
      | _ => none
  | .saved now schedule schedules =>
      match action with
      | .tick => some (advance env w db now schedule schedules)
      | _ => none
  | .check now [] runnable =>
      match action with
      | .tick => some (db, enterLeases config now runnable, [])
      | _ => none
  | .check now (job :: claimed) runnable =>
      match action with
      | .tick => some (db, checkProject env w db now job claimed runnable)
      | _ => none
  | .checkKind now job maxRunning claimed runnable =>
      match action with
      | .tick => some (db, checkKindLimit w db now job maxRunning claimed runnable)
      | _ => none
  | .defer now job message claimed runnable =>
      match action with
      | .tick =>
          some ({ db with jobs := finishJob db.jobs job.id .queued (some message) (some now) },
            .check now claimed runnable, [.deferred w job.id])
      | _ => none
  | .attempt _ [] =>
      match action with
      | .tick => some (db, .idle none, [])
      | _ => none
  | .attempt now (job :: jobs) =>
      match action with
      | .mark runningEventAt => some (markNext w db now job jobs runningEventAt)
      | _ => none
  | .marked now job startedAt jobs =>
      match action with
      | .raise error => some (db, .recover now job error jobs, [])
      | .start runId => startAttempt db now job startedAt jobs runId
      | .reject runId validationError latestEventAt clock =>
          rejectAttempt w db now job startedAt jobs runId validationError latestEventAt clock
      | _ => none
  | .started now job startedAt runId jobs =>
      match action with
      | .raise error => some (db, .recover now job error jobs, [])
      | .finish result elapsed latestEventAt clock =>
          some (finishAttempt w db now job startedAt runId jobs result elapsed latestEventAt clock)
      | _ => none
  | .finalized now job jobs =>
      match action with
      | .raise error => some (db, .recover now job error jobs, [])
      | .tick => some (db, .attempt now jobs, [])
      | _ => none
  | .recover now job error jobs =>
      match action with
      | .tick => some (db, recoverJob db now job error jobs, [])
      | _ => none
  | .inspect now job error current jobs =>
      match action with
      | .tick => some (db, inspectRuns env db now job error current jobs, [])
      | _ => none
  | .reconcile now _ current latest jobs =>
      match action with
      | .tick => some (reconcileJob db now current latest jobs)
      | _ => none
  | .fail now job error current runningRun jobs =>
      match action with
      | .fail runId runningEventAt latestEventAt clock =>
          failAttempt w db now job error current runningRun jobs runId runningEventAt
            latestEventAt clock
      | _ => none

end GoblinKing
