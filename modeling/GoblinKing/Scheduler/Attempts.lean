import GoblinKing.Scheduler.Pass
import GoblinKing.Store.Events

/-!
# One attempt on the event log

The attempt of one job from its claim to its last event, with every access to the event log a
step of its own: the events that the scheduler emits, and the reads of the newest events from
which it derives the start and the finish of the run. Clocks show any time at every reading.

Other parties persist events and change the database between any two steps. The runs of the
job are left to the attempt, and between the reading of the newest event of the job and the
finalization only events of other jobs are persisted.
-/

namespace GoblinKing

/-- How an attempt ends that does not raise. -/
inductive Ending where
  /-- the validation of the image rejects it -/
  | rejected (runId : Id) (validationError : String)
  /-- the runtime returns -/
  | returned (runId : Id) (result : GoblinResult) (elapsed : ℤ)
  deriving DecidableEq, Repr

/-- The run of an ending. -/
def Ending.run (job : JobRecord) (startedAt finishedAt : Instant) : Ending → RunRecord
  | .rejected runId validationError => rejectedRun job runId startedAt finishedAt validationError
  | .returned runId result elapsed => finishedRun job runId startedAt finishedAt result elapsed

/-- The status that an ending gives the job. -/
def Ending.jobStatus (job : JobRecord) : Ending → JobStatus
  | .rejected _ _ => .failed
  | .returned _ result elapsed =>
      finishedJobStatus job (statusForResult result elapsed job.timeoutSeconds)

/-- When the job is due again after an ending. -/
def Ending.dueAt (job : JobRecord) (requestedStart : Instant) : Ending → Option Instant
  | .rejected _ _ => none
  | .returned _ result elapsed =>
      if retrying job (statusForResult result elapsed job.timeoutSeconds) then
        some requestedStart
      else
        none

/-- The event of an ending. -/
def Ending.eventType (job : JobRecord) : Ending → String
  | .rejected _ _ => "validation.scheduling_rejected"
  | .returned _ result elapsed =>
      let status := statusForResult result elapsed job.timeoutSeconds
      if retrying job status then "job.retrying" else "job." ++ status.text

/-- Where an attempt stands. -/
inductive AttemptPhase where
  /-- the claim is committed, `job.leased` is to be emitted -/
  | claimed
  /-- before `try_mark_job_running` -/
  | leased
  /-- the job is marked, `job.running` is to be emitted -/
  | marking
  /-- before `start_run`, or the rejection by the validation -/
  | validating (startedAt : Instant)
  /-- the run is inserted, the runtime executes -/
  | executing (startedAt : Instant) (runId : Id)
  /-- before `_finish_attempt_timestamp` -/
  | stamping (startedAt : Instant) (ending : Ending)
  /-- before `finalize_job_attempt` -/
  | finalizing (ending : Ending) (run : RunRecord)
  /-- the event of the ending is to be emitted -/
  | finalized (ending : Ending) (run : RunRecord)
  /-- nothing is left but to return -/
  | ended
  /-- the attempt raised: before `get_job` -/
  | recover (error : String)
  /-- before `list_job_runs` -/
  | inspect (error : String) (current : JobRecord)
  /-- before `finish_job` with the status of the latest run -/
  | reconcile (current : JobRecord) (latest : RunRecord)
  /-- before the newest `job.running` event is read -/
  | failing (error : String) (current : JobRecord) (runningRun : Option RunRecord)
  /-- before the newest event of the job is read -/
  | failStamping (error : String) (current : JobRecord) (runningRun : Option RunRecord)
      (startedAt : Instant)
  /-- before `finalize_job_attempt` of the recovery -/
  | failFinalizing (run : RunRecord)
  /-- `job.failed` is to be emitted -/
  | failed (run : RunRecord)
  /-- the attempt is over; the exception with which it has ended the pass, if it did -/
  | done (exception : Option String)
  deriving DecidableEq

/-- What an attempt leaves behind, newest first: which no step reads. -/
inductive Evidence where
  /-- `job.leased` was persisted -/
  | leased (event : EventRecord)
  /-- `job.running` was persisted -/
  | running (event : EventRecord)
  /-- the running run was inserted -/
  | started (run : RunRecord)
  /-- the run was finalized; the events of the job that were persisted before -/
  | finalized (run : RunRecord) (before : List EventRecord)
  /-- the event of a finalized run was persisted -/
  | ended (run : RunRecord) (event : EventRecord)
  deriving DecidableEq

/-- An attempt with the event log and the database. -/
structure Attempt where
  log : EventDb
  db : Db
  phase : AttemptPhase
  evidence : List Evidence

/-- An attempt right after the claim of its job. -/
def Attempt.start (log : EventDb) (db : Db) : Attempt where
  log := log
  db := db
  phase := .claimed
  evidence := []

/-- What happens next, with what the code does not decide itself. -/
inductive AttemptAction where
  /-- an event is persisted by somebody else, or by the runtime -/
  | persist (event : EventRecord)
  /-- others change the database -/
  | change (db : Db)
  /-- emit the next event under a new identifier, at a time of the clock -/
  | emit (eventId : Id) (clock : Instant)
  /-- the next transaction on the database -/
  | tick
  /-- insert the running run under a new identifier -/
  | start (runId : Id)
  /-- the validation rejects the attempt, or the runtime returns -/
  | finish (ending : Ending)
  /-- read the newest events, and the clock; a new identifier for the run of a failure -/
  | stamp (runId : Id) (clock : Instant)
  /-- an exception is raised -/
  | raise (error : String)
  deriving DecidableEq

section

variable (env : Environment) (w : WorkerId) (job : JobRecord) (requestedStart : Instant)

/-- An event of the job. -/
def jobEvent (eventId : Id) (eventType : String) (runId : Option Id) : EventRecord where
  id := eventId
  createdAt := 0
  eventType := eventType
  projectId := job.projectId
  jobId := some job.id
  runId := runId

/-- Whether an event is one of the job. -/
def ofJob (event : EventRecord) : Bool :=
  decide (event.jobId = some job.id)

/-- The finish of the run is decided, and the run not finalized yet. -/
def AttemptPhase.stamped : AttemptPhase → Bool
  | .finalizing _ _ | .failFinalizing _ => true
  | _ => false

/-- An event is persisted outside the steps of the scheduler. -/
def Attempt.persist (s : Attempt) (event : EventRecord) : Option Attempt :=
  if s.phase.stamped && ofJob job event then
    none
  else
    match persistEvent s.log event with
    | .ok (log, _) => some { s with log := log }
    | .error _ => some s

/-- Others change the database, without touching the runs of the job. -/
def Attempt.change (s : Attempt) (db : Db) : Option Attempt :=
  if db.runs.select (fun run => decide (run.jobId = job.id))
      = s.db.runs.select (fun run => decide (run.jobId = job.id)) then
    some { s with db := db }
  else
    none

/-- Emit `job.leased`. An error is raised out of `claim_due_jobs`. -/
def Attempt.emitLeased (s : Attempt) (eventId : Id) (clock : Instant) : Attempt :=
  match emit s.log (jobEvent job eventId "job.leased" none) (some job.createdAt) clock with
  | .error error => { s with phase := .done (some error) }
  | .ok (log, event) =>
      { s with log := log, phase := .leased, evidence := .leased event :: s.evidence }

/-- `try_mark_job_running`; a job that was lost is skipped. -/
def Attempt.mark (s : Attempt) : Attempt :=
  let (marked, jobs) := tryMarkJobRunning s.db.jobs job.id job.nextAttempt w
  { s with
    db := { s.db with jobs := jobs }
    phase := if marked then .marking else .done none }

/-- Emit `job.running`, and start the attempt after it. -/
def Attempt.emitRunning (s : Attempt) (eventId : Id) (clock : Instant) : Attempt :=
  match emit s.log (jobEvent job eventId "job.running" none) (some job.createdAt) clock with
  | .error error => { s with phase := .recover error }
  | .ok (log, event) =>
      { s with
        log := log
        phase := .validating (attemptStartedAt requestedStart event.createdAt)
        evidence := .running event :: s.evidence }

/-- `start_run`. -/
def Attempt.startRun (s : Attempt) (startedAt : Instant) (runId : Id) : Attempt :=
  match GoblinKing.startRun s.db.runs (runningRun job runId startedAt) with
  | .error error => { s with phase := .recover error }
  | .ok runs =>
      { s with
        db := { s.db with runs := runs }
        phase := .executing startedAt runId
        evidence := .started (runningRun job runId startedAt) :: s.evidence }

/-- `_finish_attempt_timestamp`, and the run that is built with it. -/
def Attempt.stamp (s : Attempt) (startedAt : Instant) (ending : Ending) (clock : Instant) :
    Attempt :=
  let finishedAt :=
    finishAttemptTimestamp startedAt (latestEventCreatedAt s.log (ofJob job)) clock
  { s with phase := .finalizing ending (ending.run job startedAt finishedAt) }

/-- `finalize_job_attempt`. -/
def Attempt.finalizeWith (s : Attempt) (run : RunRecord) (status : JobStatus)
    (dueAt : Option Instant) (raised : String → AttemptPhase)
    (returned : AttemptOutcome → AttemptPhase) : Attempt :=
  match finalizeAttempt s.db.jobs s.db.runs run status run.error dueAt w with
  | .error error => { s with phase := raised error }
  | .ok (finalization, jobs, runs) =>
      { s with
        db := { s.db with jobs := jobs, runs := runs }
        phase := returned finalization.outcome
        evidence := .finalized finalization.run (s.log.events.table.rows.filter (ofJob job))
          :: s.evidence }

/-- Finalize the attempt. Nothing is emitted for one that no longer owned its job. -/
def Attempt.finalize (s : Attempt) (ending : Ending) (run : RunRecord) : Attempt :=
  s.finalizeWith w job run (ending.jobStatus job) (ending.dueAt job requestedStart) .recover
    (fun outcome => match outcome with
      | .finalized => .finalized ending run
      | .cancelled | .stale => .ended)

/-- Emit an event of a run that has been finalized. -/
def Attempt.emitEnd (s : Attempt) (run : RunRecord) (eventType : String) (eventId : Id)
    (clock : Instant) (raised : String → AttemptPhase) (emitted : AttemptPhase) : Attempt :=
  match emit s.log (jobEvent job eventId eventType (some run.id)) run.finishedAt clock with
  | .error error => { s with phase := raised error }
  | .ok (log, event) =>
      { s with log := log, phase := emitted, evidence := .ended run event :: s.evidence }

/-- `get_job` of the recovery. -/
def Attempt.getJob (s : Attempt) (error : String) : Attempt :=
  match GoblinKing.getJob s.db.jobs job.id with
  | none =>
      let exception := "cannot recover scheduler failure because job " ++ quoted job.id
        ++ " disappeared"
      { s with phase := .done (some exception) }
  | some current => { s with phase := .inspect error current }

/-- `list_job_runs` of the recovery, and its decision. -/
def Attempt.inspect (s : Attempt) (error : String) (current : JobRecord) : Attempt :=
  match reconciliation current (listJobRuns s.db.runs current.id) with
  | .settled _ => { s with phase := .done none }
  | .finish latest => { s with phase := .reconcile current latest }
  | .fail runningRun =>
      match policyFromJobMetadata env.modelValidate current.resourcePolicy with
      | .error error => { s with phase := .done (some error) }
      | .ok _ => { s with phase := .failing error current runningRun }

/-- `finish_job` of the recovery. -/
def Attempt.reconcile (s : Attempt) (current : JobRecord) (latest : RunRecord) : Attempt :=
  { s with
    db := { s.db with
      jobs := finishJob s.db.jobs current.id latest.status.toJobStatus latest.error none }
    phase := .done none }

/-- The start of the attempt that failed. -/
def Attempt.failStart (s : Attempt) (error : String) (current : JobRecord)
    (runningRun : Option RunRecord) : Attempt :=
  let runningEventAt := latestEventCreatedAt s.log
    (fun event => ofJob current event && decide (event.eventType = "job.running"))
  let startedAt := failureStartedAt current runningRun runningEventAt requestedStart
  { s with phase := .failStamping error current runningRun startedAt }

/-- The finish of the attempt that failed, and its run. -/
def Attempt.failStamp (s : Attempt) (error : String) (current : JobRecord)
    (runningRun : Option RunRecord) (startedAt : Instant) (runId : Id) (clock : Instant) :
    Attempt :=
  let finishedAt :=
    finishAttemptTimestamp startedAt (latestEventCreatedAt s.log (ofJob current)) clock
  let run := failedRun current job runningRun runId startedAt finishedAt error
  { s with phase := .failFinalizing run }

/-- Record the failure. Here an error ends the pass. -/
def Attempt.failFinalize (s : Attempt) (run : RunRecord) : Attempt :=
  s.finalizeWith w job run .failed none (fun error => .done (some error))
    (fun outcome => match outcome with
      | .finalized => .failed run
      | .cancelled | .stale => .done none)

/-- An exception is raised: within the attempt it leads to the recovery, and before and
after the attempt it ends the pass. -/
def AttemptPhase.raise (error : String) : AttemptPhase → Option AttemptPhase
  | .leased | .marking | .validating _ | .executing _ _ | .stamping _ _ | .finalizing _ _
  | .finalized _ _ | .ended => some (.recover error)
  | .claimed | .recover _ | .inspect _ _ | .reconcile _ _ | .failing _ _ _
  | .failStamping _ _ _ _ | .failFinalizing _ | .failed _ => some (.done (some error))
  | .done _ => none

/-- The next event of an attempt. -/
def Attempt.emitNext (s : Attempt) (eventId : Id) (clock : Instant) : Option Attempt :=
  match s.phase with
  | .claimed => some (s.emitLeased job eventId clock)
  | .marking => some (s.emitRunning job requestedStart eventId clock)
  | .finalized ending run =>
      some (s.emitEnd job run (ending.eventType job) eventId clock .recover .ended)
  | .failed run =>
      some (s.emitEnd job run "job.failed" eventId clock (fun error => .done (some error))
        (.done none))
  | _ => none

/-- The next transaction of an attempt on the database. -/
def Attempt.tick (s : Attempt) : Option Attempt :=
  match s.phase with
  | .leased => some (s.mark w job)
  | .finalizing ending run => some (s.finalize w job requestedStart ending run)
  | .ended => some { s with phase := .done none }
  | .recover error => some (s.getJob job error)
  | .inspect error current => some (s.inspect env error current)
  | .reconcile current latest => some (s.reconcile current latest)
  | .failing error current runningRun =>
      some (s.failStart requestedStart error current runningRun)
  | .failFinalizing run => some (s.failFinalize w job run)
  | _ => none

/-- The next reading of the clock after the newest event of the job. -/
def Attempt.stampNext (s : Attempt) (runId : Id) (clock : Instant) : Option Attempt :=
  match s.phase with
  | .stamping startedAt ending => some (s.stamp job startedAt ending clock)
  | .failStamping error current runningRun startedAt =>
      some (s.failStamp job error current runningRun startedAt runId clock)
  | _ => none

/-- The validation rejects the attempt before its run is inserted, and the runtime returns
after that, for the run that was inserted. -/
def Attempt.finish (s : Attempt) (ending : Ending) : Option Attempt :=
  match s.phase, ending with
  | .validating startedAt, .rejected _ _ => some { s with phase := .stamping startedAt ending }
  | .executing startedAt runId, .returned runId' _ _ =>
      if runId' = runId then
        some { s with phase := .stamping startedAt ending }
      else
        none
  | _, _ => none

/-- One step of an attempt, or of its surroundings. -/
def attemptStep (s : Attempt) : AttemptAction → Option Attempt
  | .persist event => s.persist job event
  | .change db => s.change job db
  | .emit eventId clock => s.emitNext job requestedStart eventId clock
  | .tick => s.tick env w job requestedStart
  | .start runId =>
      match s.phase with
      | .validating startedAt => some (s.startRun job startedAt runId)
      | _ => none
  | .finish ending => s.finish ending
  | .stamp runId clock => s.stampNext job runId clock
  | .raise error => (s.phase.raise error).map (fun phase => { s with phase := phase })

end

end GoblinKing
