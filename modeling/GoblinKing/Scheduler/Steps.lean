import GoblinKing.Scheduler.Pass

/-!
# What a step of a scheduler does

Every step of a scheduler, with the tables, the phase and the log after it and the
conditions under which it is taken. The invariants of the development are proved by cases
on this relation and do not look into the functions of the pass.
-/

namespace GoblinKing

/-- The project of a job has room for it, or has no limit. -/
def WithinProject (db : Db) (job : JobRecord) (limits : ConcurrencyPolicy) : Prop :=
  ∀ maxProjectRunning, limits.maxProjectRunning = some maxProjectRunning →
    countActiveProjectJobs db.jobs job.projectId job.id < maxProjectRunning

/-- The steps of a scheduler. -/
inductive WorkerStep (env : Environment) (config : SchedulerConfig) (w : WorkerId) (db : Db) :
    Phase → Db → Phase → List Event → Prop where
  | begin {exception : Option String} {now : Instant} {due : List ScheduleRecord}
      (hdue : listDueSchedules db.schedules now = .ok due) :
      WorkerStep env config w db (.idle exception) db (.due now due) [.listed w due]
  | beginRaised {exception : Option String} {now : Instant} {error : String}
      (hdue : listDueSchedules db.schedules now = .error error) :
      WorkerStep env config w db (.idle exception) db (.idle (some error)) []
  | materialize {now : Instant} {schedule : ScheduleRecord} {schedules : List ScheduleRecord}
      {jobId : Id} {job : JobRecord} {jobs : Jobs} (hkind : schedule.kind ∈ config.kinds)
      (hjob : materializedJob config schedule jobId now = .ok job)
      (hsave : saveJob db.jobs job = some jobs) :
      WorkerStep env config w db (.due now (schedule :: schedules)) { db with jobs := jobs }
        (.saved now schedule schedules) [.materialized w schedule]
  | rejected {now : Instant} {schedule : ScheduleRecord} {schedules : List ScheduleRecord}
      {jobId : Id} {error : String} (hkind : schedule.kind ∈ config.kinds)
      (hjob : materializedJob config schedule jobId now = .error error) :
      WorkerStep env config w db (.due now (schedule :: schedules)) db
        (.due now schedules) [.rejected w schedule]
  | unregistered {now : Instant} {schedule : ScheduleRecord} {schedules : List ScheduleRecord}
      {error : String} (hkind : schedule.kind ∉ config.kinds) :
      WorkerStep env config w db (.due now (schedule :: schedules)) db (.idle (some error)) []
  | advance {now nextRunAt : Instant} {schedule : ScheduleRecord}
      {schedules : List ScheduleRecord}
      (hnext : env.nextRunAfter schedule.cron schedule.timezone now = .ok nextRunAt) :
      WorkerStep env config w db (.saved now schedule schedules)
        { db with
          schedules := updateScheduleAfterMaterialize db.schedules schedule.id now nextRunAt }
        (.due now schedules) [.advanced w schedule]
  | advanceRaised {now : Instant} {schedule : ScheduleRecord}
      {schedules : List ScheduleRecord} {error : String}
      (hnext : env.nextRunAfter schedule.cron schedule.timezone now = .error error) :
      WorkerStep env config w db (.saved now schedule schedules) db (.idle (some error)) []
  | claim {now : Instant} {claimed : List JobRecord} {jobs : Jobs}
      (hclaim : claimDueJobs db.jobs w now (now + seconds config.leaseSeconds)
        config.claimLimit = (claimed, jobs)) :
      WorkerStep env config w db (.due now []) { db with jobs := jobs }
        (.check now claimed []) [.claimed w claimed]
  | badPolicy {now : Instant} {job : JobRecord} {claimed runnable : List JobRecord}
      {error : String}
      (hpolicy : policyFromJobMetadata env.modelValidate job.resourcePolicy = .error error) :
      WorkerStep env config w db (.check now (job :: claimed) runnable) db (.idle (some error)) []
  | overProject {now : Instant} {job : JobRecord} {claimed runnable : List JobRecord}
      {policy : Option ResourcePolicy} {maxProjectRunning : ℕ+} {message : String}
      (hpolicy : policyFromJobMetadata env.modelValidate job.resourcePolicy = .ok policy)
      (hlimit : (concurrency policy).maxProjectRunning = some maxProjectRunning)
      (hcount : (maxProjectRunning : ℕ) ≤ countActiveProjectJobs db.jobs job.projectId job.id) :
      WorkerStep env config w db (.check now (job :: claimed) runnable) db
        (.defer now job message claimed runnable) []
  | withinProject {now : Instant} {job : JobRecord} {claimed runnable : List JobRecord}
      {policy : Option ResourcePolicy} {maxRunning : ℕ+}
      (hpolicy : policyFromJobMetadata env.modelValidate job.resourcePolicy = .ok policy)
      (hproject : WithinProject db job (concurrency policy))
      (hlimit : (concurrency policy).maxRunning = some maxRunning) :
      WorkerStep env config w db (.check now (job :: claimed) runnable) db
        (.checkKind now job maxRunning claimed runnable) []
  | returnJob {now : Instant} {job : JobRecord} {claimed runnable : List JobRecord}
      {policy : Option ResourcePolicy}
      (hpolicy : policyFromJobMetadata env.modelValidate job.resourcePolicy = .ok policy)
      (hproject : WithinProject db job (concurrency policy))
      (hlimit : (concurrency policy).maxRunning = none) :
      WorkerStep env config w db (.check now (job :: claimed) runnable) db
        (.check now claimed (runnable ++ [job])) [.returned w job.id]
  | overKind {now : Instant} {job : JobRecord} {maxRunning : ℕ+}
      {claimed runnable : List JobRecord} {message : String}
      (hcount : (maxRunning : ℕ) ≤ countActiveJobs db.jobs job.kind job.id) :
      WorkerStep env config w db (.checkKind now job maxRunning claimed runnable) db
        (.defer now job message claimed runnable) []
  | returnWithinKind {now : Instant} {job : JobRecord} {maxRunning : ℕ+}
      {claimed runnable : List JobRecord}
      (hcount : countActiveJobs db.jobs job.kind job.id < maxRunning) :
      WorkerStep env config w db (.checkKind now job maxRunning claimed runnable) db
        (.check now claimed (runnable ++ [job])) [.returned w job.id]
  | defer {now : Instant} {job : JobRecord} {message : String}
      {claimed runnable : List JobRecord} :
      WorkerStep env config w db (.defer now job message claimed runnable)
        { db with jobs := finishJob db.jobs job.id .queued (some message) (some now) }
        (.check now claimed runnable) [.deferred w job.id]
  | enterLeases {now : Instant} {runnable : List JobRecord}
      (hlease : runnable ≠ [] → 0 < config.leaseSeconds) :
      WorkerStep env config w db (.check now [] runnable) db (.attempt now runnable) []
  | noLease {now : Instant} {runnable : List JobRecord} {error : String}
      (hrunnable : runnable ≠ []) (hlease : config.leaseSeconds ≤ 0) :
      WorkerStep env config w db (.check now [] runnable) db (.idle (some error)) []
  | finishPass {now : Instant} :
      WorkerStep env config w db (.attempt now []) db (.idle none) []
  | mark {now startedAt : Instant} {job : JobRecord} {jobs : List JobRecord} {jobsTable : Jobs}
      (hmark : tryMarkJobRunning db.jobs job.id job.nextAttempt w = (true, jobsTable)) :
      WorkerStep env config w db (.attempt now (job :: jobs)) { db with jobs := jobsTable }
        (.marked now job startedAt jobs) [.attempted w job.id]
  | superseded {now : Instant} {job : JobRecord} {jobs : List JobRecord} {jobsTable : Jobs}
      (hmark : tryMarkJobRunning db.jobs job.id job.nextAttempt w = (false, jobsTable)) :
      WorkerStep env config w db (.attempt now (job :: jobs)) { db with jobs := jobsTable }
        (.attempt now jobs) [.attempted w job.id]
  | start {now startedAt : Instant} {job : JobRecord} {jobs : List JobRecord} {runId : Id}
      {runs : Runs} (hrun : db.runs.insert? (runningRun job runId startedAt) = some runs) :
      WorkerStep env config w db (.marked now job startedAt jobs) { db with runs := runs }
        (.started now job startedAt runId jobs) []
  | reject {now startedAt finishedAt : Instant} {job : JobRecord} {jobs : List JobRecord}
      {runId : Id} {validationError : String} {finalization : AttemptFinalization}
      {jobsTable : Jobs} {runs : Runs} (hid : db.runs.find? runId = none)
      (hfinalize : finalizeAttempt db.jobs db.runs
        (rejectedRun job runId startedAt finishedAt validationError) .failed
        (some validationError) none w = .ok (finalization, jobsTable, runs)) :
      WorkerStep env config w db (.marked now job startedAt jobs)
        { db with jobs := jobsTable, runs := runs } (.finalized now job jobs)
        (finalizationEvents (rejectedRun job runId startedAt finishedAt validationError)
          finalization.outcome)
  | rejectRaised {now startedAt finishedAt : Instant} {job : JobRecord} {jobs : List JobRecord}
      {runId : Id} {validationError error : String} (hid : db.runs.find? runId = none)
      (hfinalize : finalizeAttempt db.jobs db.runs
        (rejectedRun job runId startedAt finishedAt validationError) .failed
        (some validationError) none w = .error error) :
      WorkerStep env config w db (.marked now job startedAt jobs) db
        (.recover now job error jobs) []
  | finish {now startedAt finishedAt : Instant} {job : JobRecord} {jobs : List JobRecord}
      {runId : Id} {result : GoblinResult} {elapsed : ℤ} {lastError : Option String}
      {dueAt : Option Instant} {run : RunRecord} {finalization : AttemptFinalization}
      {jobsTable : Jobs} {runs : Runs}
      (hrun : run = finishedRun job runId startedAt finishedAt result elapsed)
      (hfinalize : finalizeAttempt db.jobs db.runs run (finishedJobStatus job run.status)
        lastError dueAt w = .ok (finalization, jobsTable, runs))
      (houtcome : finalization.outcome = .finalized) :
      WorkerStep env config w db (.started now job startedAt runId jobs)
        { db with jobs := jobsTable, runs := runs } (.finalized now job jobs)
        [.finalized run.jobId run.attempt]
  | finishLost {now startedAt finishedAt : Instant} {job : JobRecord} {jobs : List JobRecord}
      {runId : Id} {result : GoblinResult} {elapsed : ℤ} {lastError : Option String}
      {dueAt : Option Instant} {run : RunRecord} {finalization : AttemptFinalization}
      {jobsTable : Jobs} {runs : Runs}
      (hrun : run = finishedRun job runId startedAt finishedAt result elapsed)
      (hfinalize : finalizeAttempt db.jobs db.runs run (finishedJobStatus job run.status)
        lastError dueAt w = .ok (finalization, jobsTable, runs))
      (houtcome : finalization.outcome ≠ .finalized) :
      WorkerStep env config w db (.started now job startedAt runId jobs)
        { db with jobs := jobsTable, runs := runs } (.attempt now jobs) []
  | finishRaised {now startedAt finishedAt : Instant} {job : JobRecord} {jobs : List JobRecord}
      {runId : Id} {result : GoblinResult} {elapsed : ℤ} {lastError : Option String}
      {dueAt : Option Instant} {run : RunRecord} {error : String}
      (hrun : run = finishedRun job runId startedAt finishedAt result elapsed)
      (hfinalize : finalizeAttempt db.jobs db.runs run (finishedJobStatus job run.status)
        lastError dueAt w = .error error) :
      WorkerStep env config w db (.started now job startedAt runId jobs) db
        (.recover now job error jobs) []
  | raiseMarked {now startedAt : Instant} {job : JobRecord} {jobs : List JobRecord}
      {error : String} :
      WorkerStep env config w db (.marked now job startedAt jobs) db
        (.recover now job error jobs) []
  | raiseStarted {now startedAt : Instant} {job : JobRecord} {runId : Id}
      {jobs : List JobRecord} {error : String} :
      WorkerStep env config w db (.started now job startedAt runId jobs) db
        (.recover now job error jobs) []
  | raiseFinalized {now : Instant} {job : JobRecord} {jobs : List JobRecord} {error : String} :
      WorkerStep env config w db (.finalized now job jobs) db (.recover now job error jobs) []
  | emitted {now : Instant} {job : JobRecord} {jobs : List JobRecord} :
      WorkerStep env config w db (.finalized now job jobs) db (.attempt now jobs) []
  | recover {now : Instant} {job current : JobRecord} {error : String} {jobs : List JobRecord}
      (hjob : db.jobs.find? job.id = some current) :
      WorkerStep env config w db (.recover now job error jobs) db
        (.inspect now job error current jobs) []
  | disappeared {now : Instant} {job : JobRecord} {error error' : String} {jobs : List JobRecord}
      (hjob : db.jobs.find? job.id = none) :
      WorkerStep env config w db (.recover now job error jobs) db (.idle (some error')) []
  | settled {now : Instant} {job current : JobRecord} {error : String} {jobs : List JobRecord}
      {latest : RunRecord}
      (hruns : reconciliation current (listJobRuns db.runs current.id) = .settled latest) :
      WorkerStep env config w db (.inspect now job error current jobs) db (.attempt now jobs) []
  | unfinished {now : Instant} {job current : JobRecord} {error : String}
      {jobs : List JobRecord} {latest : RunRecord}
      (hruns : reconciliation current (listJobRuns db.runs current.id) = .finish latest) :
      WorkerStep env config w db (.inspect now job error current jobs) db
        (.reconcile now job current latest jobs) []
  | failed {now : Instant} {job current : JobRecord} {error : String} {jobs : List JobRecord}
      {runningRun : Option RunRecord} {policy : Option ResourcePolicy}
      (hruns : reconciliation current (listJobRuns db.runs current.id) = .fail runningRun)
      (hpolicy : policyFromJobMetadata env.modelValidate current.resourcePolicy = .ok policy) :
      WorkerStep env config w db (.inspect now job error current jobs) db
        (.fail now job error current runningRun jobs) []
  | failedPolicy {now : Instant} {job current : JobRecord} {error error' : String}
      {jobs : List JobRecord} {runningRun : Option RunRecord}
      (hruns : reconciliation current (listJobRuns db.runs current.id) = .fail runningRun)
      (hpolicy : policyFromJobMetadata env.modelValidate current.resourcePolicy
        = .error error') :
      WorkerStep env config w db (.inspect now job error current jobs) db (.idle (some error')) []
  | reconcile {now : Instant} {job current : JobRecord} {latest : RunRecord}
      {jobs : List JobRecord} :
      WorkerStep env config w db (.reconcile now job current latest jobs)
        { db with
          jobs := finishJob db.jobs current.id latest.status.toJobStatus latest.error none }
        (.attempt now jobs) []
  | fail {now startedAt finishedAt : Instant} {job current : JobRecord} {error : String}
      {runningRun : Option RunRecord} {jobs : List JobRecord} {runId : Id} {run : RunRecord}
      {finalization : AttemptFinalization} {jobsTable : Jobs} {runs : Runs}
      (hid : db.runs.find? runId = none)
      (hrun : run = failedRun current job runningRun runId startedAt finishedAt error)
      (hfinalize : finalizeAttempt db.jobs db.runs run .failed run.error none w
        = .ok (finalization, jobsTable, runs)) :
      WorkerStep env config w db (.fail now job error current runningRun jobs)
        { db with jobs := jobsTable, runs := runs } (.attempt now jobs)
        (finalizationEvents run finalization.outcome)
  | failRaised {now startedAt finishedAt : Instant} {job current : JobRecord}
      {error error' : String} {runningRun : Option RunRecord} {jobs : List JobRecord}
      {runId : Id} {run : RunRecord} (hid : db.runs.find? runId = none)
      (hrun : run = failedRun current job runningRun runId startedAt finishedAt error)
      (hfinalize : finalizeAttempt db.jobs db.runs run .failed run.error none w
        = .error error') :
      WorkerStep env config w db (.fail now job error current runningRun jobs) db
        (.idle (some error')) []

section

variable {env : Environment} {config : SchedulerConfig} {w : WorkerId} {db db' : Db}
  {phase' : Phase} {events : List Event}

/-- Listing the due schedules. -/
theorem beginPass_step {exception : Option String} {now : Instant}
    (h : beginPass w db now = (phase', events)) :
  WorkerStep env config w db (.idle exception) db phase' events
  := by
  rw [beginPass] at h
  split at h
  case h_1 error hdue =>
    cases h
    apply WorkerStep.beginRaised hdue
  case h_2 due hdue =>
    cases h
    apply WorkerStep.begin hdue

/-- Saving the job of a schedule. -/
theorem materialize_step {now : Instant} {schedule : ScheduleRecord}
    {schedules : List ScheduleRecord} {jobId : Id}
    (h : materialize config w db now schedule schedules jobId = some (db', phase', events)) :
  WorkerStep env config w db (.due now (schedule :: schedules)) db' phase' events
  := by
  rw [materialize, registryGet] at h
  by_cases hkind : schedule.kind ∈ config.kinds
  · rw [if_pos hkind] at h
    dsimp only at h
    cases hjob : materializedJob config schedule jobId now with
    | error error =>
        simp only [hjob] at h
        cases h
        apply WorkerStep.rejected hkind hjob
    | ok job =>
        simp only [hjob] at h
        cases hsave : saveJob db.jobs job with
        | none =>
            simp only [hsave] at h
            cases h
        | some jobs =>
            simp only [hsave] at h
            cases h
            apply WorkerStep.materialize hkind hjob hsave
  · rw [if_neg hkind] at h
    cases h
    apply WorkerStep.unregistered hkind

/-- Advancing a schedule. -/
theorem advance_step {now : Instant} {schedule : ScheduleRecord}
    {schedules : List ScheduleRecord}
    (h : advance env w db now schedule schedules = (db', phase', events)) :
  WorkerStep env config w db (.saved now schedule schedules) db' phase' events
  := by
  rw [advance] at h
  split at h
  case h_1 error hnext =>
    cases h
    apply WorkerStep.advanceRaised hnext
  case h_2 nextRunAt hnext =>
    cases h
    apply WorkerStep.advance hnext

/-- Going on from the limit of the project to the limit of the kind. -/
theorem passProject_step {now : Instant} {job : JobRecord} {claimed runnable : List JobRecord}
    {policy : Option ResourcePolicy}
    (hpolicy : policyFromJobMetadata env.modelValidate job.resourcePolicy = .ok policy)
    (hproject : WithinProject db job (concurrency policy))
    (h : passProject w now job (concurrency policy) claimed runnable = (phase', events)) :
  WorkerStep env config w db (.check now (job :: claimed) runnable) db phase' events
  := by
  rw [passProject] at h
  split at h
  case h_1 hlimit =>
    cases h
    apply WorkerStep.returnJob hpolicy hproject hlimit
  case h_2 maxRunning hlimit =>
    cases h
    apply WorkerStep.withinProject hpolicy hproject hlimit

/-- Checking the limit of the project. -/
theorem checkProject_step {now : Instant} {job : JobRecord} {claimed runnable : List JobRecord}
    (h : checkProject env w db now job claimed runnable = (phase', events)) :
  WorkerStep env config w db (.check now (job :: claimed) runnable) db phase' events
  := by
  rw [checkProject] at h
  split at h
  case h_1 error hpolicy =>
    cases h
    apply WorkerStep.badPolicy hpolicy
  case h_2 policy hpolicy =>
    split at h
    case h_1 hlimit =>
      apply passProject_step hpolicy _ h
      intro maxProjectRunning hsome
      rw [hlimit] at hsome
      cases hsome
    case h_2 maxProjectRunning hlimit =>
      dsimp only at h
      split at h
      case isTrue hcount =>
        cases h
        apply WorkerStep.overProject hpolicy hlimit hcount
      case isFalse hcount =>
        apply passProject_step hpolicy _ h
        intro m hsome
        rw [hlimit] at hsome
        cases hsome
        apply not_le.mp hcount

/-- Checking the limit of the kind. -/
theorem checkKindLimit_step {now : Instant} {job : JobRecord} {maxRunning : ℕ+}
    {claimed runnable : List JobRecord}
    (h : checkKindLimit w db now job maxRunning claimed runnable = (phase', events)) :
  WorkerStep env config w db (.checkKind now job maxRunning claimed runnable) db phase' events
  := by
  simp only [checkKindLimit] at h
  split at h
  case isTrue hcount =>
    cases h
    apply WorkerStep.overKind hcount
  case isFalse hcount =>
    cases h
    apply WorkerStep.returnWithinKind (not_le.mp hcount)

/-- Entering the leases. -/
theorem enterLeases_step (now : Instant) (runnable : List JobRecord) :
  WorkerStep env config w db (.check now [] runnable) db (enterLeases config now runnable) []
  := by
  rw [enterLeases]
  split
  case isTrue h => apply WorkerStep.noLease h.1 h.2
  case isFalse h =>
    apply WorkerStep.enterLeases
    intro hrunnable
    apply not_le.mp (fun hlease => h ⟨hrunnable, hlease⟩)

/-- Marking a job running. -/
theorem markNext_step {now : Instant} {job : JobRecord} {jobs : List JobRecord}
    {runningEventAt : Instant}
    (h : markNext w db now job jobs runningEventAt = (db', phase', events)) :
  WorkerStep env config w db (.attempt now (job :: jobs)) db' phase' events
  := by
  rw [markNext] at h
  cases hmark : tryMarkJobRunning db.jobs job.id job.nextAttempt w with
  | mk marked jobsTable =>
      rw [hmark] at h
      cases marked with
      | true =>
          cases h
          apply WorkerStep.mark hmark
      | false =>
          cases h
          apply WorkerStep.superseded hmark

/-- Inserting the running run. -/
theorem startAttempt_step {now startedAt : Instant} {job : JobRecord} {jobs : List JobRecord}
    {runId : Id}
    (h : startAttempt db now job startedAt jobs runId = some (db', phase', events)) :
  WorkerStep env config w db (.marked now job startedAt jobs) db' phase' events
  := by
  rw [startAttempt] at h
  split_ifs at h with hid
  split at h
  case h_1 error hstart =>
    cases h
    apply WorkerStep.raiseMarked
  case h_2 runs hstart =>
    cases h
    apply WorkerStep.start (startRun_ok hstart).2

/-- Rejecting an attempt. -/
theorem rejectAttempt_step {now startedAt : Instant} {job : JobRecord} {jobs : List JobRecord}
    {runId : Id} {validationError : String} {latestEventAt : Option Instant} {clock : Instant}
    (h : rejectAttempt w db now job startedAt jobs runId validationError latestEventAt clock
      = some (db', phase', events)) :
  WorkerStep env config w db (.marked now job startedAt jobs) db' phase' events
  := by
  rw [rejectAttempt] at h
  split_ifs at h with hid
  simp only [Option.not_isSome_iff_eq_none] at hid
  simp only [finalizeWithin, Option.some.injEq] at h
  split at h
  case h_1 error hfinalize =>
    cases h
    apply WorkerStep.rejectRaised hid hfinalize
  case h_2 finalization jobsTable runs hfinalize =>
    cases h
    apply WorkerStep.reject hid hfinalize

/-- Finishing an attempt. -/
theorem finishAttempt_step {now startedAt : Instant} {job : JobRecord} {runId : Id}
    {jobs : List JobRecord} {result : GoblinResult} {elapsed : ℤ}
    {latestEventAt : Option Instant} {clock : Instant}
    (h : finishAttempt w db now job startedAt runId jobs result elapsed latestEventAt clock
      = (db', phase', events)) :
  WorkerStep env config w db (.started now job startedAt runId jobs) db' phase' events
  := by
  simp only [finishAttempt, finalizeWithin] at h
  split at h
  case h_1 error hfinalize =>
    cases h
    apply WorkerStep.finishRaised rfl hfinalize
  case h_2 finalization jobsTable runs hfinalize =>
    cases houtcome : finalization.outcome with
    | finalized =>
        simp only [houtcome] at h
        cases h
        apply WorkerStep.finish rfl hfinalize houtcome
    | cancelled =>
        simp only [houtcome] at h
        cases h
        apply WorkerStep.finishLost rfl hfinalize (by simp [houtcome])
    | stale =>
        simp only [houtcome] at h
        cases h
        apply WorkerStep.finishLost rfl hfinalize (by simp [houtcome])

/-- Reading the job of an attempt that raised. -/
theorem recoverJob_step (now : Instant) (job : JobRecord) (error : String)
    (jobs : List JobRecord) :
  WorkerStep env config w db (.recover now job error jobs) db
    (recoverJob db now job error jobs) []
  := by
  rw [recoverJob, getJob]
  split
  case h_1 hjob => apply WorkerStep.disappeared hjob
  case h_2 current hjob => apply WorkerStep.recover hjob

/-- Deciding about an attempt that raised. -/
theorem inspectRuns_step (now : Instant) (job : JobRecord) (error : String)
    (current : JobRecord) (jobs : List JobRecord) :
  WorkerStep env config w db (.inspect now job error current jobs) db
    (inspectRuns env db now job error current jobs) []
  := by
  rw [inspectRuns]
  split
  case h_1 latest hruns => apply WorkerStep.settled hruns
  case h_2 latest hruns => apply WorkerStep.unfinished hruns
  case h_3 runningRun hruns =>
    split
    case h_1 error' hpolicy => apply WorkerStep.failedPolicy hruns hpolicy
    case h_2 policy hpolicy => apply WorkerStep.failed hruns hpolicy

/-- Recording the failure of an attempt that raised. -/
theorem failAttempt_step {now : Instant} {job current : JobRecord} {error : String}
    {runningRun : Option RunRecord} {jobs : List JobRecord} {runId : Id}
    {runningEventAt latestEventAt : Option Instant} {clock : Instant}
    (h : failAttempt w db now job error current runningRun jobs runId runningEventAt
      latestEventAt clock = some (db', phase', events)) :
  WorkerStep env config w db (.fail now job error current runningRun jobs) db' phase' events
  := by
  rw [failAttempt] at h
  split_ifs at h with hid
  simp only [Option.not_isSome_iff_eq_none] at hid
  dsimp only at h
  split at h
  case h_1 error' hfinalize =>
    cases h
    apply WorkerStep.failRaised hid rfl hfinalize
  case h_2 finalization jobsTable runs hfinalize =>
    cases h
    apply WorkerStep.fail hid rfl hfinalize

/-- Every step of a scheduler is one of the steps listed. -/
theorem workerStep_of_schedulerStep {phase : Phase} {action : SchedulerAction}
    (h : schedulerStep env config w db phase action = some (db', phase', events)) :
  WorkerStep env config w db phase db' phase' events
  := by
  cases phase with
  | idle exception =>
      cases action <;> simp only [schedulerStep, reduceCtorEq, Option.some.injEq, Prod.mk.injEq] at h
      obtain ⟨rfl, h⟩ := h
      apply beginPass_step h
  | due now schedules =>
      cases schedules with
      | nil =>
          cases action <;> simp only [schedulerStep, reduceCtorEq] at h
          cases h
          apply WorkerStep.claim rfl
      | cons schedule schedules =>
          cases action <;> simp only [schedulerStep, reduceCtorEq] at h
          apply materialize_step h
  | saved now schedule schedules =>
      cases action <;> simp only [schedulerStep, reduceCtorEq, Option.some.injEq] at h
      apply advance_step h
  | check now claimed runnable =>
      cases claimed with
      | nil =>
          cases action <;> simp only [schedulerStep, reduceCtorEq] at h
          cases h
          apply enterLeases_step
      | cons job claimed =>
          cases action <;>
            simp only [schedulerStep, reduceCtorEq, Option.some.injEq, Prod.mk.injEq] at h
          obtain ⟨rfl, h⟩ := h
          apply checkProject_step h
  | checkKind now job maxRunning claimed runnable =>
      cases action <;> simp only [schedulerStep, reduceCtorEq, Option.some.injEq, Prod.mk.injEq] at h
      obtain ⟨rfl, h⟩ := h
      apply checkKindLimit_step h
  | defer now job message claimed runnable =>
      cases action <;> simp only [schedulerStep, reduceCtorEq] at h
      cases h
      apply WorkerStep.defer
  | attempt now jobs =>
      cases jobs with
      | nil =>
          cases action <;> simp only [schedulerStep, reduceCtorEq] at h
          cases h
          apply WorkerStep.finishPass
      | cons job jobs =>
          cases action <;> simp only [schedulerStep, reduceCtorEq, Option.some.injEq] at h
          apply markNext_step h
  | marked now job startedAt jobs =>
      cases action <;> simp only [schedulerStep, reduceCtorEq] at h
      case raise error =>
        cases h
        apply WorkerStep.raiseMarked
      case start runId => apply startAttempt_step h
      case reject => apply rejectAttempt_step h
  | started now job startedAt runId jobs =>
      cases action <;> simp only [schedulerStep, reduceCtorEq] at h
      case raise error =>
        cases h
        apply WorkerStep.raiseStarted
      case finish => apply finishAttempt_step (Option.some.inj h)
  | finalized now job jobs =>
      cases action <;> simp only [schedulerStep, reduceCtorEq] at h
      case raise error =>
        cases h
        apply WorkerStep.raiseFinalized
      case tick =>
        cases h
        apply WorkerStep.emitted
  | recover now job error jobs =>
      cases action <;> simp only [schedulerStep, reduceCtorEq] at h
      cases h
      apply recoverJob_step
  | inspect now job error current jobs =>
      cases action <;> simp only [schedulerStep, reduceCtorEq] at h
      cases h
      apply inspectRuns_step
  | reconcile now job current latest jobs =>
      cases action <;> simp only [schedulerStep, reduceCtorEq] at h
      cases h
      apply WorkerStep.reconcile
  | fail now job error current runningRun jobs =>
      cases action <;> simp only [schedulerStep, reduceCtorEq] at h
      apply failAttempt_step h

end

end GoblinKing
