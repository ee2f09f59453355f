import GoblinKing.Scheduler.RetryBudget

/-!
# Timeouts

An attempt is timed with one clock, which starts after the emission of its `job.running` event
and is read when the runtime has returned. What is compared with the timeout of the job is all that
lies between, so also the validation of the image. The timeout therefore measures the worker
only as long as the rest does not matter.
-/

namespace GoblinKing

/-- How the time of an attempt is divided, from the reading of the clock at which its job was
marked running. -/
structure Division where
  markedAt : ℤ
  /-- the emission of `job.running` -/
  announcement : ℕ
  /-- the definition, the context and the policy are looked up -/
  preparation : ℕ
  /-- the validation of the image -/
  validation : ℕ
  /-- `start_run` -/
  insertion : ℕ
  /-- `runtime.run` -/
  execution : ℕ
  /-- `_finish_attempt_timestamp` -/
  stamping : ℕ

namespace Division

/-- The clock when the time of the attempt starts. -/
def startedMonotonic (d : Division) : ℤ :=
  d.markedAt + d.announcement

/-- The clock when the finish of the attempt is stamped. -/
def finishedMonotonic (d : Division) : ℤ :=
  d.markedAt + d.announcement + d.preparation + d.validation + d.insertion + d.execution
    + d.stamping

/-- The time that is compared with the timeout. -/
def elapsed (d : Division) : ℤ :=
  d.finishedMonotonic - d.startedMonotonic

/-- What is timed besides the execution. -/
def overhead (d : Division) : ℕ :=
  d.preparation + d.validation + d.insertion + d.stamping

/-- The elapsed time is that of the execution and of the overhead. The announcement is not
timed. -/
theorem elapsed_eq (d : Division) :
  d.elapsed = d.execution + d.overhead
  := by
  simp only [elapsed, finishedMonotonic, startedMonotonic, overhead]
  omega

end Division

/-- The attempt may be finished: its job is still at the attempt, and owned by the scheduler;
its run is still running, or not there. -/
structure AttemptStands (σ : System) (w : WorkerId) (job : JobRecord) (runId : Id) : Prop where
  owned : ∃ row, σ.db.jobs.find? job.id = some row ∧ row.ownsAttempt w job.nextAttempt = true
  running : ∀ existing, σ.db.runs.find? runId = some existing →
    existing.status = .running ∧ existing.lineage = job.runLineage job.nextAttempt

/-- The step finalizes the attempt: its run is persisted, and its job has the status of the
run. -/
structure EndsWith (σ τ : System) (job : JobRecord) (run : RunRecord) : Prop where
  finalized : τ.log = .finalized job.id job.nextAttempt :: σ.log
  runRow : τ.db.runs.find? run.id = some run
  jobRow : ∃ row, τ.db.jobs.find? job.id = some row ∧ row.status = run.status.toJobStatus

/-- The timeout measures the worker: a successful execution within the timeout completes the run
and the job with its result, and a longer execution is timed out. -/
structure MeasuresWorker (σ τ : System) (job : JobRecord) (runId : Id) (timeout : ℕ)
    (execution : ℤ) (result : GoblinResult) : Prop where
  completed : execution ≤ seconds timeout → result.status = .success →
    ∃ run, run.id = runId ∧ EndsWith σ τ job run ∧ run.status = .completed
      ∧ run.result = some result
  timedOut : seconds timeout < execution →
    ∃ run, run.id = runId ∧ EndsWith σ τ job run ∧ run.status = .timedOut

/-! ### The status of a result -/

/-- A result is timed out exactly when the elapsed time exceeds the timeout. -/
theorem statusForResult_eq_timedOut_iff (result : GoblinResult) (elapsed : ℤ) (timeout : ℕ) :
  statusForResult result elapsed (some timeout) = .timedOut ↔ seconds timeout < elapsed
  := by
  rw [statusForResult]
  split
  case isTrue h => simpa using h
  case isFalse h =>
    have hle : ¬ seconds timeout < elapsed := by
      simpa using h
    cases result.status <;> simpa using hle

/-- A result is completed exactly when it is a success within the timeout. -/
theorem statusForResult_eq_completed_iff (result : GoblinResult) (elapsed : ℤ) (timeout : ℕ) :
  statusForResult result elapsed (some timeout) = .completed
    ↔ result.status = .success ∧ elapsed ≤ seconds timeout
  := by
  rw [statusForResult]
  split
  case isTrue h =>
    have hlt : ¬ elapsed ≤ seconds timeout := by
      simpa using h
    simp [hlt]
  case isFalse h =>
    have hle : elapsed ≤ seconds timeout := by
      simpa using h
    cases result.status <;> simp [hle]

/-- A result that is not timed out is kept. -/
theorem resultWithinTimeout_of_completed (job : JobRecord) {result : GoblinResult} {elapsed : ℤ}
    (h : statusForResult result elapsed job.timeoutSeconds = .completed) :
  resultWithinTimeout job result elapsed = result
  := by
  rw [resultWithinTimeout, h, if_neg]
  rintro ⟨⟨⟩, -⟩

/-- Only a failed attempt is retried. -/
theorem finishedJobStatus_of_ne_failed (job : JobRecord) {status : RunStatus}
    (h : status ≠ .failed) :
  finishedJobStatus job status = status.toJobStatus
  := by
  simp [finishedJobStatus, retrying, h]

/-! ### Finishing -/

section

variable {env : Environment} {config : WorkerId → SchedulerConfig} {σ τ : System} {w : WorkerId}
  {now startedAt : Instant} {job : JobRecord} {runId : Id} {jobs : List JobRecord}
  {result : GoblinResult} {elapsed : ℤ} {latestEventAt : Option Instant} {clock : Instant}

/-- An attempt whose run was inserted may be finished at any time. -/
theorem step_finish (hphase : σ.phase w = .started now job startedAt runId jobs) :
  step env config σ (.scheduler w (.finish result elapsed latestEventAt clock))
    = some (σ.after w
      (finishAttempt w σ.db now job startedAt runId jobs result elapsed latestEventAt clock).1
      (finishAttempt w σ.db now job startedAt runId jobs result elapsed latestEventAt clock).2.1
      (finishAttempt w σ.db now job startedAt runId jobs result elapsed latestEventAt clock).2.2)
  := by
  simp only [step, hphase, schedulerStep, Option.map_some]

/-- An attempt that may be finished ends with the run of its result, and its job with the status
of that run unless it is retried. -/
theorem AttemptStands.endsWith (h : AttemptStands σ w job runId)
    (hphase : σ.phase w = .started now job startedAt runId jobs)
    (hstep : step env config σ (.scheduler w (.finish result elapsed latestEventAt clock)) = some τ)
    (hstatus : statusForResult result elapsed job.timeoutSeconds ≠ .failed) :
  EndsWith σ τ job (finishedRun job runId startedAt
    (finishAttemptTimestamp startedAt latestEventAt clock) result elapsed)
  := by
  obtain ⟨row, hrow, howns⟩ := h.owned
  rw [step_finish hphase, Option.some.injEq] at hstep
  subst hstep
  set run := finishedRun job runId startedAt
    (finishAttemptTimestamp startedAt latestEventAt clock) result elapsed with hrun
  simp only [finishAttempt, finalizeWithin, ← hrun]
  split
  case h_1 error hfinalize =>
    refine (finalizeAttempt_ne_error hrow (isTerminal_statusForResult _ _ _) ?_ error
      hfinalize).elim
    intro existing hexisting
    obtain ⟨hrunning, hlineage⟩ := h.running existing hexisting
    exact ⟨hrunning, hlineage.symm⟩
  case h_2 finalization jobsTable runs hfinalize =>
    obtain ⟨hreleased, hfinished⟩ := released_of_finalizeAttempt hfinalize hrow howns rfl
    obtain ⟨-, -, hfind⟩ := finalizeRun_ok hfinished
    obtain ⟨row', hrow', -, -, ⟨-, houtcome, -⟩ | ⟨hnot, -, -⟩⟩ := finalizeAttempt_ok hfinalize
    case inr =>
      change σ.db.jobs.find? job.id = some row' at hrow'
      rw [hrow, Option.some.injEq] at hrow'
      rw [← hrow'] at hnot
      change row.ownsAttempt w job.nextAttempt = false at hnot
      rw [howns] at hnot
      cases hnot
    constructor
    · rw [System.after_log, houtcome]
      rfl
    · rw [System.after_db, hfind, if_pos rfl]
    · use row.release (finishedJobStatus job run.status) run.error
        (if retrying job run.status then some now else none), hreleased
      apply finishedJobStatus_of_ne_failed job hstatus

/-- An attempt is finalized only if it may be finished. -/
theorem attemptStands_of_finalized (hphase : σ.phase w = .started now job startedAt runId jobs)
    (hstep : step env config σ (.scheduler w (.finish result elapsed latestEventAt clock)) = some τ)
    (hlog : τ.log = .finalized job.id job.nextAttempt :: σ.log) :
  AttemptStands σ w job runId
  := by
  rw [step_finish hphase, Option.some.injEq] at hstep
  subst hstep
  simp only [finishAttempt, finalizeWithin, System.after_log] at hlog
  split at hlog
  case h_1 error hfinalize => simp at hlog
  case h_2 finalization jobsTable runs hfinalize =>
    obtain ⟨row, hrow, hfinished, -, hcases⟩ := finalizeAttempt_ok hfinalize
    obtain ⟨-, hexisting, -⟩ := finalizeRun_ok hfinished
    simp only [normalizePersistedRun_id, normalizePersistedRun_lineage] at hexisting
    rcases hcases with ⟨howns, -, -⟩ | ⟨-, houtcome, -⟩
    · constructor
      · use row, hrow, howns
      · intro existing hfind
        obtain ⟨hrunning, hlineage⟩ := hexisting existing hfind
        exact ⟨hrunning, hlineage.symm⟩
    · cases hkind : finalization.outcome with
      | finalized => cases houtcome hkind
      | cancelled => simp [finalizationEvents, hkind] at hlog
      | stale => simp [finalizationEvents, hkind] at hlog

/-- What an attempt has ended with is the run of its result. -/
theorem EndsWith.eq_finishedRun {ended : RunRecord} (h : EndsWith σ τ job ended)
    (hid : ended.id = runId) (hphase : σ.phase w = .started now job startedAt runId jobs)
    (hstep : step env config σ (.scheduler w (.finish result elapsed latestEventAt clock)) = some τ)
    (hstatus : statusForResult result elapsed job.timeoutSeconds ≠ .failed) :
  ended = finishedRun job runId startedAt (finishAttemptTimestamp startedAt latestEventAt clock)
    result elapsed
  := by
  have hstands := attemptStands_of_finalized hphase hstep h.finalized
  have hrow := (hstands.endsWith hphase hstep hstatus).runRow
  have hrow' := h.runRow
  rw [hid] at hrow'
  apply Option.some.inj
  rw [← hrow', ← hrow]
  rfl

/-- In a run in which the job is not cancelled, its lease is not lost and no attempt of it
raises, an attempt whose run was inserted may be finished. -/
theorem attemptStands_of_path
    (h : Transition.Path (step env config) (fun σ a => keepsAttempts config job.id σ a = true)
      System.init σ) (hphase : σ.phase w = .started now job startedAt runId jobs) :
  AttemptStands σ w job runId
  := by
  obtain ⟨s, ⟨-, htracks⟩, -⟩ := tracks_of_path h
  have hstake : (σ.view job.id).stake w = .opened job startedAt runId := by
    simp [System.view, hphase, Phase.stake]
  obtain ⟨-, hseen, ⟨ended, hruns, -⟩, hcount, -⟩ := htracks.of_opened hstake
  obtain ⟨row, hrow, hcolumns⟩ := row_of_view hseen
  simp only [JobRecord.retryColumns, RetryColumns.mk.injEq] at hcolumns
  obtain ⟨hrunning, howner, hattempts, -⟩ := hcolumns
  constructor
  · use row, hrow
    simp [JobRecord.ownsAttempt, howner, hrunning, hattempts, JobRecord.nextAttempt, hcount]
  · intro existing hexisting
    have hmem : runningRun job runId startedAt ∈ runsOf σ.db.runs job.id := by
      change runsOf σ.db.runs job.id = _ at hruns
      simp [hruns]
    simp only [runsOf, Table.select, List.mem_filter] at hmem
    obtain rfl : existing = runningRun job runId startedAt := by
      apply σ.db.runs.eq_of_key_eq (Table.mem_of_find? hexisting) hmem.1
      apply Table.key_of_find? hexisting
    exact ⟨rfl, rfl⟩

/-- The timeout of a job measures its worker exactly when a successful execution within the
timeout stays within it together with the overhead; as long as the attempt may be finished at
all. -/
theorem timeouts_measure_worker (env : Environment) (config : WorkerId → SchedulerConfig)
    (hphase : σ.phase w = .started now job startedAt runId jobs) {timeout : ℕ}
    (htimeout : job.timeoutSeconds = some timeout) (d : Division) (result : GoblinResult)
    (latestEventAt : Option Instant) (clock : Instant) :
  ∃ τ, step env config σ (.scheduler w (.finish result d.elapsed latestEventAt clock)) = some τ
    ∧ (MeasuresWorker σ τ job runId timeout d.execution result
      ↔ (d.execution ≤ seconds timeout → result.status = .success →
          d.execution + d.overhead ≤ seconds timeout ∧ AttemptStands σ w job runId)
        ∧ (seconds timeout < d.execution → AttemptStands σ w job runId))
  := by
  obtain ⟨τ, hstep⟩ : ∃ τ, step env config σ
      (.scheduler w (.finish result d.elapsed latestEventAt clock)) = some τ :=
    ⟨_, step_finish hphase⟩
  use τ, hstep
  have htimed := d.elapsed_eq
  set run := finishedRun job runId startedAt
    (finishAttemptTimestamp startedAt latestEventAt clock) result d.elapsed with hrun
  have hstatus : run.status = statusForResult result d.elapsed (some timeout) := by
    rw [hrun, ← htimeout]
    rfl
  have htimedOut := statusForResult_eq_timedOut_iff result d.elapsed timeout
  have hcompleted := statusForResult_eq_completed_iff result d.elapsed timeout
  rw [← hstatus] at htimedOut hcompleted
  -- what the attempt ends with, when it may be finished and its result has not failed
  have hends : AttemptStands σ w job runId → run.status ≠ .failed → EndsWith σ τ job run := by
    intro hstands hne
    apply hstands.endsWith hphase hstep hne
  constructor
  · intro hmeasures
    constructor
    · intro hwithin hsuccess
      obtain ⟨ended, hid, hended, hstatusEnded, -⟩ := hmeasures.completed hwithin hsuccess
      have hstands := attemptStands_of_finalized hphase hstep hended.finalized
      refine ⟨?_, hstands⟩
      by_contra hlate
      have hlate' : run.status = .timedOut := by
        rw [htimedOut]
        omega
      have heq : ended = run := by
        apply hended.eq_finishedRun hid hphase hstep
        rw [htimeout, ← hstatus, hlate']
        rintro ⟨⟩
      rw [heq, hlate'] at hstatusEnded
      cases hstatusEnded
    · intro hlong
      obtain ⟨ended, -, hended, -⟩ := hmeasures.timedOut hlong
      apply attemptStands_of_finalized hphase hstep hended.finalized
  · rintro ⟨hwithin, hlong⟩
    constructor
    · intro hexecution hsuccess
      obtain ⟨hle, hstands⟩ := hwithin hexecution hsuccess
      have hdone : run.status = .completed := by
        rw [hcompleted]
        use hsuccess
        omega
      use run, rfl, hends hstands (by simp [hdone]), hdone
      apply congrArg some
      apply resultWithinTimeout_of_completed job
      rw [htimeout, ← hstatus, hdone]
    · intro hexecution
      have hlate : run.status = .timedOut := by
        rw [htimedOut]
        omega
      use run, rfl, hends (hlong hexecution) (by simp [hlate]), hlate

end

/-- A job that may run for two seconds, and its first attempt up to the insertion of its run. -/
def openedAttempt : List Action :=
  [.submit { id := "a", kind := "report", createdAt := 0, timeoutSeconds := some 2 },
    .scheduler "s1" (.begin 10), .scheduler "s1" .tick, .scheduler "s1" .tick,
    .scheduler "s1" .tick, .scheduler "s1" (.mark 11), .scheduler "s1" (.start "r1")]

/-- The job of that attempt as its scheduler holds it. -/
def openedJob : JobRecord where
  id := "a"
  kind := "report"
  createdAt := 0
  timeoutSeconds := some 2
  status := .leased
  leaseOwner := some "s1"
  leasedUntil := some 60000010

/-- After that run the scheduler executes the attempt. -/
theorem exists_openedAttempt :
  ∃ σ, Transition.Path (step Environment.sample sampleConfig)
      (fun σ a => keepsAttempts sampleConfig "a" σ a = true) System.init σ
    ∧ σ.phase "s1" = .started 10 openedJob 12 "r1" []
  := by
  have hseen : (sampleRunUnder (keepsAttempts sampleConfig "a") openedAttempt).map
      (fun σ => σ.phase "s1") = some (.started 10 openedJob 12 "r1" []) := by
    decide +kernel
  obtain ⟨σ, hrun, hphase⟩ := Option.map_eq_some_iff.mp hseen
  use σ, Transition.path_of_runUnder hrun, hphase

/-- A second of execution after a validation of the image that takes its time. -/
def validatedFor (validation : ℕ) : Division where
  markedAt := 0
  announcement := 20000
  preparation := 10000
  validation := validation
  insertion := 5000
  execution := 1000000
  stamping := 5000

/-- The runtime returns a success. -/
def succeedAfter (d : Division) : Action :=
  .scheduler "s1" (.finish ⟨.success, none⟩ d.elapsed none 3000000)

/-- After a validation of half a second the timeout of two seconds measures the worker. -/
theorem timeouts_measure_worker_shortValidation :
  ∃ σ τ, step Environment.sample sampleConfig σ (succeedAfter (validatedFor 500000)) = some τ
    ∧ MeasuresWorker σ τ openedJob "r1" 2 1000000 ⟨.success, none⟩
  := by
  obtain ⟨σ, hpath, hphase⟩ := exists_openedAttempt
  obtain ⟨τ, hstep, hiff⟩ := timeouts_measure_worker Environment.sample sampleConfig hphase rfl
    (validatedFor 500000) ⟨.success, none⟩ none 3000000
  have hstands := attemptStands_of_path hpath hphase
  use σ, τ, hstep
  apply hiff.mpr
  exact ⟨fun _ _ => ⟨by decide, hstands⟩, fun _ => hstands⟩

/-- After a validation of a second and a half the same execution is timed out. -/
theorem validation_exhausts_timeout :
  ¬ ∀ σ τ w now job startedAt runId jobs timeout d result latestEventAt clock,
    Transition.Path (step Environment.sample sampleConfig)
      (fun σ a => keepsAttempts sampleConfig job.id σ a = true) System.init σ →
    σ.phase w = .started now job startedAt runId jobs → job.timeoutSeconds = some timeout →
    step Environment.sample sampleConfig σ
      (.scheduler w (.finish result (Division.elapsed d) latestEventAt clock)) = some τ →
    MeasuresWorker σ τ job runId timeout d.execution result
  := by
  intro h
  obtain ⟨σ, hpath, hphase⟩ := exists_openedAttempt
  obtain ⟨τ, hstep⟩ : ∃ τ, step Environment.sample sampleConfig σ
      (succeedAfter (validatedFor 1500000)) = some τ := ⟨_, step_finish hphase⟩
  have hmeasures := h σ τ "s1" 10 openedJob 12 "r1" [] 2 (validatedFor 1500000) ⟨.success, none⟩
    none 3000000 hpath hphase rfl hstep
  obtain ⟨ended, hid, hended, hcompleted, -⟩ := hmeasures.completed (by decide) rfl
  rw [hended.eq_finishedRun hid hphase hstep (by decide)] at hcompleted
  revert hcompleted
  decide

end GoblinKing
