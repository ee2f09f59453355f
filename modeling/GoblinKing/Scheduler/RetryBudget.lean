import GoblinKing.Scheduler.Stakes

/-!
# The retry budget

A job that is executed by repeated passes, as long as it is not cancelled, its lease is not lost
and no attempt of it raises. Its attempts are numbered from 1, there is at most one more than
its retries, and it is set to `retrying` exactly after an attempt that the runtime has let fail
while retries are left. What the validation rejects is failed and not retried.
-/

namespace GoblinKing

/-- A scheduler claims job `j` while another attempt of it is under way. -/
def takesOver (config : WorkerId → SchedulerConfig) (j : Id) (σ : System) (w : WorkerId) : Bool :=
  match σ.phase w with
  | .due now [] =>
      (claimSelection σ.db.jobs now (config w).claimLimit).any
        (fun row => decide (row.id = j) && row.status.isActive)
  | _ => false

/-- An exception is raised within an attempt of job `j`. -/
def raisesWithin (j : Id) (σ : System) (w : WorkerId) : SchedulerAction → Bool
  | .raise _ => (σ.phase w).current.any (fun job => decide (job.id = j))
  | _ => false

/-- The action does not cancel job `j`, does not take its lease away, raises no exception within
an attempt of it, and deletes no row. -/
def keepsAttempts (config : WorkerId → SchedulerConfig) (j : Id) (σ : System) : Action → Bool
  | .cancel jobId => decide (jobId ≠ j)
  | .cleanup _ => false
  | .scheduler w action => !takesOver config j σ w && !raisesWithin j σ w action
  | _ => true

/-! ### Steps of the task -/

section

variable {env : Environment} {config : SchedulerConfig} {σ : System} {w : WorkerId} {db : Db}
  {phase : Phase} {events : List Event} {a : Action} {j : Id}
  {s : Retry.State WorkerId RunStatus}

/-- The row of a job that is seen. -/
theorem row_of_view {columns : RetryColumns} (h : (σ.view j).row = some columns) :
  ∃ row, σ.db.jobs.find? j = some row ∧ row.retryColumns = columns
  := Option.map_eq_some_iff.mp h

/-- The other schedulers have no stake after a step of one. -/
theorem others_update {stake : WorkerId → Stake} {st : Stake}
    (h : ∀ u, u ≠ w → stake u = .none) :
  ∀ u, u ≠ w → Function.update stake w st u = .none
  := by
  intro u hu
  rw [Function.update_of_ne hu]
  apply h u hu

/-- No scheduler has a stake after the last one has given its own up. -/
theorem free_update {stake : WorkerId → Stake} (h : ∀ u, u ≠ w → stake u = .none) (u : WorkerId) :
  Function.update stake w .none u = .none
  := by
  by_cases hu : u = w
  · rw [hu, Function.update_self]
  · rw [Function.update_of_ne hu, h u hu]

/-- A submitted job is queued. -/
theorem Tracks.insert {v v' : JobView} (h : Tracks v s) {job : JobRecord}
    (hsubmitted : job.submitted = true) (hnew : v.row = none)
    (hrow : v'.row = some job.retryColumns) (hruns : v'.runs = v.runs)
    (hstake : ∀ u, v.stake u = .none → v'.stake u = .none) :
  ∃ s', Tracks v' s' ∧ TaskStep a s s'
  := by
  simp only [JobRecord.submitted, Bool.and_eq_true, beq_iff_eq] at hsubmitted
  obtain ⟨⟨⟨hstatus, howner⟩, -⟩, hcount⟩ := hsubmitted
  cases h with
  | absent _ hnone hfree =>
      use ⟨.queued, job.maxRetries, []⟩
      constructor
      · apply Tracks.queued
        · rw [hrow, JobRecord.retryColumns, hstatus, howner, hcount]
          rfl
        · rw [hruns, hnone]
          constructor <;> rfl
        · intro u
          apply hstake u (hfree u)
      · right
        use .submit job.maxRetries, rfl
        trivial
  | queued hrow' => simp [hnew] at hrow'
  | retrying hrow' => simp [hnew] at hrow'
  | leased hrow' => simp [hnew] at hrow'
  | begun hrow' => simp [hnew] at hrow'
  | opened hrow' => simp [hnew] at hrow'
  | ended hrow' => simp [hnew] at hrow'

/-- What is known of a job that waits. -/
theorem Tracks.of_waiting {v : JobView} (h : Tracks v s) {columns : RetryColumns}
    (hrow : v.row = some columns)
    (hwaits : columns.status = .queued ∨ columns.status = .retrying) :
  (s.stage = .queued ∨ s.stage = .retrying) ∧ columns.attemptCount = s.outcomes.length
    ∧ columns.maxRetries = s.budget ∧ Records v.runs s.outcomes ∧ ∀ u, v.stake u = .none
  := by
  cases h with
  | absent hrow' =>
      rw [hrow] at hrow'
      cases hrow'
  | queued hrow' hruns hfree =>
      rw [hrow] at hrow'
      cases hrow'
      exact ⟨.inl rfl, rfl, rfl, hruns, hfree⟩
  | retrying hrow' hruns hfree =>
      rw [hrow] at hrow'
      cases hrow'
      exact ⟨.inr rfl, rfl, rfl, hruns, hfree⟩
  | leased hrow' =>
      rw [hrow] at hrow'
      cases hrow'
      simp at hwaits
  | begun hrow' =>
      rw [hrow] at hrow'
      cases hrow'
      simp at hwaits
  | opened hrow' =>
      rw [hrow] at hrow'
      cases hrow'
      simp at hwaits
  | @ended _ _ outcome hrow' hterminal =>
      rw [hrow] at hrow'
      cases hrow'
      cases outcome <;> simp [RunStatus.toJobStatus] at hwaits hterminal

/-- A job that waits is claimed. -/
theorem Tracks.claim (h : Tracks (σ.view j) s) {now leaseUntil : Instant} {limit : ℕ}
    {claimed : List JobRecord} {jobs : Jobs}
    (hclaim : claimDueJobs σ.db.jobs w now leaseUntil limit = (claimed, jobs))
    (hkept : ∀ row ∈ claimSelection σ.db.jobs now limit, row.id = j →
      row.status.isActive = false)
    (hbefore : (σ.phase w).stake j = .none) :
  ∃ s', Tracks ((σ.after w { σ.db with jobs := jobs } (.check now claimed []) events).view j) s'
    ∧ TaskStep a s s'
  := by
  have hclaimed := find?_claimed σ.db.jobs w now leaseUntil limit j
  have hfind := find?_claimDueJobs σ.db.jobs w now leaseUntil limit j
  rw [hclaim] at hclaimed hfind
  have hstake : (Phase.check now claimed []).stake j = claimedStake claimed j := rfl
  rw [claimedStake, hclaimed] at hstake
  cases hrow : σ.db.jobs.find? j with
  | none =>
      rw [hrow] at hfind hstake
      refine h.quiet_after (hfind.trans hrow.symm) rfl ?_
      left
      rw [hstake, hbefore]
      rfl
  | some row =>
      rw [hrow, Option.map_some] at hfind
      rw [hrow, Option.bind_some] at hstake
      by_cases hmem : row ∈ claimSelection σ.db.jobs now limit
      · rw [if_pos hmem] at hfind hstake
        have hwaits : row.status = .queued ∨ row.status = .retrying := by
          have hinactive := hkept row hmem (Table.key_of_find? hrow)
          obtain ⟨-, hclaimable, -⟩ := mem_claimSelection hmem
          simpa [JobRecord.claimable, hinactive] using hclaimable
        have hseen : (σ.view j).row = some row.retryColumns := by
          simp [System.view, hrow]
        obtain ⟨hstage, hcount, hbudget, hruns, hfree⟩ := h.of_waiting hseen hwaits
        use { s with stage := .leased w }
        constructor
        · rw [view_after, hstake]
          apply Tracks.leased
          · dsimp only
            rw [hfind, Option.map_some]
            simp only [JobRecord.retryColumns, JobRecord.lease] at hcount hbudget ⊢
            rw [hcount, hbudget]
          · apply hruns
          · intro job hjob
            dsimp only at hjob
            rw [Function.update_self] at hjob
            cases hjob
            exact ⟨hcount, hbudget⟩
          · right
            use row.lease w leaseUntil
            apply Function.update_self
          · apply others_update (fun u _ => hfree u)
        · right
          use .claim w
          rcases hstage with hstage | hstage <;> simp [Retry.step, hstage, Action.Does]
      · rw [if_neg hmem] at hfind hstake
        refine h.quiet_after (hfind.trans hrow.symm) rfl ?_
        left
        rw [hstake, hbefore]

/-- A job that was claimed is put back into the queue. -/
theorem Tracks.defer (h : Tracks (σ.view j) s) {job : JobRecord} {message : String}
    {now : Instant} (hid : job.id = j) (hbefore : (σ.phase w).stake j = .claimed job)
    (hphase : phase.stake j = .none) :
  ∃ s', Tracks ((σ.after w
        { σ.db with jobs := finishJob σ.db.jobs job.id .queued (some message) (some now) }
        phase events).view j) s'
    ∧ TaskStep a s s'
  := by
  obtain ⟨hstage, hseen, hruns, -, -, hothers⟩ := h.of_claimed hbefore
  obtain ⟨row, hrow, hcolumns⟩ := row_of_view hseen
  use { s with stage := .queued }
  constructor
  · rw [view_after, hphase]
    apply Tracks.queued
    · dsimp only
      rw [find?_finishJob, hrow, Option.map_some, if_pos ((Table.key_of_find? hrow).trans hid.symm)]
      simp only [JobRecord.retryColumns, RetryColumns.mk.injEq] at hcolumns
      simp [JobRecord.retryColumns, JobRecord.release, hcolumns]
    · apply hruns
    · apply free_update hothers
  · right
    use .putBack
    simp [Retry.step, hstage, Action.Does]

/-- A job that was claimed is marked running. -/
theorem Tracks.mark (h : Tracks (σ.view j) s) {job : JobRecord} {jobs : Jobs}
    (hid : job.id = j) (hmark : tryMarkJobRunning σ.db.jobs job.id job.nextAttempt w = (true, jobs))
    (hbefore : (σ.phase w).stake j = .claimed job) (hphase : phase.stake j = .begun job) :
  ∃ s', Tracks ((σ.after w { σ.db with jobs := jobs } phase events).view j) s' ∧ TaskStep a s s'
  := by
  obtain ⟨hstage, hseen, hruns, hcount, hbudget, hothers⟩ := h.of_claimed hbefore
  obtain ⟨row, hrow, hcolumns⟩ := row_of_view hseen
  have hfind := find?_tryMarkJobRunning σ.db.jobs job.id job.nextAttempt w j
  simp only [JobRecord.retryColumns, RetryColumns.mk.injEq] at hcolumns
  obtain ⟨hstatus, howner, -, hretries⟩ := hcolumns
  rw [hmark, hrow, Option.map_some,
    if_pos ⟨(Table.key_of_find? hrow).trans hid.symm, hstatus, howner⟩] at hfind
  use { s with stage := .begun w }
  constructor
  · rw [view_after, hphase]
    apply Tracks.begun
    · dsimp only
      rw [hfind]
      simp [JobRecord.retryColumns, JobRecord.markRunning, howner, hretries, JobRecord.nextAttempt,
        hcount]
    · apply hruns
    · apply Function.update_self
    · exact ⟨hcount, hbudget⟩
    · apply others_update hothers
  · right
    use .begin
    simp [Retry.step, hstage, Action.Does]

/-- The run of an attempt is inserted. -/
theorem Tracks.start (h : Tracks (σ.view j) s) {job : JobRecord} {startedAt : Instant} {runId : Id}
    {runs : Runs} (hid : job.id = j)
    (hinsert : σ.db.runs.insert? (runningRun job runId startedAt) = some runs)
    (hbefore : (σ.phase w).stake j = .begun job)
    (hphase : phase.stake j = .opened job startedAt runId) :
  ∃ s', Tracks ((σ.after w { σ.db with runs := runs } phase events).view j) s' ∧ TaskStep a s s'
  := by
  obtain ⟨hstage, hseen, hruns, hcount, hbudget, hothers⟩ := h.of_begun hbefore
  use { s with stage := .opened w }
  constructor
  · rw [view_after, hphase]
    have hopened : runsOf runs j = runsOf σ.db.runs j ++ [runningRun job runId startedAt] := by
      have hjob : (runningRun job runId startedAt).jobId = j := hid
      rw [runsOf_insert? hinsert, if_pos hjob]
    refine Tracks.opened ?_ hopened hruns ?_ ?_ ?_
    · apply hseen
    · apply Function.update_self
    · exact ⟨hcount, hbudget⟩
    · apply others_update hothers
  · right
    use .record
    simp [Retry.step, hstage, Action.Does]

/-- A finalization by the attempt that owns its job releases the job. -/
theorem released_of_finalizeAttempt {jobs jobs' : Jobs} {runs runs' : Runs} {run : RunRecord}
    {status : JobStatus} {lastError : Option String} {dueAt : Option Instant} {row : JobRecord}
    {finalization : AttemptFinalization}
    (h : finalizeAttempt jobs runs run status lastError dueAt w = .ok (finalization, jobs', runs'))
    (hrow : jobs.find? run.jobId = some row) (howns : row.ownsAttempt w run.attempt = true)
    (hfinished : run.finishedAt.isSome = true) :
  jobs'.find? run.jobId = some (row.release status lastError dueAt)
    ∧ finalizeRun runs run = .ok runs'
  := by
  obtain ⟨row', hrow', hfinalize, -, ⟨-, -, rfl⟩ | ⟨hnot, -, -⟩⟩ := finalizeAttempt_ok h
  · rw [normalizePersistedRun_of_finished hfinished] at hfinalize
    use by rw [find?_finishJob, hrow, Option.map_some, if_pos (Table.key_of_find? hrow)]
  · rw [hrow] at hrow'
    cases hrow'
    rw [howns] at hnot
    cases hnot

/-- An attempt that was marked is rejected. -/
theorem Tracks.reject (h : Tracks (σ.view j) s) {job : JobRecord} {run : RunRecord} {jobs : Jobs}
    {runs : Runs} {lastError : Option String} {finalization : AttemptFinalization}
    (hbefore : (σ.phase w).stake j = .begun job) (hjob : run.jobId = j) (hattempt : run.attempt = job.nextAttempt)
    (hstatus : run.status = .failed) (hfinished : run.finishedAt.isSome = true)
    (hnew : σ.db.runs.find? run.id = none) (hrejects : a.rejects = true)
    (hfinalize : finalizeAttempt σ.db.jobs σ.db.runs run .failed lastError none w
      = .ok (finalization, jobs, runs))
    (hphase : phase.stake j = .none) :
  ∃ s', Tracks ((σ.after w { σ.db with jobs := jobs, runs := runs } phase events).view j) s'
    ∧ TaskStep a s s'
  := by
  obtain ⟨hstage, hseen, hruns, hcount, hbudget, hothers⟩ := h.of_begun hbefore
  obtain ⟨row, hrow, hcolumns⟩ := row_of_view hseen
  simp only [JobRecord.retryColumns, RetryColumns.mk.injEq] at hcolumns
  obtain ⟨hrunning, howner, hattempts, hretries⟩ := hcolumns
  have hnumber : run.attempt = s.outcomes.length + 1 := by
    rw [hattempt, JobRecord.nextAttempt, hcount]
  have howns : row.ownsAttempt w run.attempt = true := by
    simp [JobRecord.ownsAttempt, howner, hrunning, hattempts, hnumber]
  subst hjob
  obtain ⟨hreleased, hrun⟩ := released_of_finalizeAttempt hfinalize hrow howns hfinished
  use ⟨.ended, s.budget, s.outcomes ++ [.failed]⟩
  constructor
  · rw [view_after, hphase]
    apply Tracks.ended
    · dsimp only
      rw [hreleased]
      simp [JobRecord.retryColumns, JobRecord.release, hattempts, hretries, RunStatus.toJobStatus]
    · rfl
    · dsimp only
      rw [runsOf_finalizeRun_new hrun hnew, ← hstatus]
      apply hruns.concat run hnumber
    · apply free_update hothers
  · right
    use .refuse .failed
    simp [Retry.step, hstage, Action.Does, hrejects]

/-- An attempt whose run was inserted is finalized. -/
theorem Tracks.finish (h : Tracks (σ.view j) s) {job : JobRecord} {startedAt : Instant}
    {runId : Id} {run : RunRecord} {jobs : Jobs} {runs : Runs} {lastError : Option String}
    {dueAt : Option Instant} {finalization : AttemptFinalization} (hid : run.id = runId)
    (hjob : run.jobId = j) (hattempt : run.attempt = job.nextAttempt)
    (hterminal : run.status.isTerminal = true) (hfinished : run.finishedAt.isSome = true)
    (hrejects : a.rejects = false)
    (hfinalize : finalizeAttempt σ.db.jobs σ.db.runs run (finishedJobStatus job run.status)
      lastError dueAt w = .ok (finalization, jobs, runs))
    (hbefore : (σ.phase w).stake j = .opened job startedAt runId)
    (hphase : phase.stake j = .none) :
  ∃ s', Tracks ((σ.after w { σ.db with jobs := jobs, runs := runs } phase events).view j) s'
    ∧ TaskStep a s s'
  := by
  obtain ⟨hstage, hseen, ⟨ended, hruns, hended⟩, hcount, hbudget, hothers⟩ := h.of_opened hbefore
  obtain ⟨row, hrow, hcolumns⟩ := row_of_view hseen
  simp only [JobRecord.retryColumns, RetryColumns.mk.injEq] at hcolumns
  obtain ⟨hrunning, howner, hattempts, hretries⟩ := hcolumns
  have hnumber : run.attempt = s.outcomes.length + 1 := by
    rw [hattempt, JobRecord.nextAttempt, hcount]
  have howns : row.ownsAttempt w run.attempt = true := by
    simp [JobRecord.ownsAttempt, howner, hrunning, hattempts, hnumber]
  subst hjob
  obtain ⟨hreleased, hrun⟩ := released_of_finalizeAttempt hfinalize hrow howns hfinished
  have hrecords : Records (runsOf runs run.jobId) (s.outcomes ++ [run.status]) := by
    rw [runsOf_finalizeRun_last hrun hruns hid.symm]
    apply hended.concat run hnumber
  have hretry : GoblinKing.retrying job run.status
      = (run.status.repeatable && decide (s.outcomes.length + 1 ≤ s.budget)) := by
    rw [GoblinKing.retrying, RunStatus.repeatable, JobRecord.nextAttempt, hcount, hbudget]
  rw [finishedJobStatus, hretry] at hreleased
  use ⟨Retry.settled RunStatus.repeatable s run.status, s.budget, s.outcomes ++ [run.status]⟩
  constructor
  · rw [view_after, hphase, Retry.settled]
    split
    case isTrue hagain =>
      rw [if_pos hagain] at hreleased
      apply Tracks.retrying
      · dsimp only
        rw [hreleased]
        simp [JobRecord.retryColumns, JobRecord.release, hattempts, hretries]
      · apply hrecords
      · apply free_update hothers
    case isFalse hfinal =>
      rw [if_neg hfinal] at hreleased
      apply Tracks.ended
      · dsimp only
        rw [hreleased]
        simp [JobRecord.retryColumns, JobRecord.release, hattempts, hretries]
      · apply hterminal
      · apply hrecords
      · apply free_update hothers
  · right
    use .settle run.status
    simp [Retry.step, hstage, Action.Does, hrejects]

/-! ### Stakes of phases -/

/-- A scheduler that has marked the job stands before the run of the attempt. -/
theorem phase_of_stake_begun {before : Phase} {job : JobRecord} (h : before.stake j = .begun job) :
  job.id = j ∧ ∃ now startedAt jobs, before = .marked now job startedAt jobs
  := by
  have hclaimed : ∀ jobs, claimedStake jobs j ≠ .begun job := by
    intro jobs hjobs
    rcases claimedStake_cases jobs j with h | ⟨_, -, h⟩ <;> simp [h] at hjobs
  cases before with
  | marked now job' startedAt jobs =>
      rw [Phase.stake] at h
      split at h
      case isTrue hid =>
        cases h
        exact ⟨hid, now, startedAt, jobs, rfl⟩
      case isFalse => cases hclaimed _ h
  | _ =>
      simp only [Phase.stake] at h
      try split at h
      all_goals first | cases h | cases hclaimed _ h

/-- A scheduler that has inserted the run of the attempt is executing it. -/
theorem phase_of_stake_opened {before : Phase} {job : JobRecord} {startedAt : Instant} {runId : Id}
    (h : before.stake j = .opened job startedAt runId) :
  job.id = j ∧ ∃ now jobs, before = .started now job startedAt runId jobs
  := by
  have hclaimed : ∀ jobs, claimedStake jobs j ≠ .opened job startedAt runId := by
    intro jobs hjobs
    rcases claimedStake_cases jobs j with h | ⟨_, -, h⟩ <;> simp [h] at hjobs
  cases before with
  | started now job' startedAt' runId' jobs =>
      rw [Phase.stake] at h
      split at h
      case isTrue hid =>
        cases h
        exact ⟨hid, now, jobs, rfl⟩
      case isFalse => cases hclaimed _ h
  | _ =>
      simp only [Phase.stake] at h
      try split at h
      all_goals first | cases h | cases hclaimed _ h

/-- A scheduler that has no attempt of the job under way. -/
def Stake.calm : Stake → Prop
  | .none | .claimed _ => True
  | .begun _ | .opened _ _ _ | .astray => False

/-- Marking a job leaves the rows of others. -/
theorem find?_tryMarkJobRunning_of_ne {jobs jobs' : Jobs} {jobId : Id} {attempt : ℕ} {marked : Bool}
    (h : tryMarkJobRunning jobs jobId attempt w = (marked, jobs')) (hj : jobId ≠ j) :
  jobs'.find? j = jobs.find? j
  := by
  have hmarked := find?_tryMarkJobRunning jobs jobId attempt w j
  rw [h] at hmarked
  rw [hmarked]
  cases hfind : jobs.find? j with
  | none => rfl
  | some row =>
      rw [Option.map_some, if_neg]
      rintro ⟨rfl, -⟩
      apply hj (Table.key_of_find? hfind)

/-- A scheduler that has no attempt of the job under way has another job, or has finalized its
attempt. -/
theorem not_current_of_calm {before : Phase} {job : JobRecord} (h : (before.stake j).calm)
    (hcurrent : before.current = some job)
    (hfinalized : ∀ now jobs, before ≠ .finalized now job jobs) :
  job.id ≠ j
  := by
  rintro rfl
  cases before <;> cases hcurrent <;> simp [Phase.stake, Stake.calm] at h hfinalized

/-- A step of a scheduler that has no attempt of the job under way. -/
theorem Tracks.of_calm (h : Tracks (σ.view j) s) {action : SchedulerAction}
    (hstep : schedulerStep env config w σ.db (σ.phase w) action = some (db, phase, events))
    (hsound : (σ.phase w).Sound) (hcalm : ((σ.phase w).stake j).calm)
    (hkept : ∀ now, σ.phase w = .due now [] →
      ∀ row ∈ claimSelection σ.db.jobs now config.claimLimit, row.id = j →
        row.status.isActive = false)
    (hraise : ∀ error, action = .raise error → ∀ job, (σ.phase w).current = some job →
      job.id ≠ j) :
  ∃ s', Tracks ((σ.after w db phase events).view j) s' ∧ TaskStep a s s'
  := by
  have hcases := workerStep_of_schedulerStep hstep
  generalize hbefore : σ.phase w = before at hstep hsound hcalm hkept hraise hcases
  have hquiet : db.jobs.find? j = σ.db.jobs.find? j → runsOf db.runs j = runsOf σ.db.runs j →
      phase.stake j = before.stake j
        ∨ (phase.stake j = .none ∧ ∃ job, before.stake j = .claimed job) →
      ∃ s', Tracks ((σ.after w db phase events).view j) s' ∧ TaskStep a s s' := by
    intro hrow hruns hstake
    rw [← hbefore] at hstake
    apply h.quiet_after hrow hruns hstake
  cases hcases
  case begin => exact hquiet rfl rfl (.inl rfl)
  case beginRaised => exact hquiet rfl rfl (.inl rfl)
  case rejected => exact hquiet rfl rfl (.inl rfl)
  case unregistered => exact hquiet rfl rfl (.inl rfl)
  case advance => exact hquiet rfl rfl (.inl rfl)
  case advanceRaised => exact hquiet rfl rfl (.inl rfl)
  case overProject => exact hquiet rfl rfl (.inl rfl)
  case withinProject => exact hquiet rfl rfl (.inl rfl)
  case overKind => exact hquiet rfl rfl (.inl rfl)
  case finishPass => exact hquiet rfl rfl (.inl rfl)
  case emitted => exact hquiet rfl rfl (.inl rfl)
  case badPolicy => exact hquiet rfl rfl (stake_of_givenUp _ rfl rfl)
  case noLease => exact hquiet rfl rfl (stake_of_givenUp _ rfl rfl)
  case returnJob =>
    apply hquiet rfl rfl
    left
    simp [Phase.stake, Phase.pending]
  case returnWithinKind =>
    apply hquiet rfl rfl
    left
    simp [Phase.stake, Phase.pending]
  case enterLeases =>
    apply hquiet rfl rfl
    left
    simp [Phase.stake, Phase.pending]
  case materialize hkind hjob hsave =>
    have hfind := Table.find?_insert? hsave j
    split at hfind
    case isTrue hid =>
      have hnone : σ.db.jobs.find? j = none := by
        rw [← hid]
        apply Table.find?_of_insert? hsave
      apply h.insert (submitted_materializedJob hjob)
      · simp [System.view, hnone]
      · rw [view_after]
        dsimp only
        rw [hfind]
        rfl
      · rw [view_after]
        rfl
      · intro u hu
        rw [view_after]
        dsimp only
        by_cases hw : u = w
        · rw [hw, Function.update_self]
          rfl
        · rw [Function.update_of_ne hw, hu]
    case isFalse => exact hquiet hfind rfl (.inl rfl)
  case claim hclaim =>
    apply h.claim hclaim (hkept _ rfl)
    rw [hbefore]
    rfl
  case defer now job message claimed runnable =>
    by_cases hid : job.id = j
    · subst hid
      obtain ⟨hself, hnone⟩ := claimedStake_append_cons_self (hsound.nodup.sublist
        ((List.sublist_append_right _ _).map JobRecord.id))
      apply h.defer rfl
      · rw [hbefore]
        apply hself
      · apply hnone
    · refine hquiet ?_ rfl ?_
      · apply find?_finishJob_of_ne hid
      · left
        symm
        apply claimedStake_append_cons_of_ne hid
  case mark now startedAt job jobs jobsTable hmark =>
    by_cases hid : job.id = j
    · apply h.mark hid hmark
      · rw [hbefore, ← hid]
        apply claimedStake_cons_self
      · simp [Phase.stake, hid]
    · refine hquiet ?_ rfl ?_
      · apply find?_tryMarkJobRunning_of_ne hmark hid
      · left
        simp only [Phase.stake, if_neg hid]
        symm
        apply claimedStake_append_cons_of_ne hid []
  case superseded now job jobs jobsTable hmark =>
    refine hquiet (find?_of_not_marked hmark j) rfl ?_
    apply stake_of_dropped [] jobs rfl rfl hsound.nodup
  case start now startedAt job jobs runId runs hinsert =>
    have hid : job.id ≠ j := not_current_of_calm hcalm rfl (by simp)
    refine hquiet rfl ?_ ?_
    · have hjob : (runningRun job runId startedAt).jobId ≠ j := hid
      rw [runsOf_insert? hinsert, if_neg hjob, List.append_nil]
    · left
      simp [Phase.stake, hid]
  case reject now startedAt finishedAt job jobs runId validationError finalization jobsTable runs
      hnew hfinalize =>
    have hid : job.id ≠ j := not_current_of_calm hcalm rfl (by simp)
    obtain ⟨hrow, hruns⟩ := find?_of_finalizeAttempt_of_ne hfinalize hid
    refine hquiet hrow hruns ?_
    left
    simp [Phase.stake, Phase.pending, hid]
  case finish now startedAt finishedAt job jobs runId result elapsed lastError dueAt run
      finalization jobsTable runs hrun hfinalize houtcome =>
    have hid : job.id ≠ j := not_current_of_calm hcalm rfl (by simp)
    subst hrun
    obtain ⟨hrow, hruns⟩ := find?_of_finalizeAttempt_of_ne hfinalize hid
    refine hquiet hrow hruns ?_
    left
    simp [Phase.stake, Phase.pending, hid]
  case finishLost now startedAt finishedAt job jobs runId result elapsed lastError dueAt run
      finalization jobsTable runs hrun hfinalize houtcome =>
    have hid : job.id ≠ j := not_current_of_calm hcalm rfl (by simp)
    subst hrun
    obtain ⟨hrow, hruns⟩ := find?_of_finalizeAttempt_of_ne hfinalize hid
    refine hquiet hrow hruns ?_
    left
    simp [Phase.stake, Phase.pending, hid]
  case raiseFinalized now job jobs error =>
    have hid : job.id ≠ j := by
      cases action <;> simp only [schedulerStep, reduceCtorEq, Option.some.injEq, Prod.mk.injEq,
        false_and, and_false] at hstep
      apply hraise _ rfl job rfl
    refine hquiet rfl rfl ?_
    left
    simp [Phase.stake, Phase.pending, hid]
  case reconcile now job current latest jobs =>
    have hid : job.id ≠ j := not_current_of_calm hcalm rfl (by simp)
    refine hquiet (find?_finishJob_of_ne ?_) rfl ?_
    · rw [hsound.inspected job current rfl rfl]
      apply hid
    · left
      simp [Phase.stake, Phase.pending, hid]
  case fail now startedAt finishedAt job current error runningRun jobs runId run finalization
      jobsTable runs hnew hrun hfinalize =>
    have hid : job.id ≠ j := not_current_of_calm hcalm rfl (by simp)
    have hjob : run.jobId ≠ j := by
      rw [hrun]
      intro hrunJob
      apply hid
      rw [← hrunJob]
      apply (hsound.inspected job current rfl rfl).symm
    obtain ⟨hrow, hruns⟩ := find?_of_finalizeAttempt_of_ne hfinalize hjob
    refine hquiet hrow hruns ?_
    left
    simp [Phase.stake, Phase.pending, hid]
  -- the pass ends, and the jobs that are still claimed are given up
  case disappeared now job error error' jobs hnone =>
    have hid : job.id ≠ j := not_current_of_calm hcalm rfl (by simp)
    apply hquiet rfl rfl
    apply stake_of_givenUp jobs (by simp [Phase.stake, hid]) rfl
  case failedPolicy now job current error error' jobs runningRun hruns hpolicy =>
    have hid : job.id ≠ j := not_current_of_calm hcalm rfl (by simp)
    apply hquiet rfl rfl
    apply stake_of_givenUp jobs (by simp [Phase.stake, hid]) rfl
  case failRaised now startedAt finishedAt job current error error' runningRun jobs runId run hnew
      hrun hfinalize =>
    have hid : job.id ≠ j := not_current_of_calm hcalm rfl (by simp)
    apply hquiet rfl rfl
    apply stake_of_givenUp jobs (by simp [Phase.stake, hid]) rfl
  -- the attempt of another job goes on
  all_goals
    have hid := not_current_of_calm hcalm rfl (by simp)
    apply hquiet rfl rfl
    left
    simp [Phase.stake, Phase.pending, hid]

/-- A step of a scheduler is a step of the task, or none, unless it takes the lease of the job
away or raises within an attempt of it. -/
theorem Tracks.of_schedulerStep (h : Tracks (σ.view j) s) {action : SchedulerAction}
    (hstep : schedulerStep env config w σ.db (σ.phase w) action = some (db, phase, events))
    (hsound : (σ.phase w).Sound)
    (hkept : ∀ now, σ.phase w = .due now [] →
      ∀ row ∈ claimSelection σ.db.jobs now config.claimLimit, row.id = j →
        row.status.isActive = false)
    (hraise : ∀ error, action = .raise error → ∀ job, (σ.phase w).current = some job →
      job.id ≠ j) :
  ∃ s', Tracks ((σ.after w db phase events).view j) s' ∧ TaskStep (.scheduler w action) s s'
  := by
  cases hstake : (σ.phase w).stake j with
  | none =>
      apply h.of_calm hstep hsound _ hkept hraise
      rw [hstake]
      trivial
  | claimed job =>
      apply h.of_calm hstep hsound _ hkept hraise
      rw [hstake]
      trivial
  | astray => cases h.stake_ne_astray w hstake
  | begun job =>
      obtain ⟨hid, now, startedAt, jobs, hphase⟩ := phase_of_stake_begun hstake
      obtain ⟨-, hseen, -⟩ := h.of_begun hstake
      obtain ⟨row, hrow, -⟩ := row_of_view hseen
      have hnone : (Phase.finalized now job jobs).stake j = .none := by
        have hcurrent : (σ.phase w).current = some job := by
          rw [hphase]
          rfl
        have hpending := claimedStake_of_current hsound hcurrent
        rw [hphase, hid] at hpending
        apply hpending
      rw [hphase] at hstep hraise
      have hnot : ∀ error, action ≠ .raise error :=
        fun error herror => hraise error herror job rfl hid
      rw [← hid] at hrow
      rcases of_schedulerStep_marked hstep hnot hrow with
        ⟨runId, runs, hinsert, rfl, rfl⟩
        | ⟨runId, finishedAt, validationError, finalization, jobsTable, runs, hrejects, hnew,
          hfinalize, rfl, rfl⟩
      · apply h.start hid hinsert hstake
        simp [Phase.stake, hid]
      · apply h.reject (a := .scheduler w action) hstake hid rfl rfl rfl hnew hrejects hfinalize hnone
  | opened job startedAt runId =>
      obtain ⟨hid, now, jobs, hphase⟩ := phase_of_stake_opened hstake
      obtain ⟨-, hseen, ⟨ended, hruns, -⟩, hcount, -⟩ := h.of_opened hstake
      obtain ⟨row, hrow, hcolumns⟩ := row_of_view hseen
      have hnone : (Phase.finalized now job jobs).stake j = .none := by
        have hcurrent : (σ.phase w).current = some job := by
          rw [hphase]
          rfl
        have hpending := claimedStake_of_current hsound hcurrent
        rw [hphase, hid] at hpending
        apply hpending
      rw [hphase] at hstep hraise
      have hnot : ∀ error, action ≠ .raise error :=
        fun error herror => hraise error herror job rfl hid
      have howns : row.ownsAttempt w job.nextAttempt = true := by
        simp only [JobRecord.retryColumns, RetryColumns.mk.injEq] at hcolumns
        simp [JobRecord.ownsAttempt, hcolumns, JobRecord.nextAttempt, hcount]
      have hrun : σ.db.runs.find? runId = some (runningRun job runId startedAt) := by
        have hmem : runningRun job runId startedAt ∈ (σ.view j).runs := by
          rw [hruns]
          simp
        apply Table.find?_of_mem (List.mem_filter.mp hmem).1
      rw [← hid] at hrow
      obtain ⟨run, lastError, dueAt, finalization, jobsTable, runs, hrejects, hrunId, hlineage,
        hterminal, hfinished, hfinalize, rfl, rfl⟩ :=
        of_schedulerStep_started hstep hnot hrow howns hrun
      simp only [RunRecord.lineage, runningRun, Prod.mk.injEq] at hlineage
      apply h.finish (a := .scheduler w action) hrunId (hlineage.1.trans hid) hlineage.2.2.2 hterminal hfinished hrejects
        hfinalize hstake hnone

end

/-! ### Runs of the system -/

section

variable {env : Environment} {config : WorkerId → SchedulerConfig} {σ τ : System} {a : Action}
  {j : Id} {s : Retry.State WorkerId RunStatus}

/-- A scheduler that does not take the job over claims no active row of it. -/
theorem of_not_takesOver {w : WorkerId} (h : takesOver config j σ w = false) (now : Instant)
    (hphase : σ.phase w = .due now []) :
  ∀ row ∈ claimSelection σ.db.jobs now (config w).claimLimit, row.id = j →
    row.status.isActive = false
  := by
  intro row hrow hid
  simp only [takesOver, hphase, List.any_eq_false, Bool.and_eq_true, decide_eq_true_eq] at h
  simpa [hid] using h row hrow

/-- An exception that is not raised within an attempt of the job. -/
theorem of_not_raisesWithin {w : WorkerId} {action : SchedulerAction}
    (h : raisesWithin j σ w action = false) (error : String) (hraise : action = .raise error)
    (job : JobRecord) (hcurrent : (σ.phase w).current = some job) :
  job.id ≠ j
  := by
  simpa [raisesWithin, hraise, hcurrent] using h

/-- An keepsAttempts step is a step of the task, or none. -/
theorem Tracks.step (h : Tracks (σ.view j) s) (hsound : SoundPhases σ)
    (hguard : keepsAttempts config j σ a = true) (hstep : step env config σ a = some τ) :
  ∃ s', Tracks (τ.view j) s' ∧ TaskStep a s s'
  := by
  have hsame : τ.db.jobs.find? j = σ.db.jobs.find? j → τ.db.runs = σ.db.runs →
      τ.phase = σ.phase → ∃ s', Tracks (τ.view j) s' ∧ TaskStep a s s' := by
    intro hjobs hruns hphase
    use s
    constructor
    · rw [System.view, hjobs, hruns, hphase]
      apply h
    · left
      rfl
  cases a with
  | submit job =>
      simp only [GoblinKing.step] at hstep
      split_ifs at hstep with hsubmitted
      obtain ⟨jobs, hsave, rfl⟩ := Option.map_eq_some_iff.mp hstep
      have hfind := Table.find?_insert? hsave j
      split at hfind
      case isTrue hid =>
        have hnone : σ.db.jobs.find? j = none := by
          rw [← hid]
          apply Table.find?_of_insert? hsave
        refine h.insert hsubmitted ?_ ?_ rfl (fun _ hu => hu)
        · simp [System.view, hnone]
        · simp [System.view, hfind]
      case isFalse => apply hsame hfind rfl rfl
  | cancel jobId =>
      cases hstep
      apply hsame _ rfl rfl
      dsimp only
      rw [find?_tryCancelJob]
      cases hfind : σ.db.jobs.find? j with
      | none => rfl
      | some row =>
          rw [Option.map_some, if_neg]
          rintro ⟨hid, -⟩
          simp only [keepsAttempts, decide_eq_true_eq] at hguard
          apply hguard (hid.symm.trans (Table.key_of_find? hfind))
  | renew w jobId leaseUntil =>
      cases hstep
      use s
      constructor
      · have hcolumns : ((tryRenewJobLease σ.db.jobs jobId w leaseUntil).2.find? j).map
            JobRecord.retryColumns = (σ.db.jobs.find? j).map JobRecord.retryColumns := by
          rw [find?_tryRenewJobLease, Option.map_map]
          congr 1
          funext row
          rw [Function.comp_apply]
          split <;> rfl
        simp only [System.view, hcolumns]
        apply h
      · left
        rfl
  | cleanup projectId => cases hguard
  | create kinds request projectId scheduleId createdAt =>
      simp only [GoblinKing.step] at hstep
      split at hstep
      · cases hstep
      · cases hstep
        apply hsame rfl rfl rfl
  | readPatch requestId scheduleId request =>
      obtain ⟨hdb, hphase, -⟩ := readPatch_frame hstep
      apply hsame (by rw [hdb]) (by rw [hdb]) hphase
  | writePatch requestId now =>
      obtain ⟨hjobs, hruns, hphase, -⟩ := writePatch_frame hstep
      apply hsame (by rw [hjobs]) hruns hphase
  | scheduler w action =>
      simp only [GoblinKing.step, Option.map_eq_some_iff] at hstep
      obtain ⟨⟨db, phase, events⟩, hstep, rfl⟩ := hstep
      simp only [keepsAttempts, Bool.and_eq_true, Bool.not_eq_true'] at hguard
      apply h.of_schedulerStep hstep (hsound w) (of_not_takesOver hguard.1)
        (of_not_raisesWithin hguard.2)

/-- Before the first step there is no task. -/
theorem tracks_init (j : Id) : Tracks (System.init.view j) Retry.init
  := Tracks.absent rfl rfl (fun _ => rfl)

/-- A run that keeps the attempts of a job is a run of its task. -/
theorem tracks_of_path
    (h : Transition.Path (step env config) (fun σ a => keepsAttempts config j σ a = true)
      System.init σ) :
  ∃ s, (SoundPhases σ ∧ Tracks (σ.view j) s)
    ∧ Transition.Reaches (Retry.step RunStatus.repeatable) Retry.init s
  := by
  apply h.simulation (R := fun σ s => SoundPhases σ ∧ Tracks (σ.view j) s) _
    ⟨soundPhases_init, tracks_init j⟩
  rintro σ a τ s ⟨hsound, htracks⟩ hguard hstep
  obtain ⟨s', hs', rfl | ⟨b, hb, -⟩⟩ := htracks.step hsound hguard hstep
  · use s', ⟨hsound.step hstep, hs'⟩, Transition.Path.refl s'
  · use s', ⟨hsound.step hstep, hs'⟩, Transition.Reaches.single hb

end

/-! ### What the task says of the job -/

/-- The status of the job of a task. -/
def taskStatus (s : Retry.State WorkerId RunStatus) : Option JobStatus :=
  match s.stage with
  | .absent => none
  | .queued => some .queued
  | .retrying => some .retrying
  | .leased _ => some .leased
  | .begun _ | .opened _ => some .running
  | .ended => s.outcomes.getLast?.map RunStatus.toJobStatus

/-- The number of attempts that were begun. -/
def taskAttempts (s : Retry.State WorkerId RunStatus) : ℕ :=
  match s.stage with
  | .begun _ | .opened _ => s.outcomes.length + 1
  | _ => s.outcomes.length

/-- The statuses of the runs of the job of a task. -/
def taskRuns (s : Retry.State WorkerId RunStatus) : List RunStatus :=
  match s.stage with
  | .opened _ => s.outcomes ++ [.running]
  | _ => s.outcomes

/-- The last of the runs of finished attempts. -/
theorem Records.getLast? {runs : List RunRecord} {outcomes : List RunStatus} {outcome : RunStatus}
    (h : Records runs (outcomes ++ [outcome])) :
  ∃ run, runs.getLast? = some run ∧ run.status = outcome ∧ run.attempt = outcomes.length + 1
  := by
  have hstatus := congrArg List.getLast? h.statuses
  have hattempt := congrArg List.getLast? h.attempts
  rw [List.length_append, List.length_singleton, List.range'_1_concat, List.getLast?_map,
    List.getLast?_concat] at hattempt
  rw [List.getLast?_map, List.getLast?_concat] at hstatus
  obtain ⟨run, hrun, rfl⟩ := Option.map_eq_some_iff.mp hstatus
  rw [hrun, Option.map_some, Option.some.injEq] at hattempt
  use run, hrun, rfl
  omega

/-- The runs of finished attempts are listed in the order of their insertion. -/
theorem Records.listJobRuns {runs : Runs} {j : Id} {outcomes : List RunStatus}
    (h : Records (runsOf runs j) outcomes) :
  listJobRuns runs j = runsOf runs j
  := by
  have hsorted : ((runsOf runs j).map RunRecord.attempt).Pairwise (· ≤ ·) := by
    rw [h.attempts]
    apply List.pairwise_le_range'
  apply (List.pairwise_map.mp hsorted).insertionSort_eq

section

variable {v : JobView} {s : Retry.State WorkerId RunStatus}

/-- The runs that are seen are those of the task. -/
theorem Tracks.records (h : Tracks v s) : Records v.runs (taskRuns s)
  := by
  cases h with
  | absent _ hruns =>
      rw [hruns]
      constructor <;> rfl
  | queued _ hruns => apply hruns
  | retrying _ hruns => apply hruns
  | leased _ hruns => apply hruns
  | begun _ hruns => apply hruns
  | @opened _ outcomes _ job startedAt runId _ _ hruns hended _ hjob =>
      rw [hruns]
      apply hended.concat (runningRun job runId startedAt)
      change job.attemptCount + 1 = outcomes.length + 1
      rw [hjob.1]
  | ended _ _ hruns => apply hruns

/-- The row that is seen is that of the task. -/
theorem Tracks.columns (h : Tracks v s) {columns : RetryColumns} (hrow : v.row = some columns) :
  taskStatus s = some columns.status ∧ columns.attemptCount = taskAttempts s
    ∧ columns.maxRetries = s.budget
  := by
  cases h with
  | absent hrow' => simp [hrow] at hrow'
  | queued hrow' =>
      cases hrow.symm.trans hrow'
      exact ⟨rfl, rfl, rfl⟩
  | retrying hrow' =>
      cases hrow.symm.trans hrow'
      exact ⟨rfl, rfl, rfl⟩
  | leased hrow' =>
      cases hrow.symm.trans hrow'
      exact ⟨rfl, rfl, rfl⟩
  | begun hrow' =>
      cases hrow.symm.trans hrow'
      exact ⟨rfl, rfl, rfl⟩
  | opened hrow' =>
      cases hrow.symm.trans hrow'
      exact ⟨rfl, rfl, rfl⟩
  | ended hrow' =>
      cases hrow.symm.trans hrow'
      simp [taskStatus, taskAttempts]

/-- A task that has ended has the terminal status of its last run. -/
theorem Tracks.ended_status (h : Tracks v s) (hstage : s.stage = .ended) :
  ∃ outcomes outcome, s.outcomes = outcomes ++ [outcome] ∧ outcome.isTerminal = true
  := by
  cases h with
  | @ended _ outcomes outcome _ hterminal => use outcomes, outcome, rfl
  | _ => cases hstage

/-- The status of the job of a task is terminal exactly when the task has ended. -/
theorem Tracks.isTerminal_iff (h : Tracks v s) {status : JobStatus}
    (hstatus : taskStatus s = some status) :
  status.isTerminal = true ↔ s.stage = .ended
  := by
  cases hstage : s.stage with
  | ended =>
      obtain ⟨outcomes, outcome, houtcomes, hterminal⟩ := h.ended_status hstage
      simp only [taskStatus, hstage, houtcomes, List.getLast?_concat, Option.map_some,
        Option.some.injEq] at hstatus
      simpa [← hstatus] using hterminal
  | absent => simp [taskStatus, hstage] at hstatus
  | _ =>
      simp only [taskStatus, hstage, Option.some.injEq] at hstatus
      simp [← hstatus, JobStatus.isTerminal]

end

/-! ### The budget -/

/-- The attempts of a job are numbered from 1 without gaps and within its budget; all runs but the
last have failed; and unless an attempt is under way each attempt has a run, and a job that has
ended has the status of the last one. -/
structure WithinBudget (j : Id) (σ : System) (row : JobRecord) : Prop where
  numbered : (listJobRuns σ.db.runs j).map RunRecord.attempt
    = List.range' 1 (listJobRuns σ.db.runs j).length
  attempts_le : row.attemptCount ≤ row.maxRetries + 1
  runs_le : (listJobRuns σ.db.runs j).length ≤ row.attemptCount
  runs_eq : row.status ≠ .running → (listJobRuns σ.db.runs j).length = row.attemptCount
  retried : ∀ run ∈ (listJobRuns σ.db.runs j).dropLast, run.status = .failed
  ended : row.status.isTerminal = true → ∃ run, (listJobRuns σ.db.runs j).getLast? = some run
    ∧ row.status = run.status.toJobStatus

/-- What a step does to the row of a job: it is set to `retrying` only after an attempt, exactly
when the attempt was not rejected and its run has failed within the budget, and else to the
status of its run. A job that has ended is left alone. -/
structure RetriesExactly (j : Id) (σ : System) (a : Action) (τ : System) (row row' : JobRecord) :
    Prop where
  maxRetries_eq : row'.maxRetries = row.maxRetries
  of_retrying : row'.status = .retrying → row.status = .retrying ∨ row.status = .running
  after_attempt : row.status = .running → row'.status ≠ .running →
    ∃ run, (listJobRuns τ.db.runs j).getLast? = some run ∧ run.attempt = row'.attemptCount
      ∧ (row'.status = .retrying
        ↔ a.rejects = false ∧ run.status = .failed ∧ run.attempt ≤ row'.maxRetries)
      ∧ (row'.status ≠ .retrying → row'.status = run.status.toJobStatus)
  ended : row.status.isTerminal = true → row'.status = row.status
    ∧ row'.attemptCount = row.attemptCount
    ∧ (listJobRuns τ.db.runs j).map RunRecord.status
      = (listJobRuns σ.db.runs j).map RunRecord.status

section

variable {σ τ : System} {a : Action} {j : Id} {s s' : Retry.State WorkerId RunStatus}
  {row row' : JobRecord}

/-- The runs of a task within its budget are those of a job within its budget. -/
theorem withinBudget_of_tracks (h : Tracks (σ.view j) s)
    (hinvariant : Retry.Invariant RunStatus.repeatable s)
    (hrow : σ.db.jobs.find? j = some row) :
  WithinBudget j σ row
  := by
  have hrecords : Records (runsOf σ.db.runs j) (taskRuns s) := h.records
  have hseen : (σ.view j).row = some row.retryColumns := by
    simp [System.view, hrow]
  obtain ⟨hstatus, hattempts, hretries⟩ := h.columns hseen
  have hlength : (runsOf σ.db.runs j).length = (taskRuns s).length := by
    rw [← hrecords.statuses, List.length_map]
  simp only [JobRecord.retryColumns] at hstatus hattempts hretries
  have hlist := hrecords.listJobRuns
  constructor
  case numbered => rw [hlist, hrecords.attempts, hlength]
  case attempts_le =>
    rw [hattempts, hretries, taskAttempts]
    split
    case h_1 w hstage => apply Nat.succ_le_succ (hinvariant.unended (by simp [hstage])).2
    case h_2 w hstage => apply Nat.succ_le_succ (hinvariant.unended (by simp [hstage])).2
    case h_3 => apply hinvariant.length_le
  case runs_le =>
    rw [hlist, hlength, hattempts, taskRuns, taskAttempts]
    cases s.stage <;> simp
  case runs_eq =>
    intro hnot
    rw [hlist, hlength, hattempts, taskRuns, taskAttempts]
    rw [taskStatus] at hstatus
    cases hstage : s.stage with
    | begun w => simp [hstage, hnot.symm] at hstatus
    | opened w => simp [hstage, hnot.symm] at hstatus
    | _ => simp
  case retried =>
    intro run hrun
    have hmem : run.status ∈ (taskRuns s).dropLast := by
      rw [← hrecords.statuses, ← List.map_dropLast]
      rw [hlist] at hrun
      apply List.mem_map_of_mem hrun
    have hrepeatable : run.status.repeatable = true := by
      rw [taskRuns] at hmem
      split at hmem
      case h_1 w hstage =>
        rw [List.dropLast_concat] at hmem
        apply (hinvariant.unended (by simp [hstage])).1 _ hmem
      case h_2 => apply hinvariant.repeated _ hmem
    simpa [RunStatus.repeatable] using hrepeatable
  case ended =>
    intro hterminal
    have hstage := (h.isTerminal_iff hstatus).mp hterminal
    obtain ⟨outcomes, outcome, houtcomes, -⟩ := h.ended_status hstage
    have hruns : taskRuns s = outcomes ++ [outcome] := by
      rw [taskRuns, hstage, houtcomes]
    rw [hruns] at hrecords
    obtain ⟨run, hlast, hrunStatus, -⟩ := hrecords.getLast?
    rw [hlist]
    use run, hlast
    rw [taskStatus, hstage, houtcomes, List.getLast?_concat, Option.map_some,
      Option.some.injEq] at hstatus
    rw [← hstatus, hrunStatus]

/-- A task whose job is set to `retrying` waits for a repetition. -/
theorem stage_of_taskStatus_retrying (h : taskStatus s = some .retrying) :
  s.stage = .retrying
  := by
  cases hstage : s.stage with
  | retrying => rfl
  | ended =>
      simp only [taskStatus, hstage, Option.map_eq_some_iff] at h
      obtain ⟨outcome, -, houtcome⟩ := h
      cases outcome <;> cases houtcome
  | _ => simp [taskStatus, hstage] at h

/-- A step of the task that leaves the stage of an attempt ends the attempt: it is settled, or
refused. -/
theorem attempt_of_taskStep (h : TaskStep a s s') (hs : taskStatus s = some .running)
    (hunended : s.stage ≠ .ended) (hs' : taskStatus s' ≠ some .running) :
  ∃ outcome, s'.outcomes = s.outcomes ++ [outcome] ∧ s'.budget = s.budget
    ∧ ((a.rejects = false ∧ s'.stage = Retry.settled RunStatus.repeatable s outcome)
      ∨ (a.rejects = true ∧ outcome = .failed ∧ s'.stage = .ended))
  := by
  rcases h with rfl | ⟨b, hb, hdoes⟩
  · cases hs' hs
  · cases hstage : s.stage with
    | begun w =>
        rcases Retry.of_step_begun hstage hb with ⟨-, rfl⟩ | ⟨outcome, rfl, rfl⟩
        · cases hs' rfl
        · use outcome, rfl, rfl
          right
          exact ⟨hdoes.1, hdoes.2, rfl⟩
    | opened w =>
        obtain ⟨outcome, rfl, rfl⟩ := Retry.of_step_opened hstage hb
        use outcome, rfl, rfl
        left
        exact ⟨hdoes, rfl⟩
    | ended => cases hunended hstage
    | _ => simp [taskStatus, hstage] at hs

/-- A step of the task that its job follows does to the row what a step should. -/
theorem retriesExactly_of_tracks (h : Tracks (σ.view j) s) (h' : Tracks (τ.view j) s')
    (hstep : TaskStep a s s') (hrow : σ.db.jobs.find? j = some row)
    (hrow' : τ.db.jobs.find? j = some row') :
  RetriesExactly j σ a τ row row'
  := by
  have hseen : (σ.view j).row = some row.retryColumns := by
    simp [System.view, hrow]
  have hseen' : (τ.view j).row = some row'.retryColumns := by
    simp [System.view, hrow']
  obtain ⟨hstatus, hattempts, hretries⟩ := h.columns hseen
  obtain ⟨hstatus', hattempts', hretries'⟩ := h'.columns hseen'
  simp only [JobRecord.retryColumns] at hstatus hattempts hretries hstatus' hattempts' hretries'
  have hrecords : Records (runsOf σ.db.runs j) (taskRuns s) := h.records
  have hrecords' : Records (runsOf τ.db.runs j) (taskRuns s') := h'.records
  have hpresent : s.stage ≠ .absent := by
    intro habsent
    simp [taskStatus, habsent] at hstatus
  have hbudget : s'.budget = s.budget := by
    rcases hstep with rfl | ⟨b, hb, -⟩
    · rfl
    · apply Retry.budget_eq_of_step hb hpresent
  constructor
  case maxRetries_eq => rw [hretries', hbudget, hretries]
  case of_retrying =>
    intro hretrying
    rw [hretrying] at hstatus'
    have hstage' := stage_of_taskStatus_retrying hstatus'
    rcases hstep with rfl | ⟨b, hb, -⟩
    · left
      rw [hstatus, Option.some.injEq] at hstatus'
      apply hstatus'
    · right
      obtain ⟨w, hstage⟩ := Retry.of_step_retrying hb hstage'
      simp only [taskStatus, hstage, Option.some.injEq] at hstatus
      apply hstatus.symm
  case after_attempt =>
    intro hrunning hnot
    have hunended : s.stage ≠ .ended := by
      intro hended
      have hterminal := (h.isTerminal_iff hstatus).mpr hended
      rw [hrunning] at hterminal
      cases hterminal
    rw [hrunning] at hstatus
    have hnot' : taskStatus s' ≠ some .running := by
      rw [hstatus']
      simpa using hnot
    obtain ⟨outcome, houtcomes, -, hcases⟩ := attempt_of_taskStep hstep hstatus hunended hnot'
    have hfinished : taskRuns s' = s.outcomes ++ [outcome]
        ∧ taskAttempts s' = s.outcomes.length + 1 := by
      rw [taskRuns, taskAttempts, houtcomes]
      cases hstage' : s'.stage with
      | begun w => simp [taskStatus, hstage'] at hnot'
      | opened w => simp [taskStatus, hstage'] at hnot'
      | _ => simp
    rw [hfinished.1] at hrecords'
    obtain ⟨run, hlast, hrun, hattempt⟩ := hrecords'.getLast?
    rw [hrecords'.listJobRuns]
    use run, hlast
    rw [hattempts', hfinished.2, hattempt, hrun, hretries', hbudget]
    use rfl
    have hended : s'.stage = .ended → row'.status = outcome.toJobStatus := by
      intro hstage'
      simpa [taskStatus, hstage', houtcomes, eq_comm] using hstatus'
    rcases hcases with ⟨hrejects, hstage'⟩ | ⟨hrejects, rfl, hstage'⟩
    · rw [Retry.settled, RunStatus.repeatable] at hstage'
      split at hstage'
      case isTrue hagain =>
        have hretrying : row'.status = .retrying := by
          simpa [taskStatus, hstage', eq_comm] using hstatus'
        simp only [Bool.and_eq_true, decide_eq_true_eq] at hagain
        exact ⟨by simp [hretrying, hrejects, hagain], fun hnone => (hnone hretrying).elim⟩
      case isFalse hfinal =>
        have hterminal := hended hstage'
        simp only [Bool.and_eq_true, decide_eq_true_eq, not_and] at hfinal
        refine ⟨?_, fun _ => hterminal⟩
        rw [hterminal]
        constructor
        · intro hretrying
          cases outcome <;> cases hretrying
        · rintro ⟨-, hfailed, hleft⟩
          cases hfinal hfailed hleft
    · have hterminal := hended hstage'
      refine ⟨?_, fun _ => hterminal⟩
      rw [hterminal, hrejects]
      simp [RunStatus.toJobStatus]
  case ended =>
    intro hterminal
    have hstage := (h.isTerminal_iff hstatus).mp hterminal
    obtain rfl : s' = s := by
      rcases hstep with hsame | ⟨b, hb, -⟩
      · apply hsame
      · rw [Retry.step_of_ended hstage] at hb
        cases hb
    rw [hstatus, Option.some.injEq] at hstatus'
    rw [hrecords'.listJobRuns, hrecords.listJobRuns, hrecords'.statuses, hrecords.statuses]
    exact ⟨hstatus'.symm, by rw [hattempts', hattempts], rfl⟩

end

/-- In every state of a run in which the job is not cancelled, its lease is not lost and no
attempt of it raises, its attempts are within its budget; and every further such step sets the
job to `retrying` exactly when it should. -/
theorem retry_budget (env : Environment) (config : WorkerId → SchedulerConfig) (j : Id)
    (σ : System) (h : Transition.Path (step env config)
      (fun σ a => keepsAttempts config j σ a = true) System.init σ) :
  (∀ row, σ.db.jobs.find? j = some row → WithinBudget j σ row)
    ∧ ∀ a τ row row', keepsAttempts config j σ a = true → step env config σ a = some τ →
      σ.db.jobs.find? j = some row → τ.db.jobs.find? j = some row' →
      RetriesExactly j σ a τ row row'
  := by
  obtain ⟨s, ⟨hsound, htracks⟩, hreaches⟩ := tracks_of_path h
  constructor
  · intro row hrow
    apply withinBudget_of_tracks htracks _ hrow
    apply Retry.Invariant.reaches hreaches Retry.invariant_init
  · intro a τ row row' hguard hstep hrow hrow'
    obtain ⟨s', htracks', htask⟩ := htracks.step hsound hguard hstep
    apply retriesExactly_of_tracks htracks htracks' htask hrow hrow'

/-- A job with one retry is claimed and marked running. -/
def markedOnce : List Action :=
  [.submit { id := "a", kind := "report", createdAt := 0, maxRetries := 1 },
    .scheduler "s1" (.begin 10), .scheduler "s1" .tick, .scheduler "s1" .tick,
    .scheduler "s1" .tick, .scheduler "s1" (.mark 11)]

/-- Its first attempt fails, and its second one is completed. -/
def retriedOnce : List Action :=
  markedOnce ++ [.scheduler "s1" (.start "r1"),
    .scheduler "s1" (.finish (.failure "no data") 5 none 20), .scheduler "s1" .tick,
    .scheduler "s1" .tick, .scheduler "s1" (.begin 30), .scheduler "s1" .tick,
    .scheduler "s1" .tick, .scheduler "s1" .tick, .scheduler "s1" (.mark 31),
    .scheduler "s1" (.start "r2"), .scheduler "s1" (.finish ⟨.success, none⟩ 5 none 40)]

/-- A job that is retried once is within its budget. -/
theorem retry_budget_retriedOnce :
  ∃ σ row, sampleRunUnder (keepsAttempts sampleConfig "a") retriedOnce = some σ
    ∧ σ.db.jobs.find? "a" = some row ∧ row.status = .completed ∧ row.attemptCount = 2
    ∧ WithinBudget "a" σ row
  := by
  have hseen : (sampleRunUnder (keepsAttempts sampleConfig "a") retriedOnce).map
      (fun σ => (σ.db.jobs.find? "a").map (fun row => (row.status, row.attemptCount)))
      = some (some (.completed, 2)) := by
    decide +kernel
  obtain ⟨σ, hrun, hseen⟩ := Option.map_eq_some_iff.mp hseen
  obtain ⟨row, hrow, hseen⟩ := Option.map_eq_some_iff.mp hseen
  simp only [Prod.mk.injEq] at hseen
  use σ, row, hrun, hrow, hseen.1, hseen.2
  apply (retry_budget Environment.sample sampleConfig "a" σ
    (Transition.path_of_runUnder hrun)).1 row hrow

/-- The validation rejects the first attempt. -/
def rejectFirst : Action :=
  .scheduler "s1" (.reject "r1" "image is not validated" none 12)

/-- The job whose first attempt the validation rejects has a failed run and a retry left, and is
not retried. -/
theorem rejected_attempt_not_retried :
  ¬ ∀ σ a τ row row' run, Transition.Path (step Environment.sample sampleConfig)
      (fun σ a => keepsAttempts sampleConfig "a" σ a = true) System.init σ →
    keepsAttempts sampleConfig "a" σ a = true → step Environment.sample sampleConfig σ a = some τ →
    σ.db.jobs.find? "a" = some row → τ.db.jobs.find? "a" = some row' →
    row.status = .running → row'.status ≠ .running →
    (listJobRuns τ.db.runs "a").getLast? = some run →
    (row'.status = .retrying ↔ run.status = .failed ∧ run.attempt ≤ row'.maxRetries)
  := by
  intro h
  have hbefore : (sampleRunUnder (keepsAttempts sampleConfig "a") markedOnce).map
      (fun σ => ((σ.db.jobs.find? "a").map JobRecord.status,
        keepsAttempts sampleConfig "a" σ rejectFirst)) = some (some .running, true) := by
    decide +kernel
  obtain ⟨σ, hrun, hσ⟩ := Option.map_eq_some_iff.mp hbefore
  simp only [Prod.mk.injEq] at hσ
  obtain ⟨hσ, hguard⟩ := hσ
  obtain ⟨row, hrow, hrunning⟩ := Option.map_eq_some_iff.mp hσ
  have hafter : (sampleRun (markedOnce ++ [rejectFirst])).map
      (fun τ => ((τ.db.jobs.find? "a").map (fun row => (row.status, row.maxRetries)),
        (listJobRuns τ.db.runs "a").getLast?.map (fun run => (run.status, run.attempt))))
      = some (some (.failed, 1), some (.failed, 1)) := by
    decide +kernel
  obtain ⟨τ, hrun', hτ⟩ := Option.map_eq_some_iff.mp hafter
  have hstep : step Environment.sample sampleConfig σ rejectFirst = some τ := by
    rw [sampleRun, Transition.run_concat, Transition.run_of_runUnder hrun] at hrun'
    apply hrun'
  simp only [Prod.mk.injEq] at hτ
  obtain ⟨row', hrow', hrowSeen⟩ := Option.map_eq_some_iff.mp hτ.1
  obtain ⟨run, hlast, hrunSeen⟩ := Option.map_eq_some_iff.mp hτ.2
  simp only [Prod.mk.injEq] at hrowSeen hrunSeen
  have hiff := h σ rejectFirst τ row row' run (Transition.path_of_runUnder hrun) hguard hstep hrow
    hrow' hrunning (by simp [hrowSeen]) hlast
  simp [hrowSeen, hrunSeen] at hiff

end GoblinKing
