import GoblinKing.Scheduler.System

/-!
# What a step does to the row of a job

Every way in which a transaction of the system changes the row of one job, with what the
transaction has checked in the row and the phase of the scheduler that commits it. The
operations that look at the row before they write are told apart from the two that do not:
putting a job back into the queue, and taking over the status of its latest run.
-/

namespace GoblinKing

/-- A change of the row of job `j` in a step from `σ`, with the scheduler that commits it. -/
inductive JobStep (σ : System) (a : Action) (j : Id) :
    Option JobRecord → Option JobRecord → Prop where
  | keep (row : Option JobRecord) : JobStep σ a j row row
  | insert {job : JobRecord} (hid : job.id = j) (hsubmitted : job.submitted = true) :
      JobStep σ a j none (some job)
  | claim {row : JobRecord} {w : WorkerId} {now leaseUntil : Instant}
      (hworker : a.worker = some w) (hphase : σ.phase w = .due now [])
      (hclaimable : row.claimable now = true) :
      JobStep σ a j (some row) (some (row.lease w leaseUntil))
  | renew {row : JobRecord} {w : WorkerId} {leaseUntil : Instant}
      (hactive : row.status.isActive = true) (howner : row.leaseOwner = some w) :
      JobStep σ a j (some row) (some (row.renew leaseUntil))
  | cancel {row : JobRecord} (hlive : row.status.isTerminal = false) :
      JobStep σ a j (some row) (some row.cancel)
  | mark {row job : JobRecord} {w : WorkerId} {now : Instant} {jobs : List JobRecord}
      (hworker : a.worker = some w) (hphase : σ.phase w = .attempt now (job :: jobs))
      (hid : job.id = j)
      (hleased : row.status = .leased) (howner : row.leaseOwner = some w) :
      JobStep σ a j (some row) (some (row.markRunning job.nextAttempt))
  | finalize {row : JobRecord} {w : WorkerId} {attempt : ℕ} {status : JobStatus}
      {lastError : Option String} {dueAt : Option Instant}
      (hworker : a.worker = some w) (howns : row.ownsAttempt w attempt = true)
      (hstatus : status.isActive = false) :
      JobStep σ a j (some row) (some (row.release status lastError dueAt))
  | defer {row job : JobRecord} {w : WorkerId} {now : Instant} {message : String}
      {claimed runnable : List JobRecord} (hworker : a.worker = some w)
      (hphase : σ.phase w = .defer now job message claimed runnable) (hid : job.id = j) :
      JobStep σ a j (some row) (some (row.release .queued (some message) (some now)))
  | reconcile {row job current : JobRecord} {w : WorkerId} {now : Instant}
      {latest : RunRecord} {jobs : List JobRecord} (hworker : a.worker = some w)
      (hphase : σ.phase w = .reconcile now job current latest jobs) (hid : current.id = j) :
      JobStep σ a j (some row) (some (row.release latest.status.toJobStatus latest.error none))
  | delete {row : JobRecord} (hcleanup : a.keepsRows = false)
      (hterminal : row.status.isTerminal = true) :
      JobStep σ a j (some row) none

/-- An update that changes the rows with `P` is a step when each such change is. -/
theorem JobStep.of_update {σ : System} {a : Action} {j : Id} {row : Option JobRecord}
    {P : JobRecord → Prop} [DecidablePred P] {f : JobRecord → JobRecord}
    (h : ∀ r, row = some r → P r → JobStep σ a j (some r) (some (f r))) :
  JobStep σ a j row (row.map (fun r => if P r then f r else r))
  := by
  cases row with
  | none => apply JobStep.keep
  | some r =>
      rw [Option.map_some]
      split
      case isTrue hP => apply h r rfl hP
      case isFalse => apply JobStep.keep

/-- The insertion of a submitted job is a step. -/
theorem JobStep.of_saveJob {σ : System} {a : Action} {j : Id}
    {jobs jobs' : Jobs} {job : JobRecord}
    (hsave : saveJob jobs job = some jobs') (hsubmitted : job.submitted = true) :
  JobStep σ a j (jobs.find? j) (jobs'.find? j)
  := by
  rw [Table.find?_insert? hsave]
  split
  case isTrue hid =>
    rw [← hid, Table.find?_of_insert? hsave]
    apply JobStep.insert rfl hsubmitted
  case isFalse => apply JobStep.keep

/-- A successful finalization is a step: it changes the row only when the attempt owns it. -/
theorem JobStep.of_finalizeAttempt {σ : System} {a : Action} {j : Id} {jobs jobs' : Jobs}
    {runs runs' : Runs} {run : RunRecord} {status : JobStatus} {lastError : Option String}
    {dueAt : Option Instant} {w : WorkerId} {finalization : AttemptFinalization}
    (h : finalizeAttempt jobs runs run status lastError dueAt w
      = .ok (finalization, jobs', runs')) (hworker : a.worker = some w)
    (hstatus : status.isActive = false) :
  JobStep σ a j (jobs.find? j) (jobs'.find? j)
  := by
  obtain ⟨row, hrow, -, -, ⟨howns, -, rfl⟩ | ⟨-, -, rfl⟩⟩ := finalizeAttempt_ok h
  · rw [find?_finishJob]
    apply JobStep.of_update
    rintro r hr hid
    obtain rfl : r = row := by
      have hkey := Table.key_of_find? hr
      rw [← hkey, hid, hrow] at hr
      apply (Option.some.inj hr).symm
    apply JobStep.finalize hworker howns hstatus
  · apply JobStep.keep

/-- A cleanup is a step: it deletes terminal jobs. -/
theorem JobStep.of_cleanupRuntimeRows {σ : System} (jobs : Jobs) (runs : Runs)
    (projectId : Option Id) (j : Id) :
  JobStep σ (.cleanup projectId) j (jobs.find? j)
    ((cleanupRuntimeRows jobs runs projectId).1.find? j)
  := by
  simp only [cleanupRuntimeRows, Table.find?_delete]
  cases jobs.find? j with
  | none => apply JobStep.keep
  | some row =>
      cases hdelete : row.status.isTerminal && inScope projectId row.projectId with
      | false =>
          rw [Option.filter_some_pos]
          · apply JobStep.keep
          · rw [hdelete]
            rfl
      | true =>
          rw [Option.filter_some_neg]
          · apply JobStep.delete rfl
            apply (Bool.and_eq_true _ _ ▸ hdelete).1
          · rw [hdelete]
            simp

/-- The job of a due schedule is a submitted job. -/
theorem submitted_materializedJob {config : SchedulerConfig} {schedule : ScheduleRecord}
    {jobId : Id} {now : Instant} {job : JobRecord}
    (h : materializedJob config schedule jobId now = .ok job) :
  job.submitted = true
  := by
  simp only [materializedJob] at h
  split at h
  · cases h
    rfl
  · split at h
    · cases h
    · cases h
      rfl

/-- What a step of a scheduler does to the row of a job. -/
theorem WorkerStep.jobStep {env : Environment} {config : SchedulerConfig} {σ : System}
    {a : Action} {w : WorkerId} {db : Db} {phase : Phase} {events : List Event}
    (h : WorkerStep env config w σ.db (σ.phase w) db phase events) (hworker : a.worker = some w)
    (j : Id) :
  JobStep σ a j (σ.db.jobs.find? j) (db.jobs.find? j)
  := by
  generalize hphase : σ.phase w = before at h
  cases h
  case materialize hkind hjob hsave =>
    apply JobStep.of_saveJob hsave (submitted_materializedJob hjob)
  case claim hclaim =>
    obtain rfl := congrArg Prod.snd hclaim
    simp only [find?_claimDueJobs]
    apply JobStep.of_update
    intro r hr hmem
    apply JobStep.claim hworker hphase (mem_claimSelection hmem).2.1
  case defer =>
    rw [find?_finishJob]
    apply JobStep.of_update
    rintro r hr hid
    apply JobStep.defer hworker hphase (hid.symm.trans (Table.key_of_find? hr))
  case mark hmark =>
    obtain rfl := congrArg Prod.snd hmark
    simp only [find?_tryMarkJobRunning]
    apply JobStep.of_update
    rintro r hr ⟨hid, hleased, howner⟩
    apply JobStep.mark hworker hphase (hid.symm.trans (Table.key_of_find? hr)) hleased howner
  case superseded hmark =>
    obtain rfl := congrArg Prod.snd hmark
    simp only [find?_tryMarkJobRunning]
    apply JobStep.of_update
    rintro r hr ⟨hid, hleased, howner⟩
    apply JobStep.mark hworker hphase (hid.symm.trans (Table.key_of_find? hr)) hleased howner
  case reject hid hfinalize => apply JobStep.of_finalizeAttempt hfinalize hworker rfl
  case finish hrun hfinalize houtcome =>
    apply JobStep.of_finalizeAttempt hfinalize hworker
    rw [hrun]
    apply isActive_finishedJobStatus
  case finishLost hrun hfinalize houtcome =>
    apply JobStep.of_finalizeAttempt hfinalize hworker
    rw [hrun]
    apply isActive_finishedJobStatus
  case reconcile =>
    rw [find?_finishJob]
    apply JobStep.of_update
    rintro r hr hid
    apply JobStep.reconcile hworker hphase (hid.symm.trans (Table.key_of_find? hr))
  case fail hid hrun hfinalize => apply JobStep.of_finalizeAttempt hfinalize hworker rfl
  all_goals apply JobStep.keep

section

variable {env : Environment} {config : WorkerId → SchedulerConfig}

/-- A step of a scheduler within the system. -/
theorem workerStep_of_step {σ τ : System} {w : WorkerId} {action : SchedulerAction}
    (h : step env config σ (.scheduler w action) = some τ) :
  ∃ db phase events, WorkerStep env (config w) w σ.db (σ.phase w) db phase events
    ∧ τ = σ.after w db phase events
  := by
  simp only [step, Option.map_eq_some_iff] at h
  obtain ⟨⟨db, phase, events⟩, hstep, rfl⟩ := h
  use db, phase, events, workerStep_of_schedulerStep hstep

/-- An event of a patch request. -/
def Event.ofPatch : Event → Bool
  | .patchRead _ _ | .patched _ _ => true
  | _ => false

/-- The first transaction of a patch request changes no table and no scheduler. -/
theorem readPatch_frame {σ τ : System} {requestId scheduleId : Id}
    {request : SchedulePatchRequest} (h : σ.readPatch requestId scheduleId request = some τ) :
  τ.db = σ.db ∧ τ.phase = σ.phase
    ∧ ∃ events, τ.log = events ++ σ.log ∧ ∀ event ∈ events, event.ofPatch = true
  := by
  rw [System.readPatch] at h
  split_ifs at h
  split at h
  case h_1 schedule hschedule =>
    cases h
    use rfl, rfl, [.patchRead requestId scheduleId], rfl
    simp [Event.ofPatch]
  case h_2 =>
    cases h
    use rfl, rfl, [], rfl
    simp
  case h_3 =>
    cases h
    use rfl, rfl, [], rfl
    simp

/-- The second transaction of a patch request changes schedules only. -/
theorem writePatch_frame {σ τ : System} {requestId : Id} {now : Instant}
    (h : σ.writePatch env requestId now = some τ) :
  τ.db.jobs = σ.db.jobs ∧ τ.db.runs = σ.db.runs ∧ τ.phase = σ.phase
    ∧ ∃ events, τ.log = events ++ σ.log ∧ ∀ event ∈ events, event.ofPatch = true
  := by
  rw [System.writePatch] at h
  split at h
  case h_1 => cases h
  case h_2 pending hpending =>
    dsimp only at h
    split at h
    case h_1 =>
      cases h
      use rfl, rfl, rfl, [], rfl
      simp
    case h_2 copy hcopy =>
      split at h
      case h_1 =>
        cases h
        use rfl, rfl, rfl, [], rfl
        simp
      case h_2 schedules hschedules =>
        cases h
        use rfl, rfl, rfl, [.patched requestId copy], rfl
        simp [Event.ofPatch]

/-- What a step of the system does to the row of a job. -/
theorem jobStep_of_step {σ τ : System} {a : Action} (h : step env config σ a = some τ) (j : Id) :
  JobStep σ a j (σ.db.jobs.find? j) (τ.db.jobs.find? j)
  := by
  cases a with
  | submit job =>
      simp only [step] at h
      split_ifs at h with hsubmitted
      obtain ⟨jobs, hsave, rfl⟩ := Option.map_eq_some_iff.mp h
      apply JobStep.of_saveJob hsave hsubmitted
  | cancel jobId =>
      cases h
      simp only [find?_tryCancelJob]
      apply JobStep.of_update
      rintro r - ⟨-, hlive⟩
      apply JobStep.cancel hlive
  | renew w jobId leaseUntil =>
      cases h
      simp only [find?_tryRenewJobLease]
      apply JobStep.of_update
      rintro r - ⟨-, hactive, howner⟩
      apply JobStep.renew hactive howner
  | cleanup projectId =>
      cases h
      apply JobStep.of_cleanupRuntimeRows σ.db.jobs σ.db.runs
  | create kinds request projectId scheduleId createdAt =>
      simp only [step] at h
      split at h
      · cases h
      · cases h
        apply JobStep.keep
  | readPatch requestId scheduleId request =>
      obtain ⟨hdb, -⟩ := readPatch_frame h
      rw [hdb]
      apply JobStep.keep
  | writePatch requestId now =>
      obtain ⟨hjobs, -⟩ := writePatch_frame h
      rw [hjobs]
      apply JobStep.keep
  | scheduler w action =>
      obtain ⟨db, phase, events, hstep, rfl⟩ := workerStep_of_step h
      apply hstep.jobStep rfl

/-- A step of the system is a step of a scheduler, or leaves its phase. -/
theorem phaseStep_of_step {σ τ : System} {a : Action} (h : step env config σ a = some τ)
    (w : WorkerId) :
  (a.worker ≠ some w ∧ τ.phase w = σ.phase w)
    ∨ (a.worker = some w
      ∧ ∃ db phase events, WorkerStep env (config w) w σ.db (σ.phase w) db phase events
        ∧ τ = σ.after w db phase events)
  := by
  cases a with
  | submit job =>
      simp only [step] at h
      split_ifs at h
      obtain ⟨jobs, -, rfl⟩ := Option.map_eq_some_iff.mp h
      left
      use nofun
  | cancel jobId =>
      cases h
      left
      use nofun
  | renew v jobId leaseUntil =>
      cases h
      left
      use nofun
  | cleanup projectId =>
      cases h
      left
      use nofun
  | create kinds request projectId scheduleId createdAt =>
      simp only [step] at h
      split at h
      · cases h
      · cases h
        left
        use nofun
  | readPatch requestId scheduleId request =>
      left
      use nofun
      rw [(readPatch_frame h).2.1]
  | writePatch requestId now =>
      left
      use nofun
      rw [(writePatch_frame h).2.2.1]
  | scheduler v action =>
      obtain ⟨db, phase, events, hstep, rfl⟩ := workerStep_of_step h
      by_cases hvw : w = v
      · subst hvw
        right
        use rfl, db, phase, events
      · left
        constructor
        · intro hworker
          apply hvw
          apply (Option.some.inj hworker).symm
        · apply System.after_phase_of_ne σ hvw

end

end GoblinKing
