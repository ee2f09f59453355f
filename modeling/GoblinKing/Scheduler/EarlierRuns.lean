import GoblinKing.Scheduler.Leases
import GoblinKing.Scheduler.Numbering

/-!
# The runs that earlier attempts have left

When a scheduler has claimed a job, the runs of the job that are still running are of earlier
attempts. This holds in every state that is reached with fresh identifiers, also when rows have
been deleted on the way: as long as the row of a job is there its lease has the invariant, and
a row that is inserted has had no past.
-/

namespace GoblinKing

/-- The runs of a job that are running are of earlier attempts. -/
def EarlierRuns (job : JobRecord) (runs : Runs) : Prop :=
  ∀ run ∈ runs.rows, run.jobId = job.id → run.status = .running → run.attempt ≤ job.attemptCount

/-- Nothing refers to the identifier of a job. -/
structure System.Unused (σ : System) (j : Id) : Prop where
  tickets : ∀ w, (σ.phase w).ticket j = .none
  settled : settledAttempts j σ.log = []
  runs : ∀ run ∈ σ.db.runs.rows, run.jobId ≠ j

/-- The identifier under which a step inserts a job has not been used before. -/
def DrawsUnused (env : Environment) (config : WorkerId → SchedulerConfig) (σ : System)
    (a : Action) : Prop :=
  ∀ τ j, step env config σ a = some τ → σ.db.jobs.find? j = none →
    (τ.db.jobs.find? j).isSome = true → σ.Unused j

/-- The lease of every job that is there has the invariant, and its running runs are of
attempts that have begun. -/
structure BegunRuns (σ : System) : Prop where
  sound : SoundPhases σ
  lease : ∀ j, (σ.db.jobs.find? j).isSome = true → Lease.Invariant (σ.lease j)
  runs : ∀ run ∈ σ.db.runs.rows, run.status = .running →
    (σ.db.jobs.find? run.jobId).isSome = true →
      run.attempt ≤ attemptsOf (σ.db.jobs.find? run.jobId)

/-- Before the first step there is no job. -/
theorem begunRuns_init : BegunRuns System.init
  := by
  constructor
  · apply soundPhases_init
  · intro j hrow
    cases hrow
  · intro run hrun
    cases hrun

/-- Before the first step nothing refers to a job. -/
theorem unused_init (j : Id) : System.init.Unused j
  := by
  constructor
  · intro w
    rfl
  · rfl
  · intro run hrun
    cases hrun

section

variable {env : Environment} {config : WorkerId → SchedulerConfig} {σ τ : System} {a : Action}

/-- A job that nothing refers to has a lease without a past. -/
theorem System.Unused.lease_eq {j : Id} (h : σ.Unused j) (hrow : σ.db.jobs.find? j = none) :
  σ.lease j = Lease.init
  := by
  rw [System.lease, hrow, h.settled]
  simp only [h.tickets]
  rfl

/-- A run that is running after a step of a scheduler was there before, or the scheduler has
just marked its job. -/
theorem WorkerStep.running {config : SchedulerConfig} {w : WorkerId} {db db' : Db}
    {phase phase' : Phase} {events : List Event}
    (h : WorkerStep env config w db phase db' phase' events) {run : RunRecord}
    (hrun : run ∈ db'.runs.rows) (hstatus : run.status = .running) :
  run ∈ db.runs.rows ∨ ∃ job, phase.current = some job ∧ run.jobId = job.id
    ∧ run.attempt = job.nextAttempt
  := by
  cases h
  case start hinsert =>
    rw [Table.rows_insert? hinsert] at hrun
    rcases List.mem_append.mp hrun with hrun | hrun
    · left
      apply hrun
    · right
      rw [List.mem_singleton.mp hrun]
      exact ⟨_, rfl, rfl, rfl⟩
  case reject hfinalize =>
    left
    apply running_of_finalizeAttempt hfinalize hrun hstatus
  case finish hfinalize _ =>
    left
    apply running_of_finalizeAttempt hfinalize hrun hstatus
  case finishLost hfinalize _ =>
    left
    apply running_of_finalizeAttempt hfinalize hrun hstatus
  case fail hfinalize =>
    left
    apply running_of_finalizeAttempt hfinalize hrun hstatus
  all_goals
    left
    exact hrun

/-- A run that is running after a step was there before, or a scheduler has just marked its
job. -/
theorem running_of_step (h : step env config σ a = some τ) {run : RunRecord}
    (hrun : run ∈ τ.db.runs.rows) (hstatus : run.status = .running) :
  run ∈ σ.db.runs.rows ∨ ∃ w job, (σ.phase w).current = some job ∧ run.jobId = job.id
    ∧ run.attempt = job.nextAttempt
  := by
  cases a with
  | submit job =>
      simp only [step] at h
      split_ifs at h
      obtain ⟨jobs, -, rfl⟩ := Option.map_eq_some_iff.mp h
      left
      apply hrun
  | cancel jobId =>
      cases h
      left
      apply hrun
  | renew w jobId leaseUntil =>
      cases h
      left
      apply hrun
  | cleanup projectId =>
      cases h
      left
      apply (Table.mem_delete.mp hrun).1
  | create kinds request projectId scheduleId createdAt =>
      simp only [step] at h
      split at h
      · cases h
      · cases h
        left
        apply hrun
  | readPatch requestId scheduleId request =>
      obtain ⟨hdb, -⟩ := readPatch_frame h
      rw [hdb] at hrun
      left
      apply hrun
  | writePatch requestId now =>
      obtain ⟨-, hruns, -⟩ := writePatch_frame h
      rw [hruns] at hrun
      left
      apply hrun
  | scheduler w action =>
      obtain ⟨db, phase, events, hstep, rfl⟩ := workerStep_of_step h
      apply (hstep.running hrun hstatus).imp_right
      intro hjob
      use w

/-- A step is a sequence of steps of the lease of every job that is there after it. -/
theorem lease_of_step_isSome (hsound : SoundPhases σ) (h : step env config σ a = some τ) {j : Id}
    (hrow : (τ.db.jobs.find? j).isSome = true) :
  Transition.Reaches Lease.step (σ.lease j) (τ.lease j)
  := by
  cases hkeeps : a.keepsRows with
  | true => apply lease_of_step hsound hkeeps h
  | false =>
      cases a with
      | cleanup projectId =>
          cases h
          have hsame : (cleanupRuntimeRows σ.db.jobs σ.db.runs projectId).1.find? j
              = σ.db.jobs.find? j := by
            simp only [cleanupRuntimeRows, Table.find?_delete] at hrow ⊢
            rw [Option.isSome_filter] at hrow
            obtain ⟨row, hfind, hkept⟩ := (Option.any_eq_true _ _).mp hrow
            rw [hfind, Option.filter_some_pos]
            apply hkept
          refine lease_of_request rfl rfl ?_ (.inl ?_)
          · exact congrArg attemptsOf hsame
          · exact congrArg holderOf hsame
      | _ => cases hkeeps

/-- The lease of a job that is there after a step has the invariant before the step. -/
theorem BegunRuns.lease_before (hσ : BegunRuns σ) (hunused : DrawsUnused env config σ a)
    (h : step env config σ a = some τ) {j : Id} (hrow : (τ.db.jobs.find? j).isSome = true) :
  Lease.Invariant (σ.lease j)
  := by
  cases hbefore : σ.db.jobs.find? j with
  | none =>
      rw [(hunused τ j h hbefore hrow).lease_eq hbefore]
      apply Lease.invariant_init
  | some row =>
      apply hσ.lease
      rw [hbefore]
      rfl

/-- Every step with a fresh identifier keeps the running runs within the attempts begun. -/
theorem BegunRuns.step (hσ : BegunRuns σ) (hunused : DrawsUnused env config σ a)
    (h : step env config σ a = some τ) :
  BegunRuns τ
  := by
  constructor
  case sound => apply hσ.sound.step h
  case lease =>
    intro j hrow
    apply Lease.Invariant.reaches (lease_of_step_isSome hσ.sound h hrow)
    apply hσ.lease_before hunused h hrow
  case runs =>
    intro run hrun hstatus hrow
    have hinvariant := hσ.lease_before hunused h hrow
    have hepoch : (σ.lease run.jobId).epoch ≤ (τ.lease run.jobId).epoch :=
      Lease.epoch_le_of_reaches (lease_of_step_isSome hσ.sound h hrow) hinvariant
    apply le_trans _ hepoch
    rcases running_of_step h hrun hstatus with hold | ⟨w, job, hcurrent, hjob, hattempt⟩
    · apply hσ.runs run hold hstatus
      -- a job that is new has no run
      cases hbefore : σ.db.jobs.find? run.jobId with
      | none => cases (hunused τ _ h hbefore hrow).runs run hold rfl
      | some row => rfl
    · rw [hattempt]
      rw [hjob] at hinvariant ⊢
      apply hinvariant.begun_le w
      apply ticket_of_current hcurrent

/-- The running runs are within the attempts begun in every state that is reached with fresh
identifiers. -/
theorem begunRuns_of_path (h : Transition.Path (step env config) (DrawsUnused env config)
    System.init σ) :
  BegunRuns σ
  := h.invariant (fun _ _ _ hσ hunused hstep => hσ.step hunused hstep) begunRuns_init

/-- When a scheduler has claimed a job, the running runs of the job are of earlier attempts. -/
theorem earlierRuns_of_claim
    (h : Transition.Path (step env config) (DrawsUnused env config) System.init σ)
    {w : WorkerId} {now leaseUntil : Instant} {limit : ℕ} {claimed : List JobRecord} {jobs : Jobs}
    (hclaim : claimDueJobs σ.db.jobs w now leaseUntil limit = (claimed, jobs)) {job : JobRecord}
    (hjob : job ∈ claimed) :
  EarlierRuns job σ.db.runs
  := by
  intro run hrun hid hstatus
  obtain ⟨row, hrow, hattempt⟩ : ∃ row, σ.db.jobs.find? job.id = some row
      ∧ row.attemptCount = job.attemptCount := by
    have hclaimed := claimDueJobs_fst σ.db.jobs w now leaseUntil limit
    rw [hclaim] at hclaimed
    dsimp only at hclaimed
    rw [hclaimed] at hjob
    obtain ⟨row, hselected, rfl⟩ := List.mem_map.mp hjob
    exact ⟨row, (mem_claimSelection hselected).1, rfl⟩
  have hle := (begunRuns_of_path h).runs run hrun hstatus
  rw [hid, hrow] at hle
  rw [← hattempt]
  apply hle rfl

end

end GoblinKing
