import GoblinKing.Scheduler.Rows

/-!
# Terminal jobs

A job that is completed, failed, timed out or cancelled should stay so. Of the transactions
that change the status of a job, two write it without looking at the row: a job that is
over a concurrency limit is put back into the queue, and the recovery lets a job take over
the status of its latest run. The row may have become terminal after the scheduler read it,
by a cancellation for instance. The terminal jobs of a run are kept exactly when no such
write meets a terminal row with another status.
-/

namespace GoblinKing

/-- A job has a lease owner exactly while it is active; and the status a scheduler is about
to take over from a run is terminal. -/
structure OwnedRows (σ : System) : Prop where
  owned : ∀ j row, σ.db.jobs.find? j = some row → row.leaseOwner.isSome = row.status.isActive
  latest : ∀ w now job current latest jobs,
    σ.phase w = .reconcile now job current latest jobs → latest.status ≠ .running

/-- Before the first step there is no row and no pass. -/
theorem ownedRows_init : OwnedRows System.init
  := by
  constructor
  · intro j row hrow
    cases hrow
  · intro w now job current latest jobs hphase
    cases hphase

section

variable {env : Environment} {config : WorkerId → SchedulerConfig} {σ τ : System} {a : Action}

/-- A change of a row keeps the owner and the status in step. -/
theorem JobStep.owned {j : Id} {row row' : Option JobRecord}
    (h : JobStep σ a j row row') (hσ : OwnedRows σ)
    (hrow : ∀ r, row = some r → r.leaseOwner.isSome = r.status.isActive) :
  ∀ r, row' = some r → r.leaseOwner.isSome = r.status.isActive
  := by
  cases h with
  | keep => apply hrow
  | insert hid hsubmitted =>
      rintro r ⟨⟩
      simp only [JobRecord.submitted, Bool.and_eq_true, beq_iff_eq] at hsubmitted
      obtain ⟨⟨⟨hstatus, howner⟩, -⟩, -⟩ := hsubmitted
      rw [hstatus, howner]
      rfl
  | claim hworker hphase hclaimable =>
      rintro r ⟨⟩
      rfl
  | renew hactive howner =>
      rintro r ⟨⟩
      apply hrow _ rfl
  | cancel hlive =>
      rintro r ⟨⟩
      rfl
  | mark hworker hphase hid hleased howner =>
      rintro r ⟨⟩
      simp [JobRecord.markRunning, howner, JobStatus.isActive]
  | finalize hworker howns hstatus =>
      rintro r ⟨⟩
      simp [JobRecord.release, hstatus]
  | defer hworker hphase hid =>
      rintro r ⟨⟩
      rfl
  | reconcile hworker hphase hid =>
      rintro r ⟨⟩
      have hterminal := RunStatus.isTerminal_iff.mpr (hσ.latest _ _ _ _ _ _ hphase)
      rw [← RunStatus.isTerminal_toJobStatus] at hterminal
      simp [JobRecord.release, JobStatus.not_isActive hterminal]
  | delete hterminal =>
      rintro r ⟨⟩

/-- Every step keeps owners and statuses in step. -/
theorem OwnedRows.step (hσ : OwnedRows σ) (h : step env config σ a = some τ) : OwnedRows τ
  := by
  constructor
  · intro j
    apply (jobStep_of_step h j).owned hσ (hσ.owned j)
  · intro w now job current latest jobs hphase
    rcases phaseStep_of_step h w with ⟨-, hsame⟩ | ⟨-, db, phase, events, hstep, rfl⟩
    · rw [hsame] at hphase
      apply hσ.latest w now job current latest jobs hphase
    · rw [System.after_phase_self] at hphase
      rw [hphase] at hstep
      generalize σ.phase w = before at hstep
      cases hstep
      case unfinished hruns => apply (of_reconciliation_finish hruns).2.1

/-- The row of a job that is terminal, if it is still there after a step, has the status it
had, and no lease owner. -/
def TerminalKept (σ : System) (_ : Action) (τ : System) : Prop :=
  ∀ j row row', σ.db.jobs.find? j = some row → row.status.isTerminal = true →
    τ.db.jobs.find? j = some row' → row'.status = row.status ∧ row'.leaseOwner = none

/-- The status that a scheduler is about to give a job without looking at its row. -/
def Phase.blindWrite : Phase → Option (Id × JobStatus)
  | .defer _ job _ _ _ => some (job.id, .queued)
  | .reconcile _ _ current latest _ => some (current.id, latest.status.toJobStatus)
  | _ => none

/-- A write that does not look at the row meets a terminal row only where it changes
nothing: the row has the status that is written. -/
def SparesTerminal (σ : System) (a : Action) : Prop :=
  ∀ w j status row, a.worker = some w → (σ.phase w).blindWrite = some (j, status) →
    σ.db.jobs.find? j = some row → row.status.isTerminal = true → row.status = status

/-- A terminal job without a lease owner is kept by every change that does not give it
another status blindly. -/
theorem JobStep.terminal_kept {j : Id} {row row' : JobRecord}
    (h : JobStep σ a j (some row) (some row')) (hterminal : row.status.isTerminal = true)
    (howner : row.leaseOwner = none)
    (hblind : ∀ w status, a.worker = some w → (σ.phase w).blindWrite = some (j, status) →
      row.status = status) :
  row'.status = row.status ∧ row'.leaseOwner = none
  := by
  have hinactive := JobStatus.not_isActive hterminal
  cases h with
  | keep => use rfl
  | claim hworker hphase hclaimable =>
      simp only [JobRecord.claimable, hinactive, Bool.or_eq_true, beq_iff_eq] at hclaimable
      rcases hclaimable with (h | h) | h
      · rw [h] at hterminal
        cases hterminal
      · rw [h] at hterminal
        cases hterminal
      · cases h
  | renew hactive =>
      rw [hinactive] at hactive
      cases hactive
  | cancel hlive =>
      rw [hterminal] at hlive
      cases hlive
  | mark hworker hphase hid hleased =>
      rw [hleased] at hterminal
      cases hterminal
  | finalize hworker howns =>
      simp [JobRecord.ownsAttempt, howner] at howns
  | @defer _ _ w _ _ _ _ hworker hphase hid =>
      have hstatus : row.status = .queued := by
        apply hblind w _ hworker
        rw [hphase, ← hid]
        rfl
      use hstatus.symm
      rfl
  | @reconcile _ _ _ w _ latest _ hworker hphase hid =>
      have hstatus : row.status = latest.status.toJobStatus := by
        apply hblind w _ hworker
        rw [hphase, ← hid]
        rfl
      use hstatus.symm
      rfl

/-- A blind write gives its row the status, whatever the row was. -/
theorem blindWrite_spec {w : WorkerId} {j : Id} {status : JobStatus} {row : JobRecord}
    (h : step env config σ a = some τ) (hworker : a.worker = some w)
    (hblind : (σ.phase w).blindWrite = some (j, status)) (hrow : σ.db.jobs.find? j = some row) :
  ∃ row', τ.db.jobs.find? j = some row' ∧ row'.status = status
  := by
  cases a with
  | scheduler v action =>
      obtain rfl := Option.some.inj hworker
      obtain ⟨db, phase, events, hstep, rfl⟩ := workerStep_of_step h
      generalize σ.phase v = before at hstep hblind
      cases hstep <;> simp only [Phase.blindWrite, reduceCtorEq, Option.some.injEq,
        Prod.mk.injEq] at hblind
      case defer =>
        obtain ⟨rfl, rfl⟩ := hblind
        simp [find?_finishJob, hrow, Table.key_of_find? hrow, JobRecord.release]
      case reconcile =>
        obtain ⟨rfl, rfl⟩ := hblind
        simp [find?_finishJob, hrow, Table.key_of_find? hrow, JobRecord.release]
  | _ => cases hworker

/-- A step keeps the terminal jobs exactly when it spares them. -/
theorem terminalKept_iff (hσ : OwnedRows σ) (h : step env config σ a = some τ) :
  TerminalKept σ a τ ↔ SparesTerminal σ a
  := by
  constructor
  · intro hkept w j status row hworker hblind hrow hterminal
    obtain ⟨row', hrow', hstatus⟩ := blindWrite_spec h hworker hblind hrow
    rw [← hstatus, (hkept j row row' hrow hterminal hrow').1]
  · intro hspares j row row' hrow hterminal hrow'
    have hstep := jobStep_of_step h j
    rw [hrow, hrow'] at hstep
    have howner : row.leaseOwner = none := by
      rw [← Option.not_isSome_iff_eq_none, hσ.owned j row hrow, JobStatus.not_isActive hterminal]
      simp
    apply hstep.terminal_kept hterminal howner
    intro w status hworker hblind
    apply hspares w j status row hworker hblind hrow hterminal

/-- Along a run of any schedulers and requests, the terminal jobs are kept exactly when no
write that does not look at its row meets a terminal row with another status. -/
theorem terminal_jobs_absorbing (env : Environment) (config : WorkerId → SchedulerConfig)
    (as : List Action) :
  Transition.Along (step env config) TerminalKept System.init as
    ↔ Transition.Along (step env config) (fun σ a _ => SparesTerminal σ a) System.init as
  := by
  apply Transition.along_congr (I := OwnedRows) (G := fun _ => True)
  · intro σ a τ hσ _ h
    apply hσ.step h
  · intro σ a τ hσ _ h
    apply terminalKept_iff hσ h
  · apply ownedRows_init
  · intro a _
    trivial

end

/-- Two jobs of one kind with the limit of one running job are claimed at once. The first is
found to be over the limit, and is cancelled before it is put back into the queue. -/
def cancelledWhileDeferred : List Action :=
  [.submit { id := "a", kind := "report", createdAt := 0, resourcePolicy := Environment.oneRunning },
    .submit { id := "b", kind := "report", createdAt := 1, resourcePolicy := Environment.oneRunning },
    .scheduler "s1" (.begin 10), .scheduler "s1" .tick, .scheduler "s1" .tick,
    .scheduler "s1" .tick, .cancel "a"]

/-- The status of a job after a run of the sample schedulers. -/
def statusAfter (as : List Action) (j : Id) : Option JobStatus :=
  (sampleRun as).bind (fun σ => (σ.db.jobs.find? j).map JobRecord.status)

/-- A cancelled job does not stay cancelled: a scheduler that found it over its limit puts
it back into the queue. -/
theorem cancelled_job_requeued :
  ¬ ∀ as, Transition.Along (step Environment.sample sampleConfig) TerminalKept System.init as
  := by
  intro h
  have hbefore : statusAfter cancelledWhileDeferred "a" = some .cancelled := by decide +kernel
  have hafter : statusAfter (cancelledWhileDeferred ++ [.scheduler "s1" .tick]) "a"
    = some .queued := by decide +kernel
  obtain ⟨σ, hrun, hσ⟩ := Option.bind_eq_some_iff.mp hbefore
  obtain ⟨τ, hrun', hτ⟩ := Option.bind_eq_some_iff.mp hafter
  obtain ⟨row, hrow, hstatus⟩ := Option.map_eq_some_iff.mp hσ
  obtain ⟨row', hrow', hstatus'⟩ := Option.map_eq_some_iff.mp hτ
  obtain ⟨_, hlast, -, hkept⟩ := Transition.along_last (h _) hrun'
  obtain rfl := Option.some.inj (hrun.symm.trans hlast)
  obtain ⟨hsame, -⟩ := hkept "a" row row' hrow (by rw [hstatus]; rfl) hrow'
  rw [hstatus, hstatus'] at hsame
  cases hsame

end GoblinKing
