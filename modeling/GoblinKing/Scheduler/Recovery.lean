import GoblinKing.Scheduler.Knowledge
import GoblinKing.Scheduler.Fencing
import GoblinKing.Scheduler.Numbering
import Mathlib.Data.Fintype.EquivFin

/-!
# Recovery

The recovery of an attempt that raised is the last line of defence of a pass. It should
return, leave alone the jobs that the scheduler has lost, and respect what the attempt has
committed before it raised. It decides from a row and a list of runs that it has read in
two transactions and writes in a third. One of its two writes looks at the row first; the
other one, `finish_job` with the status of the latest run, does not, and it is reached with
rows that the scheduler has given up: an attempt that failed with retries left has made its
job wait. And the run that was found running may be of another attempt than the row.
-/

namespace GoblinKing

/-- What the recoveries rely on. The row that a recovery has read is at the attempt that the
scheduler has begun or at a later one, and the run that it has found running is a run of the
job. -/
structure Recoverable (env : Environment) (σ : System) : Prop where
  sound : SoundPhases σ
  lease : ∀ j, Lease.Invariant (σ.lease j)
  owned : OwnedRows σ
  copies : TrueCopies env σ
  runs : RunsOfJobs σ
  begun : ∀ w job current, (σ.phase w).current = some job →
    (σ.phase w).inspected = some current → job.nextAttempt ≤ current.attemptCount
  running : ∀ w now job error current running jobs,
    σ.phase w = .fail now job error current (some running) jobs →
    ∃ existing, σ.db.runs.find? running.id = some existing ∧ existing.lineage = running.lineage
      ∧ running.jobId = current.id

section

variable {env : Environment} {config : WorkerId → SchedulerConfig} {σ τ : System} {a : Action}

/-- A step that deletes no row keeps the lineage of a run. -/
theorem RunStep.lineage_kept {runs runs' : Runs} (h : RunStep σ a runs runs')
    (hkeeps : a.keepsRows = true) {k : Id} {run : RunRecord} (hrun : runs.find? k = some run) :
  ∃ run', runs'.find? k = some run' ∧ run'.lineage = run.lineage
  := by
  cases h with
  | keep => use run
  | @insert _ new _ hworker hnew hfind horigin =>
      use run
      rw [hfind, if_neg]
      · use hrun
      · rintro rfl
        rw [hnew] at hrun
        cases hrun
  | @finalize _ new existing hexisting hrunning hlineage hfind =>
      rw [hfind]
      split
      case isTrue hk =>
        subst hk
        rw [hexisting] at hrun
        obtain rfl := Option.some.inj hrun
        use new
      case isFalse => use run
  | delete p hcleanup =>
      rw [hkeeps] at hcleanup
      cases hcleanup

/-- The row that a recovery reads is at the attempt that the scheduler has begun or at a
later one. -/
theorem WorkerStep.begun {w : WorkerId} {db : Db} {phase : Phase} {events : List Event}
    (h : WorkerStep env (config w) w σ.db (σ.phase w) db phase events) (hσ : Recoverable env σ)
    {job current : JobRecord} (hjob : phase.current = some job)
    (hcurrent : phase.inspected = some current) :
  job.nextAttempt ≤ current.attemptCount
  := by
  have hbegun := hσ.begun w job current
  generalize hphase : σ.phase w = before at h hbegun
  cases h <;> try cases hcurrent
  case recover hrow =>
    cases hjob
    have hticket : (σ.lease job.id).ticket w = .begun job.nextAttempt := by
      simp only [System.lease, hphase]
      apply ticket_of_current rfl
    simpa [System.lease, hrow, attemptsOf] using (hσ.lease job.id).begun_le w _ hticket
  case unfinished => apply hbegun hjob rfl
  case failed => apply hbegun hjob rfl

/-- A step that deletes no row keeps what the recoveries rely on. -/
theorem Recoverable.step (hσ : Recoverable env σ) (hkeeps : a.keepsRows = true)
    (h : step env config σ a = some τ) :
  Recoverable env τ
  := by
  constructor
  case sound => apply hσ.sound.step h
  case lease =>
    intro j
    apply (hσ.lease j).reaches (lease_of_step hσ.sound hkeeps h j)
  case owned => apply hσ.owned.step h
  case copies => apply hσ.copies.step hkeeps h
  case runs => apply hσ.runs.step hσ.copies hkeeps h
  case begun =>
    intro w job current hjob hcurrent
    rcases phaseStep_of_step h w with ⟨-, hsame⟩ | ⟨-, db, phase, events, hstep, rfl⟩
    · rw [hsame] at hjob hcurrent
      apply hσ.begun w job current hjob hcurrent
    · rw [System.after_phase_self] at hjob hcurrent
      apply hstep.begun hσ hjob hcurrent
  case running =>
    intro w now job error current running jobs hphase
    rcases phaseStep_of_step h w with ⟨-, hsame⟩ | ⟨-, db, phase, events, hstep, rfl⟩
    · rw [hsame] at hphase
      obtain ⟨existing, hexisting, hlineage, hjob⟩ :=
        hσ.running w now job error current running jobs hphase
      obtain ⟨existing', hexisting', hlineage'⟩ := (runStep_of_step h).lineage_kept hkeeps hexisting
      use existing', hexisting', hlineage'.trans hlineage, hjob
    · rw [System.after_phase_self] at hphase
      subst hphase
      generalize σ.phase w = before at hstep
      cases hstep
      case failed hpolicy hruns =>
        obtain ⟨hlatest, -, -⟩ := of_reconciliation_fail_some hruns
        obtain ⟨hmem, hjob⟩ := mem_listJobRuns.mp (latestRun_eq_some hlatest).1
        use running, Table.find?_of_mem hmem, rfl, hjob

/-- The policy in a row that a recovery has read is the policy that was read before the
attempt, which is valid. -/
theorem Recoverable.hasPolicy (hσ : Recoverable env σ) {w : WorkerId} {now : Instant}
    {job current : JobRecord} {error : String} {jobs : List JobRecord}
    (hphase : σ.phase w = .inspect now job error current jobs) :
  current.hasPolicy env = true
  := by
  have hknown := hσ.copies.known w
  have hchecked := hσ.copies.checked w job
  have hid := (hσ.sound w).inspected job current
  rw [hphase] at hknown hchecked hid
  obtain ⟨row, hrow, hlineage⟩ := hknown job List.mem_cons_self
  obtain ⟨row', hrow', hlineage'⟩ := hknown current (by simp [Phase.known, Phase.inspected])
  rw [hid rfl rfl, hrow] at hrow'
  obtain rfl := Option.some.inj hrow'
  have hsame : current.resourcePolicy = job.resourcePolicy := by
    rw [hlineage] at hlineage'
    simp only [JobRecord.lineage, Prod.mk.injEq] at hlineage'
    apply hlineage'.2.2.2.symm
  have hvalid := hchecked List.mem_cons_self
  rw [JobRecord.hasPolicy] at hvalid ⊢
  rw [hsame]
  apply hvalid

end

end GoblinKing
