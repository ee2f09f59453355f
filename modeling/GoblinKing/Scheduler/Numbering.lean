import GoblinKing.Scheduler.Leases
import GoblinKing.Scheduler.RunRows

/-!
# Numbering of attempts

Every scheduler inserts runs at the attempt that it has begun, and no two schedulers have
begun the same attempt; with one exception. When the recovery finds no run to end, it takes
the number of the failed attempt from the row of the job as it has just read it, and by then
another scheduler may have the job. The runs of a job have distinct attempts as long as
every new run of the recovery is recorded from a row that is still at the attempt the
scheduler has begun.
-/

namespace GoblinKing

/-- No run of job `j` has the attempt. -/
def NoRun (runs : Runs) (j : Id) (attempt : ℕ) : Prop :=
  ∀ k run, runs.find? k = some run → run.jobId = j → run.attempt ≠ attempt

/-- What a phase relies on in the table of runs: that the attempt has no run yet, or that
the run to be ended is there. -/
def Phase.ReliesOn (runs : Runs) : Phase → Prop
  | .marked _ job _ _ => NoRun runs job.id job.nextAttempt
  | .started _ _ _ runId _ => ∃ run, runs.find? runId = some run
  | .fail _ job _ current none _ => current.status ≠ .leased →
      current.attemptCount = job.nextAttempt → NoRun runs job.id job.nextAttempt
  | .fail _ _ _ _ (some running) _ => ∃ run, runs.find? running.id = some run
  | _ => True

/-- The runs of each job have distinct attempts, none beyond the attempt count of the job,
and the schedulers find what they rely on. -/
structure NumberedRuns (σ : System) : Prop where
  bound : ∀ k run, σ.db.runs.find? k = some run →
    run.attempt ≤ attemptsOf (σ.db.jobs.find? run.jobId)
  unique : ∀ k l r s, σ.db.runs.find? k = some r → σ.db.runs.find? l = some s →
    r.jobId = s.jobId → r.attempt = s.attempt → k = l
  phases : ∀ w, (σ.phase w).ReliesOn σ.db.runs

/-- A recovery that is about to record a failure in a new run has read a row that is still
at the attempt the scheduler has begun: not leased again, and with the same number. -/
def recordsOwnAttempt (σ : System) (a : Action) : Bool :=
  match a.worker with
  | none => true
  | some w =>
      match σ.phase w with
      | .fail _ job _ current none _ =>
          decide (current.status ≠ .leased) && decide (current.attemptCount = job.nextAttempt)
      | _ => true

/-- The guard of a recovery that records a failure in a new run. -/
theorem of_recordsOwnAttempt {σ : System} {a : Action} (h : recordsOwnAttempt σ a = true)
    {w : WorkerId} {now : Instant} {job current : JobRecord} {error : String}
    {jobs : List JobRecord} (hworker : a.worker = some w)
    (hphase : σ.phase w = .fail now job error current none jobs) :
  current.status ≠ .leased ∧ current.attemptCount = job.nextAttempt
  := by
  simp only [recordsOwnAttempt, hworker, hphase, Bool.and_eq_true, decide_eq_true_eq] at h
  apply h

/-- Before the first step there is no run. -/
theorem numberedRuns_init : NumberedRuns System.init
  := by
  constructor
  · intro k run hrun
    cases hrun
  · intro k l r s hr
    cases hr
  · intro w
    trivial

section

variable {env : Environment} {config : WorkerId → SchedulerConfig} {σ τ : System} {a : Action}

/-- A run ended in place takes no attempt that was free. -/
theorem NoRun.of_finalize {runs runs' : Runs} {run existing : RunRecord} {j : Id} {attempt : ℕ}
    (h : NoRun runs j attempt) (hexisting : runs.find? run.id = some existing)
    (hlineage : run.lineage = existing.lineage)
    (hfind : ∀ k, runs'.find? k = if run.id = k then some run else runs.find? k) :
  NoRun runs' j attempt
  := by
  simp only [RunRecord.lineage, Prod.mk.injEq] at hlineage
  obtain ⟨hjob, -, -, hattempt⟩ := hlineage
  intro k r hr hj
  rw [hfind] at hr
  split at hr
  · cases hr
    rw [hattempt]
    apply h _ existing hexisting (hjob.symm.trans hj)
  · apply h k r hr hj

/-- A run that is inserted takes one attempt. -/
theorem NoRun.of_insert {runs runs' : Runs} {run : RunRecord} {j : Id} {attempt : ℕ}
    (h : NoRun runs j attempt)
    (hfind : ∀ k, runs'.find? k = if run.id = k then some run else runs.find? k)
    (hne : run.jobId = j → run.attempt ≠ attempt) :
  NoRun runs' j attempt
  := by
  intro k r hr hj
  rw [hfind] at hr
  split at hr
  · cases hr
    apply hne hj
  · apply h k r hr hj

/-- A run that is there stays there, under its identifier. -/
theorem RunStep.find?_isSome {runs runs' : Runs} (h : RunStep σ a runs runs')
    (hkeeps : a.keepsRows = true) {k : Id} (hrun : ∃ run, runs.find? k = some run) :
  ∃ run, runs'.find? k = some run
  := by
  obtain ⟨run, hrun⟩ := hrun
  cases h with
  | keep => use run
  | @insert _ new _ hworker hnew hfind horigin =>
      rw [hfind]
      split
      · use new
      · use run
  | @finalize _ new _ hexisting hrunning hlineage hfind =>
      rw [hfind]
      split
      · use new
      · use run
  | delete p hcleanup =>
      rw [hkeeps] at hcleanup
      cases hcleanup

/-- A run is inserted by a scheduler at the attempt that it has begun, and that attempt has
no run yet. -/
theorem RunOrigin.attempt_free {w : WorkerId} {run : RunRecord} (h : RunOrigin σ w run)
    (hnew : σ.db.runs.find? run.id = none) (hworker : a.worker = some w)
    (hσ : NumberedRuns σ) (hsound : (σ.phase w).Sound) (hown : recordsOwnAttempt σ a = true) :
  ∃ job, (σ.phase w).current = some job ∧ run.jobId = job.id ∧ run.attempt = job.nextAttempt
    ∧ NoRun σ.db.runs job.id job.nextAttempt
  := by
  have hrelies := hσ.phases w
  cases h with
  | @marked _ _ job _ hphase hlineage =>
      simp only [RunRecord.lineage, JobRecord.runLineage, Prod.mk.injEq] at hlineage
      rw [hphase] at hrelies ⊢
      use job, rfl, hlineage.1, hlineage.2.2.2, hrelies
  | started hphase hlineage =>
      rw [hphase] at hrelies
      obtain ⟨r, hr⟩ := hrelies
      rw [hnew] at hr
      cases hr
  | @fail _ job current _ runningRun _ hphase hid hlineage =>
      simp only [RunRecord.lineage, JobRecord.runLineage, Prod.mk.injEq] at hlineage
      cases runningRun with
      | some running =>
          rw [hphase] at hrelies
          obtain ⟨r, hr⟩ := hrelies
          rw [← hid running rfl, hnew] at hr
          cases hr
      | none =>
          obtain ⟨hleased, hcount⟩ := of_recordsOwnAttempt hown hworker hphase
          rw [hphase] at hrelies hsound ⊢
          use job, rfl
          constructor
          · rw [hlineage.1, hsound.inspected job current rfl rfl]
          constructor
          · rw [hlineage.2.2.2, failureAttempt, if_neg hleased, hcount, max_self]
          · apply hrelies hleased hcount

/-- What a scheduler relies on in the runs is kept by the steps of other parties. -/
theorem Phase.ReliesOn.of_runStep {runs' : Runs} (h : RunStep σ a σ.db.runs runs')
    (hkeeps : a.keepsRows = true) (hσ : NumberedRuns σ) (hsound : SoundPhases σ)
    (hlease : ∀ j, Lease.Invariant (σ.lease j)) (hown : recordsOwnAttempt σ a = true) {v : WorkerId}
    (hother : a.worker ≠ some v) :
  (σ.phase v).ReliesOn runs'
  := by
  have hrelies := hσ.phases v
  -- what other schedulers insert is at other attempts
  have hfree : ∀ job, (σ.phase v).current = some job →
      NoRun σ.db.runs job.id job.nextAttempt → NoRun runs' job.id job.nextAttempt := by
    intro job hcurrent hnone
    cases h with
    | keep => apply hnone
    | @insert _ run w hworker hnew hfind horigin =>
        apply hnone.of_insert hfind
        intro hjob hattempt
        obtain ⟨job', hcurrent', hjob', hattempt', -⟩ :=
          horigin.attempt_free hnew hworker hσ (hsound w) hown
        apply hother
        rw [hworker, Option.some.injEq]
        apply (hlease job.id).begun_injective w v job.nextAttempt
        · rw [← hattempt, hattempt', ← hjob, hjob']
          apply ticket_of_current hcurrent'
        · apply ticket_of_current hcurrent
    | finalize hexisting hrunning hlineage hfind => apply hnone.of_finalize hexisting hlineage hfind
    | delete p hcleanup =>
        rw [hkeeps] at hcleanup
        cases hcleanup
  cases hphase : σ.phase v with
  | marked now job startedAt jobs =>
      rw [hphase] at hrelies hfree
      apply hfree job rfl hrelies
  | started now job startedAt runId jobs =>
      rw [hphase] at hrelies
      apply h.find?_isSome hkeeps hrelies
  | fail now job error current runningRun jobs =>
      rw [hphase] at hrelies hfree
      cases runningRun with
      | none =>
          intro hleased hcount
          apply hfree job rfl (hrelies hleased hcount)
      | some running => apply h.find?_isSome hkeeps hrelies
  | _ => trivial

/-- A scheduler that marks its job running, or decides to record a failure, finds what it
relies on afterwards. -/
theorem WorkerStep.reliesOn {w : WorkerId} {db : Db} {phase : Phase} {events : List Event}
    (h : WorkerStep env (config w) w σ.db (σ.phase w) db phase events) (hσ : NumberedRuns σ)
    (hsound : (σ.phase w).Sound) (hlease : ∀ j, Lease.Invariant (σ.lease j)) :
  phase.ReliesOn db.runs
  := by
  generalize hphase : σ.phase w = before at h
  cases h
  case mark job jobs jobsTable hmark =>
    -- the runs of the job have at most the attempt count that was noted at the claim
    obtain ⟨row, hrow, hleased, howner⟩ := tryMarkJobRunning_fst.mp (congrArg Prod.fst hmark)
    have hnoted : job.attemptCount = row.attemptCount := by
      have hclaimed : (σ.lease job.id).ticket w = .claimed job.attemptCount := by
        simp only [System.lease, Phase.ticket, hphase]
        apply pendingTicket_cons_self
      have hholder : (σ.lease job.id).holder = .leased w := by
        simp [System.lease, hrow, holderOf, JobRecord.holder, hleased, howner]
      rw [(hlease job.id).claimed_epoch w _ hclaimed hholder]
      simp [System.lease, hrow, attemptsOf]
    intro k run hrun hjob
    have hle := hσ.bound k run hrun
    rw [hjob, hrow] at hle
    simp only [attemptsOf, JobRecord.nextAttempt] at hle ⊢
    omega
  case start startedAt job jobs runId runs hrun =>
    use runningRun job runId startedAt
    rw [Table.find?_insert? hrun]
    apply if_pos rfl
  case failed now job current error jobs runningRun policy hruns hpolicy =>
    rw [hphase] at hsound
    have hid := hsound.inspected job current rfl rfl
    cases runningRun with
    | none =>
        intro hleased hcount k run hrun hjob
        have hmem : run ∈ listJobRuns σ.db.runs current.id := by
          apply mem_listJobRuns.mpr
          use Table.mem_of_find? hrun
          rw [hjob, hid]
        have hlt := attempt_lt_of_reconciliation_fail_none hruns hleased run hmem
        omega
    | some running =>
        obtain ⟨hlatest, -, -⟩ := of_reconciliation_fail_some hruns
        use running
        apply Table.find?_of_mem
        apply (mem_listJobRuns.mp (latestRun_eq_some hlatest).1).1
  all_goals trivial

/-- The runs have at most the attempt counts of their jobs after a step. -/
theorem RunStep.bound {runs' : Runs} (h : RunStep σ a σ.db.runs runs')
    (hkeeps : a.keepsRows = true) (hσ : NumberedRuns σ) (hsound : SoundPhases σ)
    (hlease : ∀ j, Lease.Invariant (σ.lease j)) (hown : recordsOwnAttempt σ a = true) {k : Id}
    {run : RunRecord} (hrun : runs'.find? k = some run) :
  run.attempt ≤ attemptsOf (σ.db.jobs.find? run.jobId)
  := by
  cases h with
  | keep => apply hσ.bound k run hrun
  | @insert _ new w hworker hnew hfind horigin =>
      rw [hfind] at hrun
      split at hrun
      · cases hrun
        obtain ⟨job, hcurrent, hjob, hattempt, -⟩ :=
          horigin.attempt_free hnew hworker hσ (hsound w) hown
        rw [hattempt, hjob]
        apply (hlease job.id).begun_le w
        apply ticket_of_current hcurrent
      · apply hσ.bound k run hrun
  | @finalize _ new existing hexisting hrunning hlineage hfind =>
      rw [hfind] at hrun
      split at hrun
      · cases hrun
        simp only [RunRecord.lineage, Prod.mk.injEq] at hlineage
        rw [hlineage.2.2.2, hlineage.1]
        apply hσ.bound _ existing hexisting
      · apply hσ.bound k run hrun
  | delete p hcleanup =>
      rw [hkeeps] at hcleanup
      cases hcleanup

/-- The runs of a job have distinct attempts when all but one have, and that one has an
attempt that none of the others has. -/
theorem unique_of_replace {runs runs' : Runs} {new : RunRecord}
    (hunique : ∀ k l r s, runs.find? k = some r → runs.find? l = some s → r.jobId = s.jobId →
      r.attempt = s.attempt → k = l)
    (hnew : ∀ k r, runs.find? k = some r → r.jobId = new.jobId → r.attempt = new.attempt →
      k = new.id)
    (hfind : ∀ k, runs'.find? k = if new.id = k then some new else runs.find? k) {k l : Id}
    {r s : RunRecord} (hr : runs'.find? k = some r) (hs : runs'.find? l = some s)
    (hjob : r.jobId = s.jobId) (hattempt : r.attempt = s.attempt) :
  k = l
  := by
  rw [hfind] at hr hs
  split at hr
  case isTrue hk =>
    cases hr
    split at hs
    case isTrue hl => rw [← hk, ← hl]
    case isFalse => rw [← hk, hnew l s hs hjob.symm hattempt.symm]
  case isFalse =>
    split at hs
    case isTrue hl =>
      cases hs
      rw [← hl, hnew k r hr hjob hattempt]
    case isFalse => apply hunique k l r s hr hs hjob hattempt

/-- The runs of a job have distinct attempts after a step. -/
theorem RunStep.unique {runs' : Runs} (h : RunStep σ a σ.db.runs runs')
    (hkeeps : a.keepsRows = true) (hσ : NumberedRuns σ) (hsound : SoundPhases σ)
    (hown : recordsOwnAttempt σ a = true) {k l : Id} {r s : RunRecord} (hr : runs'.find? k = some r)
    (hs : runs'.find? l = some s) (hjob : r.jobId = s.jobId) (hattempt : r.attempt = s.attempt) :
  k = l
  := by
  cases h with
  | keep => apply hσ.unique k l r s hr hs hjob hattempt
  | @insert _ new w hworker hnew hfind horigin =>
      obtain ⟨job, -, hnewJob, hnewAttempt, hnone⟩ :=
        horigin.attempt_free hnew hworker hσ (hsound w) hown
      apply unique_of_replace hσ.unique _ hfind hr hs hjob hattempt
      intro m t ht htJob htAttempt
      cases hnone m t ht (htJob.trans hnewJob) (htAttempt.trans hnewAttempt)
  | @finalize _ new existing hexisting hrunning hlineage hfind =>
      -- the run that is ended has the job and the attempt of the run it replaces
      simp only [RunRecord.lineage, Prod.mk.injEq] at hlineage
      obtain ⟨hnewJob, -, -, hnewAttempt⟩ := hlineage
      apply unique_of_replace hσ.unique _ hfind hr hs hjob hattempt
      intro m t ht htJob htAttempt
      apply hσ.unique m _ t existing ht hexisting (htJob.trans hnewJob)
        (htAttempt.trans hnewAttempt)
  | delete p hcleanup =>
      rw [hkeeps] at hcleanup
      cases hcleanup

/-- A step that deletes no row, and records failures only at the own attempt, keeps the
attempts distinct. -/
theorem NumberedRuns.step (hσ : NumberedRuns σ) (hsound : SoundPhases σ)
    (hlease : ∀ j, Lease.Invariant (σ.lease j)) (hkeeps : a.keepsRows = true)
    (hown : recordsOwnAttempt σ a = true) (h : step env config σ a = some τ) :
  NumberedRuns τ
  := by
  have hruns := runStep_of_step h
  constructor
  case bound =>
    intro k run hrun
    apply le_trans (hruns.bound hkeeps hσ hsound hlease hown hrun)
    apply Lease.epoch_le_of_reaches (lease_of_step hsound hkeeps h run.jobId) (hlease run.jobId)
  case unique =>
    intro k l r s hr hs hjob hattempt
    apply hruns.unique hkeeps hσ hsound hown hr hs hjob hattempt
  case phases =>
    intro v
    rcases phaseStep_of_step h v with ⟨hother, hsame⟩ | ⟨-, db, phase, events, hstep, rfl⟩
    · rw [hsame]
      apply Phase.ReliesOn.of_runStep hruns hkeeps hσ hsound hlease hown hother
    · rw [System.after_phase_self]
      apply hstep.reliesOn hσ (hsound v) hlease

/-- The attempts are distinct in every state that is reached without deleting rows, when
failures are recorded only at the own attempt. -/
theorem numberedRuns_of_path
    (h : Transition.Path (step env config)
      (fun σ a => a.keepsRows = true ∧ recordsOwnAttempt σ a = true) System.init σ) :
  NumberedRuns σ
  := by
  induction h with
  | refl => apply numberedRuns_init
  | tail hpath hguard hstep ih =>
      have hretained : Retained env config System.init _ := hpath.mono (fun _ _ h => h.1)
      obtain ⟨hsound, -⟩ := lease_of_retained hretained soundPhases_init ""
      apply ih.step hsound _ hguard.1 hguard.2 hstep
      intro j
      apply leaseInvariant_of_retained hretained j

/-- A terminal run stays as it is as long as no row is deleted. -/
theorem terminal_run_of_retained (h : Retained env config σ τ) {k : Id} {run : RunRecord}
    (hrun : σ.db.runs.find? k = some run) (hterminal : run.status.isTerminal = true) :
  τ.db.runs.find? k = some run
  := by
  induction h with
  | refl => apply hrun
  | tail _ hkeeps hstep ih => apply (runStep_of_step hstep).terminal_kept hkeeps ih hterminal

end

/-- In every state of a run in which no row is deleted, and every new run of the recovery is
recorded from a row still at the attempt that the scheduler has begun, no two runs of one
job have the same attempt; and from there on every run that is terminal stays as it is. -/
theorem attempts_numbered_uniquely (env : Environment) (config : WorkerId → SchedulerConfig)
    (σ : System) (h : Transition.Path (step env config)
      (fun σ a => a.keepsRows = true ∧ recordsOwnAttempt σ a = true) System.init σ) :
  (∀ r s, r ∈ σ.db.runs.rows → s ∈ σ.db.runs.rows → r.jobId = s.jobId →
      r.attempt = s.attempt → r = s)
    ∧ ∀ τ r, Retained env config σ τ → r ∈ σ.db.runs.rows → r.status.isTerminal = true →
      r ∈ τ.db.runs.rows
  := by
  constructor
  · intro r s hr hs hjob hattempt
    apply σ.db.runs.eq_of_key_eq hr hs
    apply (numberedRuns_of_path h).unique _ _ r s (Table.find?_of_mem hr) (Table.find?_of_mem hs)
      hjob hattempt
  · intro τ r hτ hr hterminal
    apply Table.mem_of_find? (terminal_run_of_retained hτ (Table.find?_of_mem hr) hterminal)

/-- The first attempt raises before its run is inserted, and its recovery begins. -/
def raisedBeforeStart : List Action :=
  [.submit { id := "a", kind := "report", createdAt := 0 },
    .scheduler "s1" (.begin 10), .scheduler "s1" .tick, .scheduler "s1" .tick,
    .scheduler "s1" .tick, .scheduler "s1" (.mark 11),
    .scheduler "s1" (.raise "RuntimeError: no registry")]

/-- The failure is recorded by the scheduler that still has the job. -/
def recordedInTime : List Action :=
  raisedBeforeStart ++ [.scheduler "s1" .tick, .scheduler "s1" .tick,
    .scheduler "s1" (.fail "r1" none none 12)]

/-- A recovery that is in time meets the conditions. -/
theorem attempts_numbered_recordedInTime :
  ∃ σ, sampleRunUnder (fun σ a => a.keepsRows && recordsOwnAttempt σ a) recordedInTime = some σ
    ∧ σ.db.runs.count (fun r => r.attempt == 1) = 1
    ∧ ∀ r s, r ∈ σ.db.runs.rows → s ∈ σ.db.runs.rows → r.jobId = s.jobId →
      r.attempt = s.attempt → r = s
  := by
  have hcount : (sampleRunUnder (fun σ a => a.keepsRows && recordsOwnAttempt σ a)
      recordedInTime).map (fun σ => σ.db.runs.count (fun r => r.attempt == 1)) = some 1 := by
    decide +kernel
  obtain ⟨σ, hrun, hcount⟩ := Option.map_eq_some_iff.mp hcount
  have hpath : Transition.Path (step Environment.sample sampleConfig)
      (fun σ a => a.keepsRows = true ∧ recordsOwnAttempt σ a = true) System.init σ := by
    apply (Transition.path_of_runUnder hrun).mono
    intro σ a h
    simpa using h
  use σ, hrun, hcount
  apply (attempts_numbered_uniquely Environment.sample sampleConfig σ hpath).1

/-- Before its recovery has read the row, another scheduler has claimed the job. The
recovery takes the number of the attempt which that scheduler is about to begin. -/
def recordedLate : List Action :=
  raisedBeforeStart ++ [.scheduler "s2" (.begin 100000000), .scheduler "s2" .tick,
    .scheduler "s1" .tick, .scheduler "s1" .tick, .scheduler "s1" (.fail "r1" none none 12),
    .scheduler "s2" .tick, .scheduler "s2" .tick, .scheduler "s2" (.mark 100000001),
    .scheduler "s2" (.start "r2")]

/-- The recovery of one scheduler and the attempt of another insert two runs of one job
with the same attempt. -/
theorem two_runs_of_one_attempt :
  ¬ ∀ σ, Retained Environment.sample sampleConfig System.init σ → ∀ r s,
      r ∈ σ.db.runs.rows → s ∈ σ.db.runs.rows → r.jobId = s.jobId → r.attempt = s.attempt → r = s
  := by
  intro h
  have hlate : (sampleRun recordedLate).map
      (fun σ => σ.db.runs.rows.map (fun r => (r.id, r.jobId, r.attempt)))
      = some [("r1", "a", 2), ("r2", "a", 2)] := by decide +kernel
  obtain ⟨σ, hrun, hrows⟩ := Option.map_eq_some_iff.mp hlate
  have hretained : Retained Environment.sample sampleConfig System.init σ :=
    Transition.path_of_run_forall hrun (by decide)
  have hr : ("r1", "a", 2) ∈ σ.db.runs.rows.map (fun r => (r.id, r.jobId, r.attempt)) := by
    rw [hrows]
    decide
  have hs : ("r2", "a", 2) ∈ σ.db.runs.rows.map (fun r => (r.id, r.jobId, r.attempt)) := by
    rw [hrows]
    decide
  obtain ⟨r, hr, hrkey⟩ := List.mem_map.mp hr
  obtain ⟨s, hs, hskey⟩ := List.mem_map.mp hs
  simp only [Prod.mk.injEq] at hrkey hskey
  have hsame : r = s := by
    apply h σ hretained r s hr hs
    · rw [hrkey.2.1, hskey.2.1]
    · rw [hrkey.2.2, hskey.2.2]
  rw [hsame, hskey.1] at hrkey
  simp at hrkey

end GoblinKing
