import GoblinKing.Library.Retry
import GoblinKing.Scheduler.Holding

/-!
# What schedulers have at stake in a job

The row of a job, its runs and what the schedulers have at stake in it are seen as a task that
is attempted within a budget. As long as the job is not cancelled, its lease is not lost and no
attempt raises, every transaction of the system is a step of that task, or none.
-/

namespace GoblinKing

/-- What a scheduler has at stake in a job. -/
inductive Stake where
  | none
  /-- it has claimed the job, and not attempted it yet -/
  | claimed (job : JobRecord)
  /-- it has marked the job running -/
  | begun (job : JobRecord)
  /-- it has inserted the run of the attempt -/
  | opened (job : JobRecord) (startedAt : Instant) (runId : Id)
  /-- its attempt has raised -/
  | astray

/-- The stake in job `j` among claimed jobs. -/
def claimedStake (jobs : List JobRecord) (j : Id) : Stake :=
  match jobs.find? (fun job => job.id = j) with
  | none => .none
  | some job => .claimed job

/-- What a scheduler has at stake in job `j`. An attempt that is finalized is none any more. -/
def Phase.stake (phase : Phase) (j : Id) : Stake :=
  match phase with
  | .marked _ job _ jobs => if job.id = j then .begun job else claimedStake jobs j
  | .started _ job startedAt runId jobs =>
      if job.id = j then .opened job startedAt runId else claimedStake jobs j
  | .recover _ job _ jobs | .inspect _ job _ _ jobs | .reconcile _ job _ _ jobs
  | .fail _ job _ _ _ jobs => if job.id = j then .astray else claimedStake jobs j
  | phase => claimedStake phase.pending j

/-- The runs of a job, in the order of their insertion. -/
def runsOf (runs : Runs) (j : Id) : List RunRecord :=
  runs.select (fun run => decide (run.jobId = j))

/-- The columns of the row of a job that its retries depend on. -/
structure RetryColumns where
  status : JobStatus
  leaseOwner : Option WorkerId
  attemptCount : ℕ
  maxRetries : ℕ

/-- The columns that the retries of a job depend on. -/
def JobRecord.retryColumns (row : JobRecord) : RetryColumns where
  status := row.status
  leaseOwner := row.leaseOwner
  attemptCount := row.attemptCount
  maxRetries := row.maxRetries

/-- What is seen of a job. -/
structure JobView where
  row : Option RetryColumns
  runs : List RunRecord
  stake : WorkerId → Stake

/-- What is seen of job `j`. -/
def System.view (σ : System) (j : Id) : JobView where
  row := (σ.db.jobs.find? j).map JobRecord.retryColumns
  runs := runsOf σ.db.runs j
  stake := fun w => (σ.phase w).stake j

/-- The runs are those of finished attempts, numbered from 1. -/
structure Records (runs : List RunRecord) (outcomes : List RunStatus) : Prop where
  attempts : runs.map RunRecord.attempt = List.range' 1 outcomes.length
  statuses : runs.map RunRecord.status = outcomes

/-- What is seen of a job that stands as a task does. -/
inductive Tracks (v : JobView) : Retry.State WorkerId RunStatus → Prop where
  | absent {budget : ℕ} (hrow : v.row = none) (hruns : v.runs = [])
      (hstake : ∀ w, v.stake w = .none) :
      Tracks v ⟨.absent, budget, []⟩
  | queued {budget : ℕ} {outcomes : List RunStatus}
      (hrow : v.row = some ⟨.queued, none, outcomes.length, budget⟩)
      (hruns : Records v.runs outcomes) (hstake : ∀ w, v.stake w = .none) :
      Tracks v ⟨.queued, budget, outcomes⟩
  | retrying {budget : ℕ} {outcomes : List RunStatus}
      (hrow : v.row = some ⟨.retrying, none, outcomes.length, budget⟩)
      (hruns : Records v.runs outcomes) (hstake : ∀ w, v.stake w = .none) :
      Tracks v ⟨.retrying, budget, outcomes⟩
  | leased {budget : ℕ} {outcomes : List RunStatus} {w : WorkerId}
      (hrow : v.row = some ⟨.leased, some w, outcomes.length, budget⟩)
      (hruns : Records v.runs outcomes)
      (hstake : ∀ job, v.stake w = .claimed job →
        job.attemptCount = outcomes.length ∧ job.maxRetries = budget)
      (hclaimed : v.stake w = .none ∨ ∃ job, v.stake w = .claimed job)
      (hothers : ∀ u, u ≠ w → v.stake u = .none) :
      Tracks v ⟨.leased w, budget, outcomes⟩
  | begun {budget : ℕ} {outcomes : List RunStatus} {w : WorkerId} {job : JobRecord}
      (hrow : v.row = some ⟨.running, some w, outcomes.length + 1, budget⟩)
      (hruns : Records v.runs outcomes) (hstake : v.stake w = .begun job)
      (hjob : job.attemptCount = outcomes.length ∧ job.maxRetries = budget)
      (hothers : ∀ u, u ≠ w → v.stake u = .none) :
      Tracks v ⟨.begun w, budget, outcomes⟩
  | opened {budget : ℕ} {outcomes : List RunStatus} {w : WorkerId} {job : JobRecord}
      {startedAt : Instant} {runId : Id} {ended : List RunRecord}
      (hrow : v.row = some ⟨.running, some w, outcomes.length + 1, budget⟩)
      (hruns : v.runs = ended ++ [runningRun job runId startedAt])
      (hended : Records ended outcomes) (hstake : v.stake w = .opened job startedAt runId)
      (hjob : job.attemptCount = outcomes.length ∧ job.maxRetries = budget)
      (hothers : ∀ u, u ≠ w → v.stake u = .none) :
      Tracks v ⟨.opened w, budget, outcomes⟩
  | ended {budget : ℕ} {outcomes : List RunStatus} {outcome : RunStatus}
      (hrow : v.row = some ⟨outcome.toJobStatus, none, outcomes.length + 1, budget⟩)
      (hterminal : outcome.isTerminal = true) (hruns : Records v.runs (outcomes ++ [outcome]))
      (hstake : ∀ w, v.stake w = .none) :
      Tracks v ⟨.ended, budget, outcomes ++ [outcome]⟩

/-! ### Runs -/

/-- One more finished attempt. -/
theorem Records.concat {runs : List RunRecord} {outcomes : List RunStatus}
    (h : Records runs outcomes) (run : RunRecord) (hattempt : run.attempt = outcomes.length + 1) :
  Records (runs ++ [run]) (outcomes ++ [run.status])
  := by
  constructor
  · rw [List.map_append, h.attempts, List.length_append, List.length_singleton,
      List.range'_1_concat, Nat.add_comm 1, ← hattempt]
    rfl
  · rw [List.map_append, h.statuses]
    rfl

/-- The insertion of a run adds it to the runs of its job. -/
theorem runsOf_insert? {runs runs' : Runs} {run : RunRecord} (h : runs.insert? run = some runs')
    (j : Id) :
  runsOf runs' j = runsOf runs j ++ if run.jobId = j then [run] else []
  := by
  rw [runsOf, Table.select, Table.rows_insert? h, List.filter_append]
  split
  case isTrue hj => simp [runsOf, Table.select, hj]
  case isFalse hj => simp [runsOf, Table.select, hj]

/-- What `_finalize_run` leaves of the runs of a job. -/
theorem runsOf_finalizeRun {runs runs' : Runs} {run : RunRecord}
    (h : finalizeRun runs run = .ok runs') (j : Id) :
  (runs.find? run.id = none
      ∧ runsOf runs' j = runsOf runs j ++ if run.jobId = j then [run] else [])
    ∨ ∃ existing, runs.find? run.id = some existing ∧ run.jobId = existing.jobId
      ∧ runsOf runs' j = (runsOf runs j).map (fun r => if r.id = run.id then run else r)
  := by
  rw [finalizeRun] at h
  split_ifs at h with hterminal
  cases hfind : runs.find? run.id with
  | none =>
      left
      simp only [hfind, insertRun] at h
      cases hinsert : runs.insert? run with
      | none => simp [hinsert] at h
      | some runs'' =>
          simp only [hinsert, Except.ok.injEq] at h
          subst h
          use rfl, runsOf_insert? hinsert j
  | some existing =>
      right
      simp only [hfind] at h
      split_ifs at h with hrunning hlineage
      simp only [Except.ok.injEq] at h
      subst h
      have hjob : run.jobId = existing.jobId := congrArg Prod.fst (not_not.mp hlineage)
      use existing, rfl, hjob
      have hreplaced : ∀ r : RunRecord, (if decide (r.id = run.id) = true then
          { run with id := r.id } else r) = if r.id = run.id then run else r := by
        intro r
        by_cases hid : r.id = run.id
        · simp [hid]
        · simp [hid]
      simp only [runsOf, Table.select, Table.update, hreplaced, List.filter_map]
      congr 1
      apply List.filter_congr
      intro r hr
      rw [Function.comp_apply]
      split
      case isTrue hid =>
        obtain rfl : r = existing := by
          apply runs.eq_of_key_eq hr (Table.mem_of_find? hfind)
          rw [hid, Table.key_of_find? hfind]
        rw [hjob]
      case isFalse => rfl

/-- The finalization of a run leaves the runs of other jobs. -/
theorem runsOf_finalizeRun_of_ne {runs runs' : Runs} {run : RunRecord} {j : Id}
    (h : finalizeRun runs run = .ok runs') (hj : run.jobId ≠ j) :
  runsOf runs' j = runsOf runs j
  := by
  rcases runsOf_finalizeRun h j with ⟨-, hruns⟩ | ⟨existing, hfind, hjob, hruns⟩
  · rw [hruns, if_neg hj, List.append_nil]
  · rw [hruns]
    apply (List.map_congr_left _).trans (List.map_id _)
    intro r hr
    rw [if_neg, id]
    intro hid
    simp only [runsOf, Table.select, List.mem_filter, decide_eq_true_eq] at hr
    apply hj
    rw [hjob, ← hr.2]
    congr 1
    apply runs.eq_of_key_eq (Table.mem_of_find? hfind) hr.1
    rw [hid, Table.key_of_find? hfind]

/-- The finalization of a new run adds it to the runs of its job. -/
theorem runsOf_finalizeRun_new {runs runs' : Runs} {run : RunRecord}
    (h : finalizeRun runs run = .ok runs') (hnew : runs.find? run.id = none) :
  runsOf runs' run.jobId = runsOf runs run.jobId ++ [run]
  := by
  rcases runsOf_finalizeRun h run.jobId with ⟨-, hruns⟩ | ⟨existing, hfind, -⟩
  · rw [hruns, if_pos rfl]
  · rw [hnew] at hfind
    cases hfind

/-- The finalization of the last run of a job replaces it. -/
theorem runsOf_finalizeRun_last {runs runs' : Runs} {run existing : RunRecord}
    {ended : List RunRecord} (h : finalizeRun runs run = .ok runs')
    (hruns : runsOf runs run.jobId = ended ++ [existing]) (hid : existing.id = run.id) :
  runsOf runs' run.jobId = ended ++ [run]
  := by
  have hnodup : ((runsOf runs run.jobId).map RunRecord.id).Nodup :=
    runs.nodup.sublist (List.filter_sublist.map _)
  have hmem : existing ∈ runsOf runs run.jobId := by
    rw [hruns]
    simp
  have hfind : runs.find? run.id = some existing := by
    rw [← hid]
    apply Table.find?_of_mem
    apply (List.mem_filter.mp hmem).1
  rcases runsOf_finalizeRun h run.jobId with ⟨hnew, -⟩ | ⟨_, -, -, hreplaced⟩
  · rw [hnew] at hfind
    cases hfind
  · rw [hruns, List.map_append, List.nodup_append] at hnodup
    rw [hreplaced, hruns, List.map_append, List.map_singleton, if_pos hid]
    congr 1
    apply (List.map_congr_left _).trans (List.map_id _)
    intro r hr
    rw [if_neg, id]
    intro hrid
    apply hnodup.2.2 r.id (List.mem_map_of_mem hr) existing.id (by simp)
    rw [hrid, hid]

/-! ### Stakes -/

/-- There is no stake in a job that is not among the claimed ones. -/
theorem claimedStake_of_notMem {jobs : List JobRecord} {j : Id}
    (h : j ∉ jobs.map JobRecord.id) :
  claimedStake jobs j = .none
  := by
  have hnone : jobs.find? (fun job => job.id = j) = none := by
    rw [List.find?_eq_none]
    intro job hjob
    simp only [decide_eq_true_eq]
    rintro rfl
    apply h (List.mem_map_of_mem hjob)
  rw [claimedStake, hnone]

/-- A stake among claimed jobs is a claim of that job, or none. -/
theorem claimedStake_cases (jobs : List JobRecord) (j : Id) :
  claimedStake jobs j = .none ∨ ∃ job, job.id = j ∧ claimedStake jobs j = .claimed job
  := by
  rw [claimedStake]
  cases hfind : jobs.find? (fun job => decide (job.id = j)) with
  | none =>
      left
      rfl
  | some job =>
      right
      use job, by simpa using List.find?_some hfind

/-- The stake in the first of the claimed jobs. -/
theorem claimedStake_cons_self (job : JobRecord) (jobs : List JobRecord) :
  claimedStake (job :: jobs) job.id = .claimed job
  := by
  simp [claimedStake]

/-- The stake in a job does not depend on the other claimed jobs. -/
theorem claimedStake_append_cons_of_ne {job : JobRecord} {j : Id} (h : job.id ≠ j)
    (before jobs : List JobRecord) :
  claimedStake (before ++ job :: jobs) j = claimedStake (before ++ jobs) j
  := by
  simp [claimedStake, List.find?_append, h]

/-- The stake in a claimed job that is claimed once. -/
theorem claimedStake_append_cons_self {before jobs : List JobRecord} {job : JobRecord}
    (hnodup : ((before ++ job :: jobs).map JobRecord.id).Nodup) :
  claimedStake (before ++ job :: jobs) job.id = .claimed job
    ∧ claimedStake (before ++ jobs) job.id = .none
  := by
  have hperm : ((before ++ job :: jobs).map JobRecord.id).Perm
      (job.id :: (before ++ jobs).map JobRecord.id) := by
    rw [← List.map_cons]
    apply List.perm_middle.map
  obtain ⟨hnot, -⟩ := List.nodup_cons.mp (hperm.nodup_iff.mp hnodup)
  rw [List.map_append, List.mem_append, not_or] at hnot
  constructor
  · have hnone := claimedStake_of_notMem hnot.1
    rw [claimedStake] at hnone
    rw [claimedStake, List.find?_append]
    split at hnone
    case h_1 hfind => simp [hfind]
    case h_2 => cases hnone
  · apply claimedStake_of_notMem
    rw [List.map_append, List.mem_append, not_or]
    apply hnot

/-- The job whose attempt is under way is not among the claimed ones. -/
theorem claimedStake_of_current {phase : Phase} {job : JobRecord} (h : phase.Sound)
    (hcurrent : phase.current = some job) :
  claimedStake phase.pending job.id = .none
  := by
  apply claimedStake_of_notMem
  have hnodup := h.nodup
  simp only [Phase.held, hcurrent, Option.toList_some, List.cons_append, List.nil_append,
    List.map_cons, List.nodup_cons] at hnodup
  apply hnodup.1

/-! ### Steps of the task -/

/-- What is seen of a job after a step of a scheduler. -/
theorem view_after (σ : System) (w : WorkerId) (db : Db) (phase : Phase) (events : List Event)
    (j : Id) :
  (σ.after w db phase events).view j
    = ⟨(db.jobs.find? j).map JobRecord.retryColumns, runsOf db.runs j,
        Function.update (σ.view j).stake w (phase.stake j)⟩
  := by
  rw [System.view, System.after_db, JobView.mk.injEq]
  use rfl, rfl
  funext v
  by_cases h : v = w
  · subst h
    simp
  · simp [System.view, System.after_phase_of_ne σ h, h]

namespace Tracks

variable {v v' : JobView} {s : Retry.State WorkerId RunStatus} {w : WorkerId}

/-- A claim may be thrown away, and nothing else that is seen changes. -/
theorem quiet (h : Tracks v s) (hrow : v'.row = v.row) (hruns : v'.runs = v.runs)
    (hstake : ∀ u, v'.stake u = v.stake u
      ∨ (v'.stake u = .none ∧ ∃ job, v.stake u = .claimed job)) :
  Tracks v' s
  := by
  -- a stake that is not a claim is kept
  have hkeep : ∀ u stake, v.stake u = stake → (∀ job, stake ≠ .claimed job) →
      v'.stake u = stake := by
    rintro u _ rfl hnot
    rcases hstake u with hsame | ⟨-, job, hjob⟩
    · rw [hsame]
    · cases hnot job hjob
  have hnone : ∀ u, v.stake u = .none → v'.stake u = .none := by
    intro u hu
    apply hkeep u _ hu
    rintro job ⟨⟩
  cases h with
  | absent hrow' hruns' hfree =>
      apply Tracks.absent (hrow.trans hrow') (hruns.trans hruns') (fun u => hnone u (hfree u))
  | queued hrow' hruns' hfree =>
      rw [← hruns] at hruns'
      apply Tracks.queued (hrow.trans hrow') hruns' (fun u => hnone u (hfree u))
  | retrying hrow' hruns' hfree =>
      rw [← hruns] at hruns'
      apply Tracks.retrying (hrow.trans hrow') hruns' (fun u => hnone u (hfree u))
  | @leased _ _ w hrow' hruns' hjob hclaimed hothers =>
      rw [← hruns] at hruns'
      apply Tracks.leased (hrow.trans hrow') hruns' _ _ (fun u hu => hnone u (hothers u hu))
      · intro job hw
        rcases hstake w with hsame | ⟨hgone, -⟩
        · rw [hsame] at hw
          apply hjob job hw
        · rw [hgone] at hw
          cases hw
      · rcases hstake w with hsame | ⟨hgone, -⟩
        · rw [hsame]
          apply hclaimed
        · left
          apply hgone
  | begun hrow' hruns' hbegun hjob hothers =>
      rw [← hruns] at hruns'
      apply Tracks.begun (hrow.trans hrow') hruns' (hkeep _ _ hbegun (by simp)) hjob
        (fun u hu => hnone u (hothers u hu))
  | opened hrow' hruns' hended hopened hjob hothers =>
      apply Tracks.opened (hrow.trans hrow') (hruns.trans hruns') hended
        (hkeep _ _ hopened (by simp)) hjob (fun u hu => hnone u (hothers u hu))
  | ended hrow' hterminal hruns' hfree =>
      rw [← hruns] at hruns'
      apply Tracks.ended (hrow.trans hrow') hterminal hruns' (fun u => hnone u (hfree u))

/-- The stake of a scheduler is that of the one that holds the task, or none. -/
theorem stake_cases (h : Tracks v s) (u : WorkerId) :
  v.stake u = .none ∨ s.stage = .leased u ∨ s.stage = .begun u ∨ s.stage = .opened u
  := by
  cases h with
  | absent _ _ hfree => simp [hfree u]
  | queued _ _ hfree => simp [hfree u]
  | retrying _ _ hfree => simp [hfree u]
  | ended _ _ _ hfree => simp [hfree u]
  | @leased _ _ w _ _ _ hclaimed hothers =>
      by_cases hu : u = w
      · simp [hu]
      · simp [hothers u hu]
  | @begun _ _ w _ _ _ hbegun _ hothers =>
      by_cases hu : u = w
      · simp [hu]
      · simp [hothers u hu]
  | @opened _ _ w _ _ _ _ _ _ _ hopened _ hothers =>
      by_cases hu : u = w
      · simp [hu]
      · simp [hothers u hu]

/-- A scheduler whose attempt of the job has raised is not seen. -/
theorem stake_ne_astray (h : Tracks v s) (u : WorkerId) :
  v.stake u ≠ .astray
  := by
  intro hastray
  have hcases := h.stake_cases u
  rw [hastray] at hcases
  cases h with
  | leased hrow hruns hjob hclaimed hothers =>
      obtain rfl : _ = u := by simpa using hcases
      simp [hastray] at hclaimed
  | begun hrow hruns hbegun hjob hothers =>
      obtain rfl : _ = u := by simpa using hcases
      simp [hastray] at hbegun
  | opened hrow hruns hended hopened hjob hothers =>
      obtain rfl : _ = u := by simpa using hcases
      simp [hastray] at hopened
  | _ => simp at hcases

/-- What is known of a job that a scheduler has claimed. -/
theorem of_claimed (h : Tracks v s) {job : JobRecord} (hw : v.stake w = .claimed job) :
  s.stage = .leased w
    ∧ v.row = some ⟨.leased, some w, s.outcomes.length, s.budget⟩ ∧ Records v.runs s.outcomes
    ∧ job.attemptCount = s.outcomes.length ∧ job.maxRetries = s.budget
    ∧ ∀ u, u ≠ w → v.stake u = .none
  := by
  have hcases := h.stake_cases w
  rw [hw] at hcases
  cases h with
  | leased hrow hruns hjob hclaimed hothers =>
      obtain rfl : _ = w := by simpa using hcases
      exact ⟨rfl, hrow, hruns, (hjob job hw).1, (hjob job hw).2, hothers⟩
  | begun hrow hruns hbegun hjob hothers =>
      obtain rfl : _ = w := by simpa using hcases
      rw [hw] at hbegun
      cases hbegun
  | opened hrow hruns hended hopened hjob hothers =>
      obtain rfl : _ = w := by simpa using hcases
      rw [hw] at hopened
      cases hopened
  | _ => simp at hcases

/-- What is known of a job that a scheduler has marked running. -/
theorem of_begun (h : Tracks v s) {job : JobRecord} (hw : v.stake w = .begun job) :
  s.stage = .begun w
    ∧ v.row = some ⟨.running, some w, s.outcomes.length + 1, s.budget⟩
    ∧ Records v.runs s.outcomes ∧ job.attemptCount = s.outcomes.length
    ∧ job.maxRetries = s.budget ∧ ∀ u, u ≠ w → v.stake u = .none
  := by
  have hcases := h.stake_cases w
  rw [hw] at hcases
  cases h with
  | leased hrow hruns hjob hclaimed hothers =>
      obtain rfl : _ = w := by simpa using hcases
      simp [hw] at hclaimed
  | begun hrow hruns hbegun hjob hothers =>
      obtain rfl : _ = w := by simpa using hcases
      rw [hw] at hbegun
      cases hbegun
      exact ⟨rfl, hrow, hruns, hjob.1, hjob.2, hothers⟩
  | opened hrow hruns hended hopened hjob hothers =>
      obtain rfl : _ = w := by simpa using hcases
      rw [hw] at hopened
      cases hopened
  | _ => simp at hcases

/-- What is known of a job whose run a scheduler has inserted. -/
theorem of_opened (h : Tracks v s) {job : JobRecord} {startedAt : Instant} {runId : Id}
    (hw : v.stake w = .opened job startedAt runId) :
  s.stage = .opened w
    ∧ v.row = some ⟨.running, some w, s.outcomes.length + 1, s.budget⟩
    ∧ (∃ ended, v.runs = ended ++ [runningRun job runId startedAt] ∧ Records ended s.outcomes)
    ∧ job.attemptCount = s.outcomes.length ∧ job.maxRetries = s.budget
    ∧ ∀ u, u ≠ w → v.stake u = .none
  := by
  have hcases := h.stake_cases w
  rw [hw] at hcases
  cases h with
  | leased hrow hruns hjob hclaimed hothers =>
      obtain rfl : _ = w := by simpa using hcases
      simp [hw] at hclaimed
  | begun hrow hruns hbegun hjob hothers =>
      obtain rfl : _ = w := by simpa using hcases
      rw [hw] at hbegun
      cases hbegun
  | opened hrow hruns hended hopened hjob hothers =>
      obtain rfl : _ = w := by simpa using hcases
      rw [hw] at hopened
      cases hopened
      exact ⟨rfl, hrow, ⟨_, hruns, hended⟩, hjob.1, hjob.2, hothers⟩
  | _ => simp at hcases

end Tracks

/-! ### Simulation -/

/-- The validation of an image rejects an attempt. -/
def SchedulerAction.rejects : SchedulerAction → Bool
  | .reject _ _ _ _ => true
  | _ => false

/-- The validation of an image rejects an attempt. -/
def Action.rejects : Action → Bool
  | .scheduler _ action => action.rejects
  | _ => false

/-- An attempt that has failed may be repeated. -/
def RunStatus.repeatable (status : RunStatus) : Bool :=
  decide (status = .failed)

/-- An action of the task is what the action of the system is about: attempts are refused where
the validation rejects them. -/
def Action.Does (a : Action) : Retry.Action WorkerId RunStatus → Prop
  | .settle _ => a.rejects = false
  | .refuse outcome => a.rejects = true ∧ outcome = .failed
  | _ => True

/-- The action is a step of the task, or none. -/
def TaskStep (a : Action) (s s' : Retry.State WorkerId RunStatus) : Prop :=
  s' = s ∨ ∃ b, Retry.step RunStatus.repeatable s b = some s' ∧ a.Does b

section

variable {env : Environment} {config : SchedulerConfig} {σ : System} {w : WorkerId} {db : Db}
  {phase : Phase} {events : List Event} {a : Action} {j : Id}
  {s : Retry.State WorkerId RunStatus}

/-- A step that leaves the row and the runs of the job, and throws at most a claim away. -/
theorem Tracks.quiet_after (h : Tracks (σ.view j) s)
    (hrow : db.jobs.find? j = σ.db.jobs.find? j) (hruns : runsOf db.runs j = runsOf σ.db.runs j)
    (hstake : phase.stake j = (σ.phase w).stake j
      ∨ (phase.stake j = .none ∧ ∃ job, (σ.phase w).stake j = .claimed job)) :
  ∃ s', Tracks ((σ.after w db phase events).view j) s' ∧ TaskStep a s s'
  := by
  use s
  constructor
  · rw [view_after]
    apply h.quiet
    · rw [hrow]
      rfl
    · apply hruns
    · intro u
      dsimp only
      by_cases hu : u = w
      · subst hu
        rw [Function.update_self]
        apply hstake
      · rw [Function.update_of_ne hu]
        left
        rfl
  · left
    rfl

/-- A scheduler that gives up the jobs it has claimed throws at most a claim away. -/
theorem stake_of_givenUp {before : Phase} (jobs : List JobRecord)
    (hbefore : before.stake j = claimedStake jobs j) (hphase : phase.stake j = .none) :
  phase.stake j = before.stake j
    ∨ (phase.stake j = .none ∧ ∃ job, before.stake j = .claimed job)
  := by
  rw [hbefore, hphase]
  rcases claimedStake_cases jobs j with hnone | ⟨job, -, hjob⟩
  · left
    rw [hnone]
  · right
    use rfl, job

/-- A scheduler that gives up one of the jobs it has claimed throws at most a claim away. -/
theorem stake_of_dropped {before : Phase} {job : JobRecord} (runnable jobs : List JobRecord)
    (hbefore : before.stake j = claimedStake (runnable ++ job :: jobs) j)
    (hphase : phase.stake j = claimedStake (runnable ++ jobs) j)
    (hnodup : ((runnable ++ job :: jobs).map JobRecord.id).Nodup) :
  phase.stake j = before.stake j
    ∨ (phase.stake j = .none ∧ ∃ job, before.stake j = .claimed job)
  := by
  rw [hbefore, hphase]
  by_cases hj : job.id = j
  · subst hj
    obtain ⟨hself, hnone⟩ := claimedStake_append_cons_self hnodup
    right
    use hnone, job
  · left
    rw [claimedStake_append_cons_of_ne hj]

/-- Finishing a job leaves the rows of others. -/
theorem find?_finishJob_of_ne {jobs : Jobs} {jobId : Id} {status : JobStatus}
    {lastError : Option String} {dueAt : Option Instant} (hj : jobId ≠ j) :
  (finishJob jobs jobId status lastError dueAt).find? j = jobs.find? j
  := by
  rw [find?_finishJob]
  cases hfind : jobs.find? j with
  | none => rfl
  | some row =>
      rw [Option.map_some, if_neg]
      rintro rfl
      apply hj (Table.key_of_find? hfind)

/-- The finalization of an attempt of another job. -/
theorem find?_of_finalizeAttempt_of_ne {jobs jobs' : Jobs} {runs runs' : Runs} {run : RunRecord}
    {status : JobStatus} {lastError : Option String} {dueAt : Option Instant}
    {finalization : AttemptFinalization}
    (h : finalizeAttempt jobs runs run status lastError dueAt w = .ok (finalization, jobs', runs'))
    (hj : run.jobId ≠ j) :
  jobs'.find? j = jobs.find? j ∧ runsOf runs' j = runsOf runs j
  := by
  obtain ⟨row, -, hfinalize, -, hjobs⟩ := finalizeAttempt_ok h
  constructor
  · rcases hjobs with ⟨-, -, rfl⟩ | ⟨-, -, rfl⟩
    · apply find?_finishJob_of_ne hj
    · rfl
  · apply runsOf_finalizeRun_of_ne hfinalize
    rw [normalizePersistedRun]
    split <;> apply hj

/-- The finalization of an attempt of a job that is there does not fail, when its run is terminal
and is new or ends its own running run. -/
theorem finalizeAttempt_ne_error {jobs : Jobs} {runs : Runs} {run : RunRecord} {row : JobRecord}
    {status : JobStatus} {lastError : Option String} {dueAt : Option Instant}
    (hrow : jobs.find? run.jobId = some row) (hterminal : run.status.isTerminal = true)
    (hexisting : ∀ existing, runs.find? run.id = some existing →
      existing.status = .running ∧ run.lineage = existing.lineage) (error : String) :
  finalizeAttempt jobs runs run status lastError dueAt w ≠ .error error
  := by
  intro herror
  rcases finalizeAttempt_error.mp ⟨error, herror⟩ with hnone | hrun
  · rw [hrow] at hnone
    cases hnone
  · rw [finalizeRun_error] at hrun
    simp only [normalizePersistedRun_status, hterminal, normalizePersistedRun_id,
      normalizePersistedRun_lineage, Bool.true_eq_false, false_or] at hrun
    obtain ⟨existing, hfind, hne⟩ := hrun
    obtain ⟨hrunning, hlineage⟩ := hexisting existing hfind
    rcases hne with hne | hne
    · apply hne hrunning
    · apply hne hlineage

/-- What an attempt that was marked comes to, unless it raises: its run is inserted, or it is
rejected. -/
theorem of_schedulerStep_marked {db₀ : Db} {now startedAt : Instant} {job row : JobRecord}
    {jobs : List JobRecord} {action : SchedulerAction}
    (h : schedulerStep env config w db₀ (.marked now job startedAt jobs) action
      = some (db, phase, events)) (hraise : ∀ error, action ≠ .raise error)
    (hrow : db₀.jobs.find? job.id = some row) :
  (∃ runId runs, db₀.runs.insert? (runningRun job runId startedAt) = some runs
      ∧ db = { db₀ with runs := runs } ∧ phase = .started now job startedAt runId jobs)
    ∨ ∃ runId finishedAt validationError finalization jobsTable runs,
        let run := rejectedRun job runId startedAt finishedAt validationError
        action.rejects = true ∧ db₀.runs.find? runId = none
        ∧ finalizeAttempt db₀.jobs db₀.runs run .failed (some validationError) none w
          = .ok (finalization, jobsTable, runs)
        ∧ db = { db₀ with jobs := jobsTable, runs := runs } ∧ phase = .finalized now job jobs
  := by
  cases action <;> simp only [schedulerStep, reduceCtorEq] at h
  case raise error => cases hraise error rfl
  case start runId =>
    left
    rw [startAttempt] at h
    split_ifs at h with hid
    rw [Option.not_isSome_iff_eq_none] at hid
    obtain ⟨runs, hinsert⟩ := Table.exists_insert? (r := runningRun job runId startedAt) hid
    simp only [startRun, runningRun, insertRun] at h hinsert
    simp only [hinsert] at h
    cases h
    exact ⟨runId, runs, hinsert, rfl, rfl⟩
  case reject runId validationError latestEventAt clock =>
    right
    rw [rejectAttempt] at h
    split_ifs at h with hid
    rw [Option.not_isSome_iff_eq_none] at hid
    simp only [finalizeWithin, Option.some.injEq] at h
    split at h
    case h_1 error hfinalize =>
      refine (finalizeAttempt_ne_error hrow rfl ?_ error hfinalize).elim
      intro existing hexisting
      change db₀.runs.find? runId = some existing at hexisting
      rw [hid] at hexisting
      cases hexisting
    case h_2 finalization jobsTable runs hfinalize =>
      cases h
      exact ⟨runId, _, validationError, finalization, jobsTable, runs, rfl, hid, hfinalize, rfl, rfl⟩

/-- What an attempt whose run is inserted comes to, unless it raises: it is finalized. -/
theorem of_schedulerStep_started {db₀ : Db} {now startedAt : Instant} {job row : JobRecord}
    {runId : Id} {jobs : List JobRecord} {action : SchedulerAction}
    (h : schedulerStep env config w db₀ (.started now job startedAt runId jobs) action
      = some (db, phase, events)) (hraise : ∀ error, action ≠ .raise error)
    (hrow : db₀.jobs.find? job.id = some row) (howns : row.ownsAttempt w job.nextAttempt = true)
    (hrun : db₀.runs.find? runId = some (runningRun job runId startedAt)) :
  ∃ run lastError dueAt finalization jobsTable runs, action.rejects = false
    ∧ run.id = runId ∧ run.lineage = (runningRun job runId startedAt).lineage
    ∧ run.status.isTerminal = true ∧ run.finishedAt.isSome = true
    ∧ finalizeAttempt db₀.jobs db₀.runs run (finishedJobStatus job run.status) lastError dueAt w
      = .ok (finalization, jobsTable, runs)
    ∧ db = { db₀ with jobs := jobsTable, runs := runs } ∧ phase = .finalized now job jobs
  := by
  cases action <;> simp only [schedulerStep, reduceCtorEq] at h
  case raise error => cases hraise error rfl
  case finish result elapsed latestEventAt clock =>
    simp only [finishAttempt, finalizeWithin, Option.some.injEq] at h
    split at h
    case h_1 error hfinalize =>
      refine (finalizeAttempt_ne_error hrow (isTerminal_statusForResult _ _ _) ?_ error
        hfinalize).elim
      intro existing hexisting
      change db₀.runs.find? runId = some existing at hexisting
      rw [hrun] at hexisting
      cases hexisting
      exact ⟨rfl, rfl⟩
    case h_2 finalization jobsTable runs hfinalize =>
      obtain ⟨row', hrow', -, -, ⟨-, houtcome, -⟩ | ⟨hnot, -, -⟩⟩ := finalizeAttempt_ok hfinalize
      · rw [houtcome] at h
        cases h
        refine ⟨finishedRun job runId startedAt _ result elapsed, _, _, finalization, jobsTable,
          runs, rfl, rfl, rfl, ?_, rfl, hfinalize, rfl, rfl⟩
        apply isTerminal_statusForResult
      · change db₀.jobs.find? job.id = some row' at hrow'
        change row'.ownsAttempt w job.nextAttempt = false at hnot
        rw [hrow] at hrow'
        cases hrow'
        rw [howns] at hnot
        cases hnot

end

end GoblinKing
