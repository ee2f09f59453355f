import GoblinKing.Scheduler.Execution
import GoblinKing.Store.Runs

/-!
# Unexpected failures

How `record_unexpected_job_failure` decides what to do about an attempt that raised: from the
row of the job it has read, and the runs of the job it has listed after that.
-/

namespace GoblinKing

/-- The order in which the runs of a job count as recent: by attempt, finished runs after
running ones, and then by the instant of the finish or the start. -/
def RunRecord.laterThan (a b : RunRecord) : Bool :=
  decide (b.attempt < a.attempt)
    || (decide (a.attempt = b.attempt)
      && ((a.finishedAt.isSome && b.finishedAt.isNone)
        || (a.finishedAt.isSome == b.finishedAt.isSome
          && decide (b.finishedAt.getD b.startedAt < a.finishedAt.getD a.startedAt))))

/-- The most recent run; of several, the first. -/
def latestRun : List RunRecord → Option RunRecord
  | [] => none
  | run :: runs => some (runs.foldl (fun latest r => if r.laterThan latest then r else latest) run)

/-- What is to be done about an attempt that raised. -/
inductive Reconciliation where
  /-- the latest run and the job are both terminal: nothing -/
  | settled (latest : RunRecord)
  /-- the latest run is terminal and the job is not: the job takes over its status -/
  | finish (latest : RunRecord)
  /-- fail the attempt, in the running run given or in a new one -/
  | fail (runningRun : Option RunRecord)
  deriving DecidableEq, Repr

/-- Decide from the row of the job and the runs of the job. -/
def reconciliation (current : JobRecord) (priorRuns : List RunRecord) : Reconciliation :=
  match latestRun priorRuns with
  | none => .fail none
  | some latest =>
      if latest.status ≠ .running then
        if current.status.isTerminal ∧ current.attemptCount ≤ latest.attempt then
          .settled latest
        else if current.status ≠ .leased ∧ current.attemptCount ≤ latest.attempt then
          .finish latest
        else
          .fail none
      else if current.attemptCount ≤ latest.attempt then
        .fail (some latest)
      else
        .fail none

/-- The attempt at which a failure is recorded. -/
def failureAttempt (current claimedJob : JobRecord) : ℕ :=
  max (if current.status = .leased then current.attemptCount + 1 else current.attemptCount)
    claimedJob.nextAttempt

/-- The message under which a failure is recorded. -/
def failureMessage (error : String) : String :=
  "Scheduler job execution failed at the job boundary; the lease was released. " ++ error

/-- When the attempt that failed has started. -/
def failureStartedAt (current : JobRecord) (runningRun : Option RunRecord)
    (runningEventAt : Option Instant) (startedAt : Instant) : Instant :=
  match runningRun with
  | some run => run.startedAt
  | none => causallyAfter [some current.createdAt, runningEventAt] startedAt

/-- The run in which a failure is recorded. -/
def failedRun (current claimedJob : JobRecord) (runningRun : Option RunRecord) (runId : Id)
    (startedAt finishedAt : Instant) (error : String) : RunRecord where
  id := match runningRun with | some run => run.id | none => runId
  jobId := current.id
  kind := current.kind
  projectId := current.projectId
  attempt := failureAttempt current claimedJob
  status := .failed
  startedAt := startedAt
  finishedAt := some finishedAt
  result := some (.failure (failureMessage error))
  error := some (failureMessage error)

/-- The lineage of the run in which a failure is recorded. -/
@[simp]
theorem failedRun_lineage (current claimedJob : JobRecord) (runningRun : Option RunRecord)
    (runId : Id) (startedAt finishedAt : Instant) (error : String) :
  (failedRun current claimedJob runningRun runId startedAt finishedAt error).lineage
    = current.runLineage (failureAttempt current claimedJob)
  := rfl

/-- Recording a failure raises exactly when the job is gone, or the run that was found
running has ended by now or has another lineage than the failure. -/
theorem finalizeAttempt_failedRun_error {jobs : Jobs} {runs : Runs} {run : RunRecord}
    {current claimedJob : JobRecord} {runningRun : Option RunRecord} {runId : Id}
    {startedAt finishedAt : Instant} {error : String} {w : WorkerId}
    (hid : runs.find? runId = none)
    (hrun : run = failedRun current claimedJob runningRun runId startedAt finishedAt error) :
  (∃ e, finalizeAttempt jobs runs run .failed run.error none w = .error e)
    ↔ jobs.find? current.id = none ∨ ∃ running existing, runningRun = some running
        ∧ runs.find? running.id = some existing
        ∧ (existing.status ≠ .running
          ∨ current.runLineage (failureAttempt current claimedJob) ≠ existing.lineage)
  := by
  subst hrun
  rw [finalizeAttempt_error, normalizePersistedRun_of_finished rfl, finalizeRun_error,
    failedRun_lineage]
  cases runningRun with
  | none => simp [failedRun, RunStatus.isTerminal, hid]
  | some running => simp [failedRun, RunStatus.isTerminal]

/-- A run that is not later than another has at most its attempt. -/
theorem attempt_le_of_not_laterThan {a b : RunRecord} (h : a.laterThan b = false) :
  a.attempt ≤ b.attempt
  := by
  simp only [RunRecord.laterThan, Bool.or_eq_false_iff, decide_eq_false_iff_not, not_lt] at h
  apply h.1

/-- A run that is later than another has at least its attempt. -/
theorem attempt_le_of_laterThan {a b : RunRecord} (h : a.laterThan b = true) :
  b.attempt ≤ a.attempt
  := by
  simp only [RunRecord.laterThan, Bool.or_eq_true, Bool.and_eq_true, decide_eq_true_eq] at h
  rcases h with h | ⟨h, -⟩
  · apply h.le
  · apply h.ge

/-- The fold of `latestRun` ends at one of its runs, and at the highest attempt. -/
theorem foldl_laterThan (runs : List RunRecord) (run : RunRecord) :
  let latest := runs.foldl (fun latest r => if r.laterThan latest then r else latest) run
  (latest = run ∨ latest ∈ runs) ∧ run.attempt ≤ latest.attempt
    ∧ ∀ r ∈ runs, r.attempt ≤ latest.attempt
  := by
  induction runs generalizing run with
  | nil => simp
  | cons r runs ih =>
      obtain ⟨hmem, hle, hall⟩ := ih (if r.laterThan run then r else run)
      simp only [List.foldl_cons]
      cases hlater : r.laterThan run with
      | true =>
          simp only [hlater, if_true] at hmem hle hall ⊢
          constructor
          · right
            rcases hmem with h | h
            · rw [h]
              apply List.mem_cons_self
            · apply List.mem_cons_of_mem _ h
          constructor
          · apply le_trans (attempt_le_of_laterThan hlater) hle
          · intro s hs
            rcases List.mem_cons.mp hs with rfl | hs
            · apply hle
            · apply hall s hs
      | false =>
          simp only [hlater, Bool.false_eq_true, if_false] at hmem hle hall ⊢
          constructor
          · rcases hmem with h | h
            · left
              apply h
            · right
              apply List.mem_cons_of_mem _ h
          use hle
          intro s hs
          rcases List.mem_cons.mp hs with rfl | hs
          · apply le_trans (attempt_le_of_not_laterThan hlater) hle
          · apply hall s hs

/-- The latest run is one of the runs, and none has a higher attempt. -/
theorem latestRun_eq_some {runs : List RunRecord} {latest : RunRecord}
    (h : latestRun runs = some latest) :
  latest ∈ runs ∧ ∀ run ∈ runs, run.attempt ≤ latest.attempt
  := by
  cases runs with
  | nil => cases h
  | cons run runs =>
      obtain ⟨hmem, hle, hall⟩ := foldl_laterThan runs run
      obtain rfl := Option.some.inj h
      constructor
      · rcases hmem with h | h
        · apply List.mem_cons.mpr
          left
          apply h
        · apply List.mem_cons_of_mem _ h
      · intro r hr
        rcases List.mem_cons.mp hr with rfl | hr
        · apply hle
        · apply hall r hr

/-- There is no latest run only when there is no run. -/
theorem latestRun_eq_none {runs : List RunRecord} :
  latestRun runs = none ↔ runs = []
  := by
  cases runs <;> simp [latestRun]

/-! ### The decision -/

/-- A failure is recorded in a new run only when no run of the job has reached the attempt
count of the row, or the row is leased. -/
theorem attempt_lt_of_reconciliation_fail_none {current : JobRecord} {runs : List RunRecord}
    (h : reconciliation current runs = .fail none) (hleased : current.status ≠ .leased) :
  ∀ run ∈ runs, run.attempt < current.attemptCount
  := by
  rw [reconciliation] at h
  cases hlatest : latestRun runs with
  | none =>
      rw [latestRun_eq_none.mp hlatest]
      simp
  | some latest =>
      intro run hrun
      apply lt_of_le_of_lt ((latestRun_eq_some hlatest).2 run hrun)
      simp only [hlatest] at h
      grind

/-- A failure is recorded in a running run only when that is the latest, and has reached
the attempt count of the row. -/
theorem of_reconciliation_fail_some {current : JobRecord} {runs : List RunRecord}
    {latest : RunRecord} (h : reconciliation current runs = .fail (some latest)) :
  latestRun runs = some latest ∧ latest.status = .running ∧ current.attemptCount ≤ latest.attempt
  := by
  rw [reconciliation] at h
  cases hlatest : latestRun runs with
  | none => simp [hlatest] at h
  | some run =>
      simp only [hlatest] at h
      grind

/-- The job takes over the status of a run only when that is the latest, is terminal and
has reached the attempt count of the row. -/
theorem of_reconciliation_finish {current : JobRecord} {runs : List RunRecord}
    {latest : RunRecord} (h : reconciliation current runs = .finish latest) :
  latestRun runs = some latest ∧ latest.status ≠ .running ∧ current.status ≠ .leased
    ∧ current.attemptCount ≤ latest.attempt
  := by
  rw [reconciliation] at h
  cases hlatest : latestRun runs with
  | none => simp [hlatest] at h
  | some run =>
      simp only [hlatest] at h
      grind

end GoblinKing
