import GoblinKing.Store.Jobs

/-!
# The life of a run

The transactions that persist runs and reconcile a scheduler attempt with the row of its
job. An attempt is finalized in one transaction over both tables: the job changes only
while the attempt still owns it, the run is finished in any case, and an error rolls both
back.
-/

namespace GoblinKing

/-- The table of runs. -/
abbrev Runs := Table RunRecord.id

/-- Whether an attempt still owned the job it tried to finish. -/
inductive AttemptOutcome where
  | finalized
  | cancelled
  | stale
  deriving DecidableEq, Repr

/-- What a finalization returns. -/
structure AttemptFinalization where
  run : RunRecord
  outcome : AttemptOutcome
  deriving DecidableEq, Repr

/-- The representation of a string in an error message. -/
def quoted (s : String) : String :=
  "'" ++ s ++ "'"

/-- The representation of a lineage in an error message. -/
def lineageText (lineage : Id × String × Option Id × ℕ) : String :=
  let (jobId, kind, projectId, attempt) := lineage
  "(" ++ quoted jobId ++ ", " ++ quoted kind ++ ", "
    ++ (match projectId with | none => "None" | some p => quoted p) ++ ", "
    ++ toString attempt ++ ")"

/-- Give a terminal run a finish. -/
def normalizePersistedRun (run : RunRecord) : RunRecord :=
  if run.status.isTerminal && run.finishedAt.isNone then
    { run with finishedAt := some run.startedAt }
  else
    run

/-- Insert one run. -/
def insertRun (runs : Runs) (run : RunRecord) : Except String Runs :=
  match runs.insert? run with
  | some runs' => .ok runs'
  | none => .error "UNIQUE constraint failed: runs.id"

/-- Insert the one incomplete run exposed during worker execution. -/
def startRun (runs : Runs) (run : RunRecord) : Except String Runs :=
  if run.status ≠ .running then
    .error "a started Run must have status='running'"
  else if run.finishedAt.isSome then
    .error "a started Run cannot have finished_at"
  else if run.result.isSome then
    .error "a started Run cannot have a result"
  else if run.error.isSome then
    .error "a started Run cannot have an error"
  else
    insertRun runs run

/-- Insert a terminal run, or finish its exact running projection once. -/
def finalizeRun (runs : Runs) (run : RunRecord) : Except String Runs :=
  if run.status.isTerminal = false then
    .error ("cannot finalize Run " ++ quoted run.id ++ " with status " ++ quoted run.status.text)
  else
    match runs.find? run.id with
    | none => insertRun runs run
    | some existing =>
        if existing.status ≠ .running then
          .error ("cannot finalize Run " ++ quoted run.id ++ " from status "
            ++ quoted existing.status.text)
        else if run.lineage ≠ existing.lineage then
          .error ("cannot change Run " ++ quoted run.id ++ " lineage while finalizing: expected "
            ++ lineageText existing.lineage ++ ", received " ++ lineageText run.lineage)
        else
          .ok (runs.update (fun r => decide (r.id = run.id)) (fun r => { run with id := r.id })
            (fun _ => rfl))

/-- The row of a job is at an attempt that its owner `w` may finalize: running at the
attempt, or leased one below it. -/
def JobRecord.ownsAttempt (w : WorkerId) (attempt : ℕ) (row : JobRecord) : Bool :=
  decide (row.leaseOwner = some w)
    && ((row.status == .running && row.attemptCount == attempt)
      || (row.status == .leased && row.attemptCount + 1 == attempt))

/-- Only the owner of an active row owns an attempt. -/
theorem ownsAttempt_active {w : WorkerId} {attempt : ℕ} {row : JobRecord}
    (h : row.ownsAttempt w attempt = true) :
  row.leaseOwner = some w ∧ row.status.isActive = true
  := by
  simp only [JobRecord.ownsAttempt, Bool.and_eq_true, Bool.or_eq_true, beq_iff_eq,
    decide_eq_true_eq] at h
  obtain ⟨howner, ⟨hstatus, -⟩ | ⟨hstatus, -⟩⟩ := h
  · use howner
    rw [hstatus]
    rfl
  · use howner
    rw [hstatus]
    rfl

/-- Persist an attempt and conditionally transition only the job state it still owns. -/
def finalizeAttempt (jobs : Jobs) (runs : Runs) (run : RunRecord) (jobStatus : JobStatus)
    (lastError : Option String) (dueAt : Option Instant) (expectedLeaseOwner : WorkerId) :
    Except String (AttemptFinalization × Jobs × Runs) :=
  let normalized := normalizePersistedRun run
  match jobs.find? run.jobId with
  | none => .error ("job not found while finalizing attempt: " ++ run.jobId)
  | some row =>
      let (outcome, jobs') :=
        if row.ownsAttempt expectedLeaseOwner run.attempt then
          (AttemptOutcome.finalized,
            jobs.update (fun job => decide (job.id = run.jobId))
              (JobRecord.release jobStatus lastError dueAt)
              (JobRecord.release_id jobStatus lastError dueAt))
        else if row.status = .cancelled then
          (AttemptOutcome.cancelled, jobs)
        else
          (AttemptOutcome.stale, jobs)
      match finalizeRun runs normalized with
      | .ok runs' => .ok (⟨normalized, outcome⟩, jobs', runs')
      | .error error => .error error

/-- The runs of one job, ordered by attempt. -/
def listJobRuns (runs : Runs) (jobId : Id) : List RunRecord :=
  (runs.select (fun run => decide (run.jobId = jobId))).insertionSort
    (fun a b => a.attempt ≤ b.attempt)

/-! ### What each transaction leaves -/

@[simp]
theorem normalizePersistedRun_id (run : RunRecord) :
  (normalizePersistedRun run).id = run.id
  := by
  rw [normalizePersistedRun]
  split <;> rfl

@[simp]
theorem normalizePersistedRun_lineage (run : RunRecord) :
  (normalizePersistedRun run).lineage = run.lineage
  := by
  rw [normalizePersistedRun]
  split <;> rfl

@[simp]
theorem normalizePersistedRun_status (run : RunRecord) :
  (normalizePersistedRun run).status = run.status
  := by
  rw [normalizePersistedRun]
  split <;> rfl

/-- A run that has a finish is persisted as it is. -/
theorem normalizePersistedRun_of_finished {run : RunRecord} (h : run.finishedAt.isSome = true) :
  normalizePersistedRun run = run
  := by
  rw [normalizePersistedRun, if_neg]
  simp [Option.isNone_eq_false_iff.mpr h]

/-- The runs of a job as listed are the rows of the table with that job. -/
theorem mem_listJobRuns {runs : Runs} {jobId : Id} {run : RunRecord} :
  run ∈ listJobRuns runs jobId ↔ run ∈ runs.rows ∧ run.jobId = jobId
  := by
  simp [listJobRuns, Table.select]

/-- A started run is a running run under a new identifier. -/
theorem startRun_ok {runs runs' : Runs} {run : RunRecord} (h : startRun runs run = .ok runs') :
  run.status = .running ∧ runs.insert? run = some runs'
  := by
  rw [startRun] at h
  split_ifs at h with hstatus
  · rw [insertRun] at h
    cases hinsert : runs.insert? run with
    | none => simp [hinsert] at h
    | some runs'' =>
        simp only [hinsert, Except.ok.injEq] at h
        use not_not.mp hstatus
        rw [h]

/-- A successful `_finalize_run` writes a terminal run, which was absent, or was running
with the same lineage. -/
theorem finalizeRun_ok {runs runs' : Runs} {run : RunRecord}
    (h : finalizeRun runs run = .ok runs') :
  run.status.isTerminal = true
    ∧ (∀ existing, runs.find? run.id = some existing →
        existing.status = .running ∧ run.lineage = existing.lineage)
    ∧ ∀ k, runs'.find? k = if run.id = k then some run else runs.find? k
  := by
  rw [finalizeRun] at h
  split_ifs at h with hterminal
  rw [Bool.not_eq_false] at hterminal
  use hterminal
  cases hfind : runs.find? run.id with
  | none =>
      simp only [hfind, insertRun] at h
      cases hinsert : runs.insert? run with
      | none => simp [hinsert] at h
      | some runs'' =>
          simp only [hinsert, Except.ok.injEq] at h
          subst h
          constructor
          · intro existing he
            cases he
          · intro k
            apply Table.find?_insert? hinsert
  | some existing =>
      simp only [hfind] at h
      split_ifs at h with hrunning hlineage
      simp only [Except.ok.injEq] at h
      subst h
      constructor
      · rintro _ ⟨⟩
        use not_not.mp hrunning, not_not.mp hlineage
      · intro k
        rw [Table.find?_update]
        split_ifs with hk
        · subst hk
          have hid := Table.key_of_find? hfind
          simp only [hfind, Option.map_some, hid, decide_true, if_true]
        · cases hfk : runs.find? k with
          | none => rfl
          | some r =>
              have hr := Table.key_of_find? hfk
              have hne : ¬ r.id = run.id := fun h => hk (h.symm.trans hr)
              simp [hne]

/-- `_finalize_run` fails exactly for a run that is not terminal, or over a row that is
not running or has another lineage. -/
theorem finalizeRun_error {runs : Runs} {run : RunRecord} :
  (∃ error, finalizeRun runs run = .error error)
    ↔ run.status.isTerminal = false ∨ ∃ existing, runs.find? run.id = some existing
        ∧ (existing.status ≠ .running ∨ run.lineage ≠ existing.lineage)
  := by
  rw [finalizeRun]
  split_ifs with hterminal
  · simp [hterminal]
  · cases hfind : runs.find? run.id with
    | none =>
        obtain ⟨runs', hinsert⟩ := Table.exists_insert? hfind
        simp [insertRun, hinsert, hterminal]
    | some existing =>
        dsimp only
        split_ifs with hrunning hlineage
        · simp [hrunning]
        · simp [hlineage]
        · simp [hterminal, not_not.mp hrunning, not_not.mp hlineage]

/-- What a successful finalization of an attempt has done. The job changed only if the
attempt owned it, and the outcome says whether it did. -/
theorem finalizeAttempt_ok {jobs jobs' : Jobs} {runs runs' : Runs} {run : RunRecord}
    {jobStatus : JobStatus} {lastError : Option String} {dueAt : Option Instant} {w : WorkerId}
    {finalization : AttemptFinalization}
    (h : finalizeAttempt jobs runs run jobStatus lastError dueAt w
      = .ok (finalization, jobs', runs')) :
  ∃ row, jobs.find? run.jobId = some row
    ∧ finalizeRun runs (normalizePersistedRun run) = .ok runs'
    ∧ finalization.run = normalizePersistedRun run
    ∧ ((row.ownsAttempt w run.attempt = true ∧ finalization.outcome = .finalized
          ∧ jobs' = finishJob jobs run.jobId jobStatus lastError dueAt)
        ∨ (row.ownsAttempt w run.attempt = false ∧ finalization.outcome ≠ .finalized
          ∧ jobs' = jobs))
  := by
  rw [finalizeAttempt] at h
  cases hjob : jobs.find? run.jobId with
  | none => simp [hjob] at h
  | some row =>
      use row, rfl
      simp only [hjob] at h
      cases hrun : finalizeRun runs (normalizePersistedRun run) with
      | error error => simp [hrun] at h
      | ok runs'' =>
          simp only [hrun, Except.ok.injEq, Prod.mk.injEq] at h
          obtain ⟨rfl, rfl, rfl⟩ := h
          use rfl, rfl
          by_cases howns : row.ownsAttempt w run.attempt = true
          · left
            simp only [howns, if_true]
            exact ⟨trivial, trivial, rfl⟩
          · right
            simp only [Bool.not_eq_true] at howns
            simp only [howns, Bool.false_eq_true, if_false, true_and]
            split <;> simp

/-- A finalization leaves no run running that was not running before. -/
theorem running_of_finalizeAttempt {jobs jobs' : Jobs} {runs runs' : Runs} {run : RunRecord}
    {jobStatus : JobStatus} {lastError : Option String} {dueAt : Option Instant} {w : WorkerId}
    {finalization : AttemptFinalization}
    (h : finalizeAttempt jobs runs run jobStatus lastError dueAt w
      = .ok (finalization, jobs', runs')) {r : RunRecord} (hr : r ∈ runs'.rows)
    (hstatus : r.status = .running) :
  r ∈ runs.rows
  := by
  obtain ⟨row, -, hrun, -⟩ := finalizeAttempt_ok h
  obtain ⟨hterminal, -, hfind⟩ := finalizeRun_ok hrun
  have hr' := Table.find?_of_mem hr
  rw [hfind] at hr'
  split at hr'
  · cases hr'
    rw [hstatus] at hterminal
    cases hterminal
  · apply Table.mem_of_find? hr'

/-- A finalization fails exactly when the job is gone or `_finalize_run` fails. -/
theorem finalizeAttempt_error {jobs : Jobs} {runs : Runs} {run : RunRecord}
    {jobStatus : JobStatus} {lastError : Option String} {dueAt : Option Instant} {w : WorkerId} :
  (∃ error, finalizeAttempt jobs runs run jobStatus lastError dueAt w = .error error)
    ↔ jobs.find? run.jobId = none
      ∨ ∃ error, finalizeRun runs (normalizePersistedRun run) = .error error
  := by
  rw [finalizeAttempt]
  cases hjob : jobs.find? run.jobId with
  | none => simp
  | some row =>
      cases hrun : finalizeRun runs (normalizePersistedRun run) with
      | error error => simp
      | ok runs' => simp

end GoblinKing
