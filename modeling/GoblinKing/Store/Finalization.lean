import GoblinKing.Store.RoundTrip
import GoblinKing.Store.Tables

/-!
# The transaction of an attempt

The transaction that persists an attempt, statement by statement: it moves the row of the job on,
while the attempt still owns it, before it looks at the row of the run, and it deletes the children
of the run before it inserts new ones. Any of its statements may fail.
-/

namespace GoblinKing

/-! ### The transaction -/

/-- The artifacts of the result of a run. -/
def RunFields.artifacts {τ : Type} (run : RunFields τ) : List ArtifactRecord :=
  run.result.elim [] ResultEnvelope.artifacts

/-- The handoffs of the result of a run. -/
def RunFields.handoffs {τ : Type} (run : RunFields τ) : List HandoffRecord :=
  run.result.elim [] ResultEnvelope.handoff

/-- The values of a job that no attempt owns any more. The due time stays where there is no new
one. -/
def JobColumns.transition (jobStatus : String) (lastError : Option String)
    (dueAt : Option Timestamp) (row : JobColumns) : JobColumns :=
  { row with
    status := jobStatus
    lastError := lastError
    leaseOwner := none
    leasedUntil := none
    dueAt := (dueAt.map Timestamp.wall).or row.dueAt }

theorem JobColumns.transition_id (jobStatus : String) (lastError : Option String)
    (dueAt : Option Timestamp) (row : JobColumns) :
  (row.transition jobStatus lastError dueAt).id = row.id
  := rfl

/-- The row of a job is at an attempt that its owner may finalize. -/
def JobColumns.ownsAttempt (expectedLeaseOwner : WorkerId) (attempt : ℤ) (row : JobColumns) :
    Bool :=
  decide (row.leaseOwner = some expectedLeaseOwner)
    && ((decide (row.status = "running") && decide (row.attemptCount = attempt))
      || (decide (row.status = "leased") && decide (row.attemptCount + 1 = attempt)))

/-- The representation of the lineage of a run in an error message. -/
def RunColumns.lineageRepr (row : RunColumns) : String :=
  "(" ++ quoted row.jobId ++ ", " ++ quoted row.kind ++ ", "
    ++ row.projectId.elim "None" quoted ++ ", " ++ toString row.attempt ++ ")"

/-- Two rows have the same lineage. -/
def RunColumns.SameLineage (row other : RunColumns) : Prop :=
  (row.jobId, row.kind, row.projectId, row.attempt)
    = (other.jobId, other.kind, other.projectId, other.attempt)

instance (row other : RunColumns) : Decidable (row.SameLineage other) :=
  inferInstanceAs (Decidable (_ = _))

namespace StoreTables

/-- Update the row of a job that an attempt owns. -/
def updateJob (jobId : Id) (jobStatus : String) (lastError : Option String)
    (dueAt : Option Timestamp) : Program StoreTables Unit :=
  .statement (fun db =>
    .ok ((), { db with
      jobs := db.jobs.update (fun row => decide (row.id = jobId))
        (JobColumns.transition jobStatus lastError dueAt)
        (JobColumns.transition_id jobStatus lastError dueAt) }))

/-- `_insert_run_children` -/
def insertRunChildren (run : RunFields Timestamp) : Program StoreTables Unit := do
  run.artifacts.forM (insertArtifact run.id)
  run.handoffs.forM (insertHandoff run.id)

/-- `_insert_run` -/
def insertRun (results : ResultSerialisation) (run : RunFields Timestamp) :
    Program StoreTables Unit := do
  insertRunRow results run
  insertRunChildren run

/-- `_finalize_run` -/
def finalizeRun (results : ResultSerialisation) (run : RunFields Timestamp) :
    Program StoreTables Unit :=
  if run.status.isTerminal = false then
    .raise ("cannot finalize Run " ++ quoted run.id ++ " with status " ++ quoted run.status.text)
  else do
    match ← selectRun run.id with
    | none => insertRun results run
    | some existing =>
        if existing.status ≠ "running" then
          .raise ("cannot finalize Run " ++ quoted run.id ++ " from status "
            ++ quoted existing.status)
        else if ¬ (run.values results).SameLineage existing then
          .raise ("cannot change Run " ++ quoted run.id ++ " lineage while finalizing: expected "
            ++ existing.lineageRepr ++ ", received " ++ (run.values results).lineageRepr)
        else do
          updateRunRow results run
          deleteArtifacts run.id
          deleteHandoffs run.id
          insertRunChildren run

/-- The conditional transition of the job in `finalize_attempt`. -/
def transitionJob (run : RunFields Timestamp) (jobStatus : String) (lastError : Option String)
    (dueAt : Option Timestamp) (expectedLeaseOwner : WorkerId) :
    Program StoreTables AttemptOutcome := do
  match ← selectJob run.jobId with
  | none => .raise ("job not found while finalizing attempt: " ++ run.jobId)
  | some row =>
      if row.ownsAttempt expectedLeaseOwner run.attempt then do
        updateJob run.jobId jobStatus lastError dueAt
        pure .finalized
      else if row.status = "cancelled" then
        pure .cancelled
      else
        pure .stale

/-- `finalize_attempt` -/
def finalizeAttempt (results : ResultSerialisation) (run : RunFields Timestamp)
    (jobStatus : String) (lastError : Option String) (dueAt : Option Timestamp)
    (expectedLeaseOwner : WorkerId) :
    Program StoreTables (RunFields Timestamp × AttemptOutcome) :=
  .transact (do
    let outcome ← transitionJob run jobStatus lastError dueAt expectedLeaseOwner
    finalizeRun results run.normalizePersisted
    pure (run.normalizePersisted, outcome))

end StoreTables

/-! ### The children of runs -/

/-- The values of a handoff in its row. -/
def HandoffRecord.content (handoff : HandoffRecord) : String × String :=
  (handoff.kind.text, handoff.payload.text)

/-- The values of a handoff that stand in a row. -/
def HandoffRow.content (row : HandoffRow) : String × String :=
  (row.kind, row.payloadJson)

/-- The children stored for a run are exactly those of its result. -/
def StoreTables.HasChildren (db : StoreTables) (run : RunFields Timestamp) : Prop :=
  (db.artifactsOf run.id).map ArtifactRow.record = run.artifacts ∧
    (db.handoffsOf run.id).map HandoffRow.content = run.handoffs.map HandoffRecord.content

/-- A row holds an artifact of a run. -/
def ArtifactRow.Holds (runId : Id) (artifact : ArtifactRecord) (row : ArtifactRow) : Prop :=
  row.runId = runId ∧ row.record = artifact

/-- A row holds a handoff of a run. -/
def HandoffRow.Holds (runId : Id) (handoff : HandoffRecord) (row : HandoffRow) : Prop :=
  row.runId = runId ∧ row.content = handoff.content

/-- What the insertion of children leaves: they stand behind the children that were stored. -/
structure AddsChildren (run : RunFields Timestamp) (db db' : StoreTables) : Prop where
  jobs : db'.jobs = db.jobs
  runs : db'.runs = db.runs
  artifacts : ∃ rows, List.Forall₂ (ArtifactRow.Holds run.id) run.artifacts rows ∧
    db'.artifacts.rows = db.artifacts.rows ++ rows
  handoffs : ∃ rows, List.Forall₂ (HandoffRow.Holds run.id) run.handoffs rows ∧
    db'.handoffs.rows = db.handoffs.rows ++ rows

namespace StoreTables

variable {faults : Faults} {clock clock' : ℕ} {db db' : StoreTables}

/-- An artifact that was inserted stands behind the other ones. -/
theorem insertArtifact_ok {runId : Id} {artifact : ArtifactRecord}
    (h : (insertArtifact runId artifact).run faults clock db = ⟨.ok (), db', clock'⟩) :
  { db' with artifacts := .empty } = { db with artifacts := .empty } ∧
    ∃ row, ArtifactRow.Holds runId artifact row ∧
      db'.artifacts.rows = db.artifacts.rows ++ [row]
  := by
  obtain ⟨-, h, -⟩ := Program.run_statement_ok.mp h
  obtain ⟨artifacts, hinsert, h⟩ := Except.bind_eq_ok.mp h
  cases h
  exact ⟨rfl, _, ⟨rfl, rfl⟩, Table.rows_insert? (uniqueOr_ok.mp hinsert)⟩

/-- A handoff that was inserted stands behind the other ones. -/
theorem insertHandoff_ok {runId : Id} {handoff : HandoffRecord}
    (h : (insertHandoff runId handoff).run faults clock db = ⟨.ok (), db', clock'⟩) :
  { db' with handoffs := .empty } = { db with handoffs := .empty } ∧
    ∃ row, HandoffRow.Holds runId handoff row ∧ db'.handoffs.rows = db.handoffs.rows ++ [row]
  := by
  obtain ⟨-, h, -⟩ := Program.run_statement_ok.mp h
  obtain ⟨handoffs, hinsert, h⟩ := Except.bind_eq_ok.mp h
  cases h
  exact ⟨rfl, _, ⟨rfl, rfl⟩, Table.rows_insert? (uniqueOr_ok.mp hinsert)⟩

/-- The children of a run are added to those that are there. -/
theorem insertRunChildren_ok {run : RunFields Timestamp}
    (h : (insertRunChildren run).run faults clock db = ⟨.ok (), db', clock'⟩) :
  AddsChildren run db db'
  := by
  obtain ⟨_, db₁, clock₁, hartifacts, hhandoffs⟩ := Program.run_bind_ok.mp h
  obtain ⟨hrest₁, artifacts⟩ := Program.run_forM_append (fun db => db.artifacts.rows)
    (fun db : StoreTables => { db with artifacts := .empty }) (ArtifactRow.Holds run.id)
    (fun _ _ _ _ _ => insertArtifact_ok) hartifacts
  obtain ⟨hrest, handoffs⟩ := Program.run_forM_append (fun db => db.handoffs.rows)
    (fun db : StoreTables => { db with handoffs := .empty }) (HandoffRow.Holds run.id)
    (fun _ _ _ _ _ => insertHandoff_ok) hhandoffs
  simp only [mk.injEq, true_and] at hrest₁ hrest
  obtain ⟨hjobs₁, hruns₁, hhandoffs₁, -⟩ := hrest₁
  obtain ⟨hjobs, hruns, hartifacts, -⟩ := hrest
  constructor
  · rw [hjobs, hjobs₁]
  · rw [hruns, hruns₁]
  · rw [hartifacts]
    apply artifacts
  · rw [← hhandoffs₁]
    apply handoffs

end StoreTables

/-- The rows that hold a list of things are those of their run. -/
theorem filter_of_holds {α β ρ : Type} {runIdOf : ρ → Id} {content : ρ → β} (value : α → β)
    {runId : Id} {things : List α} {rows : List ρ}
    (h : List.Forall₂ (fun a row => runIdOf row = runId ∧ content row = value a) things rows) :
  (∀ k, k ≠ runId → rows.filter (fun row => decide (runIdOf row = k)) = []) ∧
    (rows.filter (fun row => decide (runIdOf row = runId))).map content = things.map value
  := by
  induction h with
  | nil => simp
  | cons hfirst _ ih =>
      obtain ⟨hrun, hcontent⟩ := hfirst
      obtain ⟨hothers, hown⟩ := ih
      constructor
      · intro k hk
        rw [List.filter_cons_of_neg (by simpa [hrun] using hk.symm), hothers k hk]
      · rw [List.filter_cons_of_pos (by simpa using hrun), List.map_cons, List.map_cons, hown,
          hcontent]

/-- The artifacts of a run and of other runs after children were added. -/
theorem AddsChildren.artifactsOf {run : RunFields Timestamp} {db db' : StoreTables}
    (h : AddsChildren run db db') :
  (∀ k, k ≠ run.id → db'.artifactsOf k = db.artifactsOf k) ∧
    (db'.artifactsOf run.id).map ArtifactRow.record
      = (db.artifactsOf run.id).map ArtifactRow.record ++ run.artifacts
  := by
  obtain ⟨rows, hholds, hrows⟩ := h.artifacts
  obtain ⟨hothers, hown⟩ := filter_of_holds id hholds
  simp only [StoreTables.artifactsOf, Table.select, hrows, List.filter_append, List.map_append]
  constructor
  · intro k hk
    rw [hothers k hk, List.append_nil]
  · rw [hown, List.map_id]

/-- The handoffs of a run and of other runs after children were added. -/
theorem AddsChildren.handoffsOf {run : RunFields Timestamp} {db db' : StoreTables}
    (h : AddsChildren run db db') :
  (∀ k, k ≠ run.id → db'.handoffsOf k = db.handoffsOf k) ∧
    (db'.handoffsOf run.id).map HandoffRow.content
      = (db.handoffsOf run.id).map HandoffRow.content ++ run.handoffs.map HandoffRecord.content
  := by
  obtain ⟨rows, hholds, hrows⟩ := h.handoffs
  obtain ⟨hothers, hown⟩ := filter_of_holds HandoffRecord.content hholds
  simp only [StoreTables.handoffsOf, Table.select, hrows, List.filter_append, List.map_append]
  constructor
  · intro k hk
    rw [hothers k hk, List.append_nil]
  · rw [hown]

/-! ### The run -/

/-- What the run part of a finalization leaves: the row and the children of the run, where the
children replace those of a row that was there. -/
structure StoresRun (results : ResultSerialisation) (run : RunFields Timestamp)
    (db db' : StoreTables) : Prop where
  jobs : db'.jobs = db.jobs
  row : db'.runs.find? run.id = some (run.values results)
  others : ∀ id, id ≠ run.id → db'.runs.find? id = db.runs.find? id ∧
    db'.artifactsOf id = db.artifactsOf id ∧ db'.handoffsOf id = db.handoffsOf id
  children : db'.HasChildren run ↔
    (db.runs.find? run.id = none → db.artifactsOf run.id = [] ∧ db.handoffsOf run.id = [])

namespace StoreTables

variable {faults : Faults} {clock clock' : ℕ} {db db' : StoreTables}

/-- The run that is inserted had no row. -/
theorem insertRun_ok {results : ResultSerialisation} {run : RunFields Timestamp}
    (h : (insertRun results run).run faults clock db = ⟨.ok (), db', clock'⟩) :
  StoresRun results run db db'
  := by
  obtain ⟨_, db₁, clock₁, hinsert, hchildren⟩ := Program.run_bind_ok.mp h
  obtain ⟨-, hinsert, -⟩ := Program.run_statement_ok.mp hinsert
  obtain ⟨_, -, hinsert⟩ := Except.bind_eq_ok.mp hinsert
  obtain ⟨runs, hruns, hinsert⟩ := Except.bind_eq_ok.mp hinsert
  cases hinsert
  have hruns := uniqueOr_ok.mp hruns
  have hadds := insertRunChildren_ok hchildren
  obtain ⟨hartifacts, hartifact⟩ := hadds.artifactsOf
  obtain ⟨hhandoffs, hhandoff⟩ := hadds.handoffsOf
  constructor
  · apply hadds.jobs
  · rw [hadds.runs, Table.find?_insert? hruns, if_pos]
    rfl
  · intro id hid
    have hne : (run.values results).id ≠ id := Ne.symm hid
    rw [hadds.runs, Table.find?_insert? hruns, if_neg hne]
    exact ⟨rfl, hartifacts id hid, hhandoffs id hid⟩
  · have hnone : db.runs.find? run.id = none := Table.find?_of_insert? hruns
    rw [HasChildren, hartifact, hhandoff, List.append_left_eq_self, List.append_left_eq_self]
    simp only [List.map_eq_nil_iff, hnone, true_implies]
    rfl

/-- A row of a run that is updated is the only one. -/
theorem updateRunRow_ok {results : ResultSerialisation} {run : RunFields Timestamp}
    (h : (updateRunRow results run).run faults clock db = ⟨.ok (), db', clock'⟩)
    (hrow : db.runs.find? run.id ≠ none) :
  db' = { db with runs := db'.runs } ∧ db'.runs.find? run.id = some (run.values results) ∧
    ∀ id, id ≠ run.id → db'.runs.find? id = db.runs.find? id
  := by
  obtain ⟨-, h, -⟩ := Program.run_statement_ok.mp h
  obtain ⟨_, -, h⟩ := Except.bind_eq_ok.mp h
  cases h
  use rfl
  constructor
  · obtain ⟨row, hrow⟩ := Option.ne_none_iff_exists'.mp hrow
    dsimp only
    rw [Table.find?_update_key, if_pos rfl, hrow, Option.map_some, Table.key_of_find? hrow]
    rfl
  · intro id hid
    dsimp only
    rw [Table.find?_update_key, if_neg hid]

/-- The children of a run are deleted, those of other runs stay. -/
theorem deleteArtifacts_ok {runId : Id}
    (h : (deleteArtifacts runId).run faults clock db = ⟨.ok (), db', clock'⟩) :
  db' = { db with artifacts := db'.artifacts } ∧ db'.artifactsOf runId = [] ∧
    ∀ id, id ≠ runId → db'.artifactsOf id = db.artifactsOf id
  := by
  obtain ⟨-, h, -⟩ := Program.run_statement_ok.mp h
  cases h
  use rfl
  simp only [artifactsOf, Table.select, Table.delete, List.filter_filter]
  constructor
  · simp
  · intro id hid
    congr 1
    funext row
    grind

/-- The children of a run are deleted, those of other runs stay. -/
theorem deleteHandoffs_ok {runId : Id}
    (h : (deleteHandoffs runId).run faults clock db = ⟨.ok (), db', clock'⟩) :
  db' = { db with handoffs := db'.handoffs } ∧ db'.handoffsOf runId = [] ∧
    ∀ id, id ≠ runId → db'.handoffsOf id = db.handoffsOf id
  := by
  obtain ⟨-, h, -⟩ := Program.run_statement_ok.mp h
  cases h
  use rfl
  simp only [handoffsOf, Table.select, Table.delete, List.filter_filter]
  constructor
  · simp
  · intro id hid
    congr 1
    funext row
    grind

/-- The run that is finished had a row. Its children are replaced. -/
theorem replaceRun_ok {results : ResultSerialisation} {run : RunFields Timestamp}
    (h : (do
      updateRunRow results run
      deleteArtifacts run.id
      deleteHandoffs run.id
      insertRunChildren run : Program StoreTables Unit).run faults clock db
        = ⟨.ok (), db', clock'⟩)
    (hrow : db.runs.find? run.id ≠ none) :
  StoresRun results run db db'
  := by
  obtain ⟨_, db₁, clock₁, h₁, h⟩ := Program.run_bind_ok.mp h
  obtain ⟨_, db₂, clock₂, h₂, h⟩ := Program.run_bind_ok.mp h
  obtain ⟨_, db₃, clock₃, h₃, h⟩ := Program.run_bind_ok.mp h
  obtain ⟨hdb₁, hown, hruns⟩ := updateRunRow_ok h₁ hrow
  obtain ⟨hdb₂, hnoArtifacts, hartifacts⟩ := deleteArtifacts_ok h₂
  obtain ⟨hdb₃, hnoHandoffs, hhandoffs⟩ := deleteHandoffs_ok h₃
  have hadds := insertRunChildren_ok h
  obtain ⟨hartifacts', hartifact⟩ := hadds.artifactsOf
  obtain ⟨hhandoffs', hhandoff⟩ := hadds.handoffsOf
  have hjobs : db₃.jobs = db.jobs := by rw [hdb₃, hdb₂, hdb₁]
  have hruns₃ : db₃.runs = db₁.runs := by rw [hdb₃, hdb₂]
  have hartifacts₃ : db₃.artifactsOf = db₂.artifactsOf := by rw [hdb₃]; rfl
  have hartifacts₁ : db₁.artifactsOf = db.artifactsOf := by rw [hdb₁]; rfl
  have hhandoffs₂ : db₂.handoffsOf = db.handoffsOf := by rw [hdb₂, hdb₁]; rfl
  constructor
  · rw [hadds.jobs, hjobs]
  · rw [hadds.runs, hruns₃, hown]
  · intro id hid
    rw [hadds.runs, hruns₃, hruns id hid, hartifacts' id hid, hartifacts₃, hartifacts id hid,
      hartifacts₁, hhandoffs' id hid, hhandoffs id hid, hhandoffs₂]
    exact ⟨rfl, rfl, rfl⟩
  · rw [HasChildren, hartifact, hhandoff, hartifacts₃, hnoArtifacts, hnoHandoffs]
    simp [hrow]

/-- `_finalize_run` stores the run and its children. -/
theorem finalizeRun_ok {results : ResultSerialisation} {run : RunFields Timestamp}
    (h : (finalizeRun results run).run faults clock db = ⟨.ok (), db', clock'⟩) :
  StoresRun results run db db'
  := by
  unfold finalizeRun at h
  split at h
  case isTrue => cases h
  case isFalse =>
    obtain ⟨existing, db₁, clock₁, hselect, h⟩ := Program.run_bind_ok.mp h
    obtain ⟨-, hselect, -⟩ := Program.run_statement_ok.mp hselect
    cases hselect
    cases hfind : db.runs.find? run.id with
    | none =>
        rw [hfind] at h
        apply insertRun_ok h
    | some existing =>
        rw [hfind] at h
        dsimp only at h
        split_ifs at h with hrunning hlineage
        · cases h
        · apply replaceRun_ok h
          rw [hfind]
          simp
        · cases h

/-! ### The job -/

/-- The row of the job changes only when the attempt owns it. -/
theorem transitionJob_ok {run : RunFields Timestamp} {jobStatus : String}
    {lastError : Option String} {dueAt : Option Timestamp} {w : WorkerId}
    {outcome : AttemptOutcome}
    (h : (transitionJob run jobStatus lastError dueAt w).run faults clock db
      = ⟨.ok outcome, db', clock'⟩) :
  db' = { db with jobs := db'.jobs } ∧
    (∀ id, id ≠ run.jobId → db'.jobs.find? id = db.jobs.find? id) ∧
    ∃ row, db.jobs.find? run.jobId = some row ∧
      (outcome = .finalized ↔ row.ownsAttempt w run.attempt = true) ∧
      db'.jobs.find? run.jobId = some
        (if outcome = .finalized then row.transition jobStatus lastError dueAt else row)
  := by
  obtain ⟨selected, db₁, clock₁, hselect, h⟩ := Program.run_bind_ok.mp h
  obtain ⟨-, hselect, -⟩ := Program.run_statement_ok.mp hselect
  cases hselect
  cases hfind : db.jobs.find? run.jobId with
  | none =>
      rw [hfind] at h
      cases h
  | some row =>
      rw [hfind] at h
      dsimp only at h
      split_ifs at h with howns hcancelled
      · obtain ⟨_, db₂, clock₂, hupdate, h⟩ := Program.run_bind_ok.mp h
        obtain ⟨-, hupdate, -⟩ := Program.run_statement_ok.mp hupdate
        cases hupdate
        cases h
        use rfl
        constructor
        · intro id hid
          dsimp only
          rw [Table.find?_update_key, if_neg hid]
        · use row, rfl
          dsimp only
          rw [Table.find?_update_key, if_pos rfl, hfind]
          simp [howns]
      · cases h
        use rfl, fun _ _ => rfl, row, rfl
        simp [howns, hfind]
      · cases h
        use rfl, fun _ _ => rfl, row, rfl
        simp [howns, hfind]

end StoreTables

/-! ### The attempt -/

/-- What a finalization that returns leaves and returns, but for the children of the run. -/
structure Finalizes (results : ResultSerialisation) (run : RunFields Timestamp)
    (jobStatus : String) (lastError : Option String) (dueAt : Option Timestamp) (w : WorkerId)
    (db : StoreTables) (returned : RunFields Timestamp × AttemptOutcome) (db' : StoreTables) :
    Prop where
  normalized : returned.1 = run.normalizePersisted
  row : db'.runs.find? run.id = some (run.normalizePersisted.values results)
  otherRuns : ∀ id, id ≠ run.id → db'.runs.find? id = db.runs.find? id ∧
    db'.artifactsOf id = db.artifactsOf id ∧ db'.handoffsOf id = db.handoffsOf id
  otherJobs : ∀ id, id ≠ run.jobId → db'.jobs.find? id = db.jobs.find? id
  job : ∃ row, db.jobs.find? run.jobId = some row ∧
    (returned.2 = .finalized ↔ row.ownsAttempt w run.attempt = true) ∧
    db'.jobs.find? run.jobId = some
      (if returned.2 = .finalized then row.transition jobStatus lastError dueAt else row)

/-- No artifact and no handoff of a run is stored without the row of the run. -/
def StoreTables.ChildrenHaveRun (db : StoreTables) (runId : Id) : Prop :=
  db.runs.find? runId = none → db.artifactsOf runId = [] ∧ db.handoffsOf runId = []

/-- The children of a run do not change when it gets a finish. -/
theorem hasChildren_normalizePersisted {db : StoreTables} {run : RunFields Timestamp} :
  db.HasChildren run.normalizePersisted ↔ db.HasChildren run
  := by
  rw [StoreTables.HasChildren, StoreTables.HasChildren, RunFields.artifacts, RunFields.artifacts,
    RunFields.handoffs, RunFields.handoffs, normalizePersisted_result,
    RunFields.normalizePersisted_id]

/-- An attempt is finalized in one transaction: where it raises, every table is as before. Where it
returns, the run and the job have their rows, and the rows of other runs and jobs are as before.
The children stored for the run are those of its result exactly when none were stored for it
without its row. -/
theorem finalizeAttempt_allOrNothing (results : ResultSerialisation) (run : RunFields Timestamp)
    (jobStatus : String) (lastError : Option String) (dueAt : Option Timestamp) (w : WorkerId)
    (faults : Faults) (clock : ℕ) (db : StoreTables) :
  ((StoreTables.finalizeAttempt results run jobStatus lastError dueAt w).run faults clock
      db).AllOrNothing db (fun returned db' =>
    Finalizes results run jobStatus lastError dueAt w db returned db' ∧
      (db'.HasChildren run ↔ db.ChildrenHaveRun run.id))
  := by
  apply Program.run_transact_allOrNothing
  intro returned db' clock' h
  obtain ⟨outcome, db₁, clock₁, hjob, h⟩ := Program.run_bind_ok.mp h
  obtain ⟨_, db₂, clock₂, hrun, h⟩ := Program.run_bind_ok.mp h
  cases h
  obtain ⟨hdb₁, hothers, hjob⟩ := StoreTables.transitionJob_ok hjob
  have hstores := StoreTables.finalizeRun_ok hrun
  have hruns : db₁.runs = db.runs := by rw [hdb₁]
  have hartifacts : db₁.artifactsOf = db.artifactsOf := by rw [hdb₁]; rfl
  have hhandoffs : db₁.handoffsOf = db.handoffsOf := by rw [hdb₁]; rfl
  have hid := RunFields.normalizePersisted_id run
  constructor
  · constructor
    · rfl
    · rw [← hid]
      apply hstores.row
    · intro id hne
      rw [← hruns, ← hartifacts, ← hhandoffs]
      apply hstores.others id (by rwa [hid])
    · rw [hstores.jobs]
      apply hothers
    · rw [hstores.jobs]
      apply hjob
  · rw [← hasChildren_normalizePersisted, hstores.children, hid, hruns, hartifacts, hhandoffs]
    rfl

/-- An artifact of a run that has no row. -/
def orphanedArtifacts : StoreTables where
  jobs := ⟨[(jobOfPriority 100).columns], by simp⟩
  runs := .empty
  artifacts := ⟨[{ id := 1, runId := "run-1", name := "report", uri := "report.json" }], by simp⟩
  handoffs := .empty
  fanouts := .empty

/-- A run without artifacts is stored, and the artifact that was there under its identifier is
counted as its own. -/
theorem orphanedArtifact_adopted :
  ¬ ∀ (results : ResultSerialisation) (run : RunFields Timestamp) (jobStatus : String)
      (lastError : Option String) (dueAt : Option Timestamp) (w : WorkerId) (faults : Faults)
      (clock : ℕ) (db : StoreTables),
    ((StoreTables.finalizeAttempt results run jobStatus lastError dueAt w).run faults clock
        db).AllOrNothing db (fun returned db' =>
      Finalizes results run jobStatus lastError dueAt w db returned db' ∧ db'.HasChildren run)
  := by
  intro h
  have hreport : ((StoreTables.finalizeAttempt emptySerialisation (runOfPolicy none) "completed" none
      none "scheduler-1").run Faults.none 0 orphanedArtifacts).outcome
        = .ok ((runOfPolicy none).normalizePersisted, .stale) := by
    decide +kernel
  have hclaim := h emptySerialisation (runOfPolicy none) "completed" none none "scheduler-1"
    Faults.none 0 orphanedArtifacts
  rw [Program.Report.AllOrNothing, hreport] at hclaim
  obtain ⟨-, hartifacts, -⟩ := hclaim
  revert hartifacts
  decide +kernel

end GoblinKing
