import GoblinKing.Library.Transaction
import GoblinKing.Store.Columns

/-!
# Tables and statements

The tables of jobs, runs, artifacts, handoffs and fanouts with all of their columns, and the
statements on them that take part in transactions.
-/

namespace GoblinKing

/-- A row of the handoffs table. -/
structure HandoffRow where
  id : ℕ
  runId : Id
  kind : String
  payloadJson : String
  deriving DecidableEq

/-- The columns of `fanouts`. -/
structure FanoutColumns where
  id : Id
  createdAt : WallClock
  createdBy : String
  projectId : Option Id
  correlationId : Option String
  description : Option String
  deriving DecidableEq

/-- The tables of jobs, runs and fanouts, and of the children of runs. -/
structure StoreTables where
  jobs : Table JobColumns.id
  runs : Table RunColumns.id
  artifacts : Table ArtifactRow.id
  handoffs : Table HandoffRow.id
  fanouts : Table FanoutColumns.id

/-- The tables without rows. -/
def StoreTables.empty : StoreTables :=
  ⟨.empty, .empty, .empty, .empty, .empty⟩

/-- The number of a new row: one more than the highest. -/
def nextRowid (ids : List ℕ) : ℕ :=
  ids.foldr max 0 + 1

namespace StoreTables

/-- The artifacts stored for a run. -/
def artifactsOf (db : StoreTables) (runId : Id) : List ArtifactRow :=
  db.artifacts.select (fun row => decide (row.runId = runId))

/-- The handoffs stored for a run. -/
def handoffsOf (db : StoreTables) (runId : Id) : List HandoffRow :=
  db.handoffs.select (fun row => decide (row.runId = runId))

/-! ### Statements -/

/-- Insert a job. -/
def insertJob (job : JobFields Timestamp) : Program StoreTables Unit :=
  .statement (fun db => do
    let row ← jobToRow job
    let jobs ← uniqueOr (db.jobs.insert? row)
    .ok ((), { db with jobs := jobs }))

/-- Insert a fanout. -/
def insertFanout (row : FanoutColumns) : Program StoreTables Unit :=
  .statement (fun db => do
    let fanouts ← uniqueOr (db.fanouts.insert? row)
    .ok ((), { db with fanouts := fanouts }))

/-- Insert a run. -/
def insertRunRow (results : ResultSerialisation) (run : RunFields Timestamp) :
    Program StoreTables Unit :=
  .statement (fun db => do
    bindIntegers run.integers
    let runs ← uniqueOr (db.runs.insert? (run.values results))
    .ok ((), { db with runs := runs }))

/-- Update the row of a run. -/
def updateRunRow (results : ResultSerialisation) (run : RunFields Timestamp) :
    Program StoreTables Unit :=
  .statement (fun db => do
    bindIntegers run.integers
    .ok ((), { db with
      runs := db.runs.update (fun row => decide (row.id = run.id))
        (fun row => { run.values results with id := row.id }) (fun _ => rfl) }))

/-- Insert an artifact of a run. -/
def insertArtifact (runId : Id) (artifact : ArtifactRecord) : Program StoreTables Unit :=
  .statement (fun db => do
    let artifacts ← uniqueOr (db.artifacts.insert?
      { id := nextRowid (db.artifacts.rows.map ArtifactRow.id)
        runId := runId
        name := artifact.name
        uri := artifact.uri
        mediaType := artifact.mediaType })
    .ok ((), { db with artifacts := artifacts }))

/-- Insert a handoff of a run. -/
def insertHandoff (runId : Id) (handoff : HandoffRecord) : Program StoreTables Unit :=
  .statement (fun db => do
    let handoffs ← uniqueOr (db.handoffs.insert?
      { id := nextRowid (db.handoffs.rows.map HandoffRow.id)
        runId := runId
        kind := handoff.kind.text
        payloadJson := handoff.payload.text })
    .ok ((), { db with handoffs := handoffs }))

/-- Delete the artifacts of a run. -/
def deleteArtifacts (runId : Id) : Program StoreTables Unit :=
  .statement (fun db =>
    .ok ((), { db with
      artifacts := db.artifacts.delete (fun row => decide (row.runId = runId)) }))

/-- Delete the handoffs of a run. -/
def deleteHandoffs (runId : Id) : Program StoreTables Unit :=
  .statement (fun db =>
    .ok ((), { db with
      handoffs := db.handoffs.delete (fun row => decide (row.runId = runId)) }))

/-- Select a job. -/
def selectJob (jobId : Id) : Program StoreTables (Option JobColumns) :=
  .statement (fun db => .ok (db.jobs.find? jobId, db))

/-- Select a run. -/
def selectRun (runId : Id) : Program StoreTables (Option RunColumns) :=
  .statement (fun db => .ok (db.runs.find? runId, db))

end StoreTables

end GoblinKing
