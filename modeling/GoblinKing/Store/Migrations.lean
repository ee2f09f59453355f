import GoblinKing.Library.Schema
import Mathlib.Order.MinMax

/-!
# Schema compatibility

What happens to an existing database when the store is opened: columns that are missing are
added, the events are numbered if one of them has no number, finished runs get a time at which
they finished, and unique indexes are created.
-/

namespace GoblinKing

open Sql

/-! ### Columns -/

/-- A column that may be null. -/
def nullable (name : String) : Column where
  name := name

/-- A column of texts with a default. -/
def textColumn (name default : String) : Column where
  name := name
  notNull := true
  default := .text default

/-- A column of numbers with a default. -/
def integerColumn (name : String) (default : ℤ) : Column where
  name := name
  notNull := true
  default := .integer default

/-- `job_additions` -/
def jobAdditions : List Column :=
  [nullable "fanout_id", nullable "project_id", textColumn "metadata_json" "\x7b\x7d",
    textColumn "status" "queued", integerColumn "priority" 100, nullable "schedule_id",
    nullable "due_at", nullable "lease_owner", nullable "leased_until",
    integerColumn "attempt_count" 0, integerColumn "max_retries" 0, nullable "timeout_seconds",
    nullable "last_error"]

/-- `run_additions` -/
def runAdditions : List Column :=
  [nullable "project_id", nullable "timeout_seconds", integerColumn "max_retries" 0,
    nullable "leased_until", nullable "resource_policy_json"]

/-- The column that fanouts and schedules may lack. -/
def projectAdditions : List Column :=
  [nullable "project_id"]

/-- The columns that events may lack. -/
def eventAdditions : List Column :=
  [nullable "project_id", integerColumn "sequence" 0]

/-- The column that long services may lack. -/
def longServiceAdditions : List Column :=
  [textColumn "probe_path" "/hello"]

/-- `repository_entry_additions` -/
def repositoryEntryAdditions : List Column :=
  [textColumn "name" "", textColumn "kind" "", textColumn "type" "notebook_function",
    nullable "project_id", textColumn "owner" "", textColumn "display_name" "",
    nullable "description", textColumn "tags_json" "[]", textColumn "status" "draft",
    nullable "published_version", nullable "created_at", nullable "updated_at"]

/-- `repository_version_additions` -/
def repositoryVersionAdditions : List Column :=
  [textColumn "entry_id" "", integerColumn "version" 1,
    textColumn "kind" "repository.unknown.v1", textColumn "source_hash" "",
    textColumn "runner_image" "", textColumn "validation_proof_json" "\x7b\x7d",
    textColumn "approval_status" "draft", textColumn "status" "draft", nullable "approved_by",
    nullable "approved_at", nullable "published_at", nullable "created_at",
    nullable "updated_at"]

/-! ### Indexes -/

/-- The index `uq_repository_entries_active_project_name`. -/
def activeProjectName : UniqueIndex where
  name := "uq_repository_entries_active_project_name"
  terms := [.coalesce "project_id" "", .column "name"]
  exclude := some ("status", "retired")

/-- The index `ix_repository_versions_entry_version`. -/
def entryVersion : UniqueIndex where
  name := "ix_repository_versions_entry_version"
  terms := [.column "entry_id", .column "version"]

/-- The index `ix_events_causal_sequence`. -/
def causalSequenceIndex : UniqueIndex where
  name := "ix_events_causal_sequence"
  terms := [.column "sequence"]

/-! ### The database -/

/-- A row of `event_stream_deliveries`. -/
structure EventStreamDelivery where
  target : String
  deliveredSequence : ℤ
  streamIdOffset : Option ℤ
  deriving DecidableEq, Repr

/-- The tables that the migration reads or writes, with the value of the counter of events in
`causal_sequences`, and the cursors of the deliveries, which it does not touch. -/
structure SqliteDatabase where
  jobs : Table
  runs : Table
  fanouts : Table
  schedules : Table
  events : Table
  longServices : Table
  repositoryEntries : Table
  repositoryVersions : Table
  causalSequence : Option ℤ
  eventStreamDeliveries : List EventStreamDelivery

/-- The sequences of the events, in the order of the row identifiers. -/
def sequences (events : Table) : List ℤ :=
  events.rows.map (fun row => (row "sequence").number)

/-- The number of an event in the order of the row identifiers. -/
def causalSequence (rows : List Row) (row : Row) : Value :=
  match rows.findIdx? (fun other => decide (other "id" = row "id" ∧ row "id" ≠ .null)) with
  | some position => .integer (position + 1)
  | none => .null

/-- Number all events when one of them has no number. -/
def backfillEventSequences (events : Table) : Except String Table :=
  if events.rows.any (fun row => decide (row "sequence" = .integer 0)) then
    events.update "sequence" (fun row => some (causalSequence events.rows row))
  else
    .ok events

/-- `MAX(sequence)`, 0 without events. -/
def highestSequence (events : Table) : ℤ :=
  (sequences events).max?.getD 0

/-- A run that finished before it started, or is over and has not finished. -/
def finishNeedsRepair (run : Row) : Bool :=
  (decide (run "finished_at" ≠ .null) && (run "finished_at").before (run "started_at"))
    || (decide (run "finished_at" = .null)
      && decide (run "status" ∈ [.text "completed", .text "failed", .text "timed_out"]))

/-- Such a run finishes when it starts. -/
def finishedAt (run : Row) : Option Value :=
  if finishNeedsRepair run then some (run "started_at") else none

/-- Repair the times at which runs finished. -/
def repairFinishedRuns (runs : Table) : Except String Table :=
  runs.update "finished_at" finishedAt

/-- Add compatibility columns to existing SQLite databases. -/
def ensureSchemaColumns (db : SqliteDatabase) : Except String SqliteDatabase := do
  let jobs ← Table.addColumns db.jobs.columns jobAdditions db.jobs
  let runs ← Table.addColumns db.runs.columns runAdditions db.runs
  let fanouts ← Table.addColumns db.fanouts.columns projectAdditions db.fanouts
  let schedules ← Table.addColumns db.schedules.columns projectAdditions db.schedules
  let events ← Table.addColumns db.events.columns eventAdditions db.events
  let events ← backfillEventSequences events
  let counter := max (db.causalSequence.getD (highestSequence events)) (highestSequence events)
  let longServices ← Table.addColumns db.longServices.columns longServiceAdditions db.longServices
  let repositoryEntries ← Table.addColumns db.repositoryEntries.columns repositoryEntryAdditions
    db.repositoryEntries
  let repositoryVersions ← Table.addColumns db.repositoryVersions.columns
    repositoryVersionAdditions db.repositoryVersions
  let runs ← repairFinishedRuns runs
  let repositoryEntries ← repositoryEntries.createUniqueIndex activeProjectName
  let repositoryVersions ← repositoryVersions.createUniqueIndex entryVersion
  let events ← events.createUniqueIndex causalSequenceIndex
  .ok { db with
    jobs := jobs
    runs := runs
    fanouts := fanouts
    schedules := schedules
    events := events
    longServices := longServices
    repositoryEntries := repositoryEntries
    repositoryVersions := repositoryVersions
    causalSequence := some counter }

/-- A database of an earlier version: it has the columns that no migration adds. The identifiers of
events are unique, their sequences are numbers, and the only unique index over a column that is
written is that of the sequences. An index with the name of one that is created is this index. -/
structure LegacyDatabase extends SqliteDatabase where
  runColumns : ∀ name ∈ ["started_at", "finished_at", "status"], name ∈ runs.columns
  runIndexes : ∀ index ∈ runs.indexes, "finished_at" ∉ index.columns
  eventIds : (events.rows.map (fun row => row "id")).Nodup
  eventIdsGiven : ∀ row ∈ events.rows, row "id" ≠ .null
  eventSequences : "sequence" ∈ events.columns →
    ∀ row ∈ events.rows, ∃ n, row "sequence" = .integer n
  eventIndexes : ∀ index ∈ events.indexes, "sequence" ∈ index.columns → index = causalSequenceIndex
  eventIndexNames : ∀ index ∈ events.indexes, index.name = causalSequenceIndex.name →
    index = causalSequenceIndex
  entryIndexNames : ∀ index ∈ repositoryEntries.indexes, index.name = activeProjectName.name →
    index = activeProjectName
  versionIndexNames : ∀ index ∈ repositoryVersions.indexes, index.name = entryVersion.name →
    index = entryVersion

end GoblinKing
