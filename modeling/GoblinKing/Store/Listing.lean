import GoblinKing.Library.Listing
import GoblinKing.Repository.Contracts
import GoblinKing.Scheduler.System
import GoblinKing.Store.Events
import Mathlib.Order.Defs.LinearOrder

/-!
# Listings of the store

The queries behind the list endpoints: the rows of a table that meet the filters of a request,
in the order of the table, and a page of them.
-/

namespace GoblinKing

/-- The page that a request asks for, with the bounds that the endpoint checks. -/
structure PageQuery where
  limit : ℕ
  offset : ℕ
  limitPositive : 1 ≤ limit
  limitBounded : limit ≤ 500

/-- The page of a request without parameters. -/
def PageQuery.default : PageQuery :=
  ⟨100, 0, by decide, by decide⟩

/-- The rows of a page. The store bounds the limit again. -/
def PageQuery.page {α : Type} (query : PageQuery) (rows : List α) : List α :=
  (rows.drop query.offset).take (max 1 (min query.limit 500))

/-- A column has the value of a filter, if there is one. -/
def meets {α : Type} [DecidableEq α] (filter : Option α) (value : α) : Bool :=
  filter.all (fun wanted => decide (value = wanted))

/-- A row of the artifacts table. -/
structure ArtifactRow where
  id : ℕ
  runId : Id
  name : String
  uri : String
  mediaType : Option String := none
  deriving DecidableEq, Repr

/-- Describe an artifact produced by a goblin. -/
structure ArtifactRecord where
  name : String
  uri : String
  mediaType : Option String := none
  deriving DecidableEq, Repr

/-- The record of an artifact row. -/
def ArtifactRow.record (row : ArtifactRow) : ArtifactRecord where
  name := row.name
  uri := row.uri
  mediaType := row.mediaType

/-! ### Jobs, runs and fanouts -/

/-- Convert a row into the record of a job: the priority 0 is taken for a missing one. -/
def rowToJob (row : JobRecord) : JobRecord :=
  { row with priority := if row.priority = 0 then 100 else row.priority }

/-- A bounded page of jobs, the newest first. -/
def listJobsPage (jobs : Jobs) (projectId : Option Id) (status : Option String)
    (query : PageQuery) : List JobRecord :=
  (query.page ((jobs.select (fun job =>
    inScope projectId job.projectId && meets status job.status.text)).insertionSort
      (fun a b => b.createdAt ≤ a.createdAt))).map rowToJob

/-- A bounded page of runs, the newest first. -/
def listRunsPage (runs : Runs) (projectId : Option Id) (status kind : Option String)
    (query : PageQuery) : List RunRecord :=
  query.page ((runs.select (fun run =>
    inScope projectId run.projectId && meets status run.status.text
      && meets kind run.kind)).insertionSort
      (fun a b => b.startedAt ≤ a.startedAt))

/-- The artifacts of one run, by their names. -/
def listRunArtifacts (artifacts : Table ArtifactRow.id) (runId : Id) : List ArtifactRecord :=
  ((artifacts.select (fun row => decide (row.runId = runId))).insertionSort
    (fun a b => a.name ≤ b.name)).map ArtifactRow.record

/-- All fanout batches ordered by creation time. -/
def listFanouts (fanouts : Table FanoutRecord.id) : List FanoutRecord :=
  fanouts.rows.insertionSort (fun a b => a.createdAt ≤ b.createdAt)

/-- The jobs of one fanout batch. -/
def listFanoutJobs (jobs : Jobs) (fanoutId : Id) : List JobRecord :=
  ((jobs.select (fun job => decide (job.fanoutId = some fanoutId))).insertionSort
    (fun a b => a.createdAt ≤ b.createdAt)).map rowToJob

/-! ### Events and services -/

/-- The filters of a request for events. -/
structure EventQuery where
  page : PageQuery
  eventType : Option String := none
  afterId : Option Id := none
  jobId : Option Id := none
  runId : Option Id := none
  fanoutId : Option Id := none
  scheduleId : Option Id := none
  workerId : Option Id := none
  schedulerId : Option Id := none
  projectId : Option Id := none

/-- The sequence of the event after which a listing begins. The event is looked up without
regard to its project; one that is not there is no cursor. -/
def EventQuery.cursor (query : EventQuery)
    (events : IndexedTable EventRecord.id EventRecord.sequenceIndex) : Option ℕ :=
  query.afterId.bind (fun afterId => (events.find? afterId).map EventRecord.sequence)

/-- An event meets the filters of a request, after a cursor and in a project. -/
def EventQuery.selects (query : EventQuery) (cursor : Option ℕ) (projectId : Option Id)
    (event : EventRecord) : Bool :=
  meets query.eventType event.eventType && inScope projectId event.projectId
    && cursor.all (fun sequence => decide (sequence < event.sequence))
    && inScope query.jobId event.jobId && inScope query.runId event.runId
    && inScope query.fanoutId event.fanoutId && inScope query.scheduleId event.scheduleId
    && inScope query.workerId event.workerId && inScope query.schedulerId event.schedulerId

/-- Durable events with simple bounded filtering. -/
def listEvents (events : IndexedTable EventRecord.id EventRecord.sequenceIndex)
    (query : EventQuery) (projectId : Option Id) : List EventRecord :=
  query.page.page ((events.table.select
    (query.selects (query.cursor events) projectId)).insertionSort
      (fun a b => a.sequence ≤ b.sequence))

/-- Registered long-running services ordered by creation time. -/
def listLongServices (services : Table LongServiceRecord.id) (projectId : Option Id) :
    List LongServiceRecord :=
  (services.select (fun service => inScope projectId service.projectId)).insertionSort
    (fun a b => a.createdAt ≤ b.createdAt)

/-- Notebook-defined goblins, by their kinds. -/
def listNotebookGoblins (goblins : Table NotebookGoblinRecord.kind) (projectId : Option Id) :
    List NotebookGoblinRecord :=
  (goblins.select (fun goblin => inScope projectId goblin.projectId)).insertionSort
    (fun a b => a.kind ≤ b.kind)

/-! ### What a page has -/

/-- What is on a page is in the listing. -/
theorem PageQuery.mem_of_mem_page {α : Type} {query : PageQuery} {rows : List α} {row : α}
    (h : row ∈ query.page rows) :
  row ∈ rows
  := List.mem_of_mem_drop (List.mem_of_mem_take h)

/-- Everything in a listing is on some page. -/
theorem PageQuery.exists_mem_page {α : Type} {rows : List α} {row : α} (h : row ∈ rows) :
  ∃ query : PageQuery, row ∈ query.page rows
  := by
  obtain ⟨offset, hoffset⟩ := List.exists_mem_page h (le_refl 1)
  exact ⟨⟨1, offset, by decide, by decide⟩, hoffset⟩

end GoblinKing
