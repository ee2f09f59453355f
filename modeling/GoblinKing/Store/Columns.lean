import GoblinKing.CausalTime
import GoblinKing.Library.Codec
import GoblinKing.Store.Cleanup
import GoblinKing.Store.Listing

/-!
# Records and their columns

The records of jobs, runs, schedules, heartbeats and events with all of their fields, the columns
of their rows, and the functions of the store from one to the other. A timestamp has a UTC offset,
a column has none; an object stands in a column by its serialisation, and an integer only when it
has at most 64 bits.
-/

namespace GoblinKing

/-! ### Values -/

/-- The components of a `datetime`, as microseconds. -/
structure WallClock where
  micros : ℤ
  lower : datetimeMin ≤ micros
  upper : micros ≤ datetimeMax
  deriving DecidableEq

/-- A `datetime` with a time zone: its components and its offset from UTC, which is less than a
day. -/
structure Timestamp where
  wall : WallClock
  offset : ℤ
  bounded : -86400000000 < offset ∧ offset < 86400000000
  deriving DecidableEq

/-- The instant of a timestamp. -/
def Timestamp.instant (timestamp : Timestamp) : Instant :=
  timestamp.wall.micros - timestamp.offset

/-- The timestamp of components in UTC. -/
def WallClock.utc (wall : WallClock) : Timestamp :=
  ⟨wall, 0, by decide⟩

/-- `ensure_utc`: the conversion of a timestamp raises where a `datetime` cannot hold it. -/
def ensureUtc (timestamp : Timestamp) : Except String WallClock :=
  if h : datetimeMin ≤ timestamp.instant ∧ timestamp.instant ≤ datetimeMax then
    .ok ⟨timestamp.instant, h.1, h.2⟩
  else
    .error "date value out of range"

/-- A JSON object by its serialisation, which begins with a brace. Its entries are not looked into. -/
structure JsonDict where
  text : String
  braced : text.toList.head? = some '\x7b'
  deriving DecidableEq

/-- `json.loads`, for a text that has to be an object. -/
def jsonLoads (text : String) : Except String JsonDict :=
  if h : text.toList.head? = some '\x7b' then
    .ok ⟨text, h⟩
  else
    .error "Input should be a valid dictionary"

/-- The object without entries. -/
def JsonDict.empty : JsonDict :=
  ⟨"\x7b\x7d", by simp⟩

/-- A text with a minimal length of one. -/
structure NonemptyText where
  text : String
  nonempty : text ≠ ""
  deriving DecidableEq

/-- The check of a minimal length of one. -/
def nonemptyText (text : String) : Except String NonemptyText :=
  if h : text ≠ "" then
    .ok ⟨text, h⟩
  else
    .error "String should have at least 1 character"

/-- An integer that a column can hold. -/
def FitsInteger (value : ℤ) : Prop :=
  -9223372036854775808 ≤ value ∧ value ≤ 9223372036854775807

instance decidableFitsInteger (value : ℤ) : Decidable (FitsInteger value) :=
  inferInstanceAs (Decidable (_ ∧ _))

/-- Bind integers to columns: it raises for one that has more than 64 bits. -/
def bindIntegers (values : List ℤ) : Except String Unit :=
  if ∀ value ∈ values, FitsInteger value then
    .ok ()
  else
    .error "Python int too large to convert to SQLite INTEGER"

/-- The member of an enumeration with a text. -/
def literal {α : Type} (members : List α) (text : α → String) (value : String) :
    Except String α :=
  match members.find? (fun member => text member = value) with
  | some member => .ok member
  | none => .error "Input should be one of the literals"

/-- `JobStatus`, in the order of the source -/
def jobStatuses : List JobStatus :=
  [.queued, .leased, .running, .completed, .failed, .retrying, .timedOut, .cancelled]

/-- `RunStatus`, in the order of the source -/
def runStatuses : List RunStatus :=
  [.running, .completed, .failed, .timedOut]

/-- `EventSource` -/
inductive EventSource where
  | api
  | scheduler
  | runtime
  | worker
  | cli
  deriving DecidableEq

/-- The text of the source of an event. -/
def EventSource.text : EventSource → String
  | .api => "api"
  | .scheduler => "scheduler"
  | .runtime => "runtime"
  | .worker => "worker"
  | .cli => "cli"

/-- `EventSource`, in the order of the source -/
def eventSources : List EventSource :=
  [.api, .scheduler, .runtime, .worker, .cli]

/-- The text of the type of an owner. -/
def HeartbeatOwnerType.text : HeartbeatOwnerType → String
  | .scheduler => "scheduler"
  | .worker => "worker"

/-- `HeartbeatOwnerType`, in the order of the source -/
def heartbeatOwnerTypes : List HeartbeatOwnerType :=
  [.scheduler, .worker]

/-! ### Jobs -/

/-- All fields of a job, over a type of timestamps. -/
structure JobFields (τ : Type) where
  id : Id
  kind : String
  input : JsonDict
  createdAt : τ
  createdBy : String
  correlationId : Option String
  projectId : Option Id
  fanoutId : Option Id
  metadata : JsonDict
  status : JobStatus
  priority : ℤ
  scheduleId : Option Id
  dueAt : Option τ
  leaseOwner : Option WorkerId
  leasedUntil : Option τ
  attemptCount : ℤ
  maxRetries : ℤ
  timeoutSeconds : Option ℤ
  lastError : Option String
  deriving DecidableEq

/-- The fields of a job with other timestamps. -/
def JobFields.map {τ τ' : Type} (f : τ → τ') (job : JobFields τ) : JobFields τ' :=
  { job with
    createdAt := f job.createdAt
    dueAt := job.dueAt.map f
    leasedUntil := job.leasedUntil.map f }

/-- The columns of `jobs`. -/
structure JobColumns where
  id : Id
  kind : String
  inputJson : String
  createdAt : WallClock
  createdBy : String
  correlationId : Option String
  projectId : Option Id
  fanoutId : Option Id
  metadataJson : String
  status : String
  priority : ℤ
  scheduleId : Option Id
  dueAt : Option WallClock
  leaseOwner : Option WorkerId
  leasedUntil : Option WallClock
  attemptCount : ℤ
  maxRetries : ℤ
  timeoutSeconds : Option ℤ
  lastError : Option String

/-- The values that `save_job` inserts. -/
def JobFields.columns (job : JobFields Timestamp) : JobColumns where
  id := job.id
  kind := job.kind
  inputJson := job.input.text
  createdAt := job.createdAt.wall
  createdBy := job.createdBy
  correlationId := job.correlationId
  projectId := job.projectId
  fanoutId := job.fanoutId
  metadataJson := job.metadata.text
  status := job.status.text
  priority := job.priority
  scheduleId := job.scheduleId
  dueAt := job.dueAt.map Timestamp.wall
  leaseOwner := job.leaseOwner
  leasedUntil := job.leasedUntil.map Timestamp.wall
  attemptCount := job.attemptCount
  maxRetries := job.maxRetries
  timeoutSeconds := job.timeoutSeconds
  lastError := job.lastError

/-- The integers of a job. -/
def JobFields.integers {τ : Type} (job : JobFields τ) : List ℤ :=
  [job.priority, job.attemptCount, job.maxRetries] ++ job.timeoutSeconds.toList

/-- `save_job`, up to the insertion. -/
def jobToRow (job : JobFields Timestamp) : Except String JobColumns := do
  bindIntegers job.integers
  .ok job.columns

/-- `value or default`, for an integer. -/
def integerOr (value default : ℤ) : ℤ :=
  if value = 0 then default else value

/-- `value or default`, for a text. -/
def textOr (value default : String) : String :=
  if value = "" then default else value

/-- `_row_to_job` -/
def rowToJobFields (row : JobColumns) : Except String (JobFields Timestamp) := do
  let input ← jsonLoads row.inputJson
  let metadata ← jsonLoads (textOr row.metadataJson "\x7b\x7d")
  let status ← literal jobStatuses JobStatus.text (textOr row.status "queued")
  .ok {
    id := row.id
    kind := row.kind
    input := input
    createdAt := row.createdAt.utc
    createdBy := row.createdBy
    correlationId := row.correlationId
    projectId := row.projectId
    fanoutId := row.fanoutId
    metadata := metadata
    status := status
    priority := integerOr row.priority 100
    scheduleId := row.scheduleId
    dueAt := row.dueAt.map WallClock.utc
    leaseOwner := row.leaseOwner
    leasedUntil := row.leasedUntil.map WallClock.utc
    attemptCount := integerOr row.attemptCount 0
    maxRetries := integerOr row.maxRetries 0
    timeoutSeconds := row.timeoutSeconds
    lastError := row.lastError }

/-- The codec of jobs. -/
def jobCodec : Codec JobColumns.id (JobFields Timestamp) where
  id := JobFields.id
  encode := jobToRow
  decode := rowToJobFields
  key_encode := by
    intro job row h
    obtain ⟨-, -, h⟩ := Except.bind_eq_ok.mp h
    cases h
    rfl

/-! ### Runs -/

/-- A handoff of a result. -/
structure HandoffRecord where
  kind : NonemptyText
  payload : JsonDict
  deriving DecidableEq

/-- The result envelope of an execution with all of its fields. -/
structure ResultEnvelope where
  status : ResultStatus
  data : JsonDict
  artifacts : List ArtifactRecord
  metrics : JsonDict
  handoff : List HandoffRecord
  error : Option String
  deriving DecidableEq

/-- The serialisation of result envelopes by their model class. -/
structure ResultSerialisation where
  modelDumpJson : ResultEnvelope → String
  modelValidateJson : String → Except String ResultEnvelope

/-- A result is read back from its serialisation, which is not empty. -/
def ResultSerialisation.Serialises (results : ResultSerialisation) (result : ResultEnvelope) : Prop :=
  results.modelDumpJson result ≠ "" ∧
    results.modelValidateJson (results.modelDumpJson result) = .ok result

/-- All fields of a run, over a type of timestamps. -/
structure RunFields (τ : Type) where
  id : Id
  jobId : Id
  kind : String
  projectId : Option Id
  attempt : ℤ
  status : RunStatus
  startedAt : τ
  finishedAt : Option τ
  result : Option ResultEnvelope
  error : Option String
  timeoutSeconds : Option ℤ
  maxRetries : ℤ
  leasedUntil : Option τ
  resourcePolicy : Option JsonDict
  deriving DecidableEq

/-- The fields of a run with other timestamps. -/
def RunFields.map {τ τ' : Type} (f : τ → τ') (run : RunFields τ) : RunFields τ' :=
  { run with
    startedAt := f run.startedAt
    finishedAt := run.finishedAt.map f
    leasedUntil := run.leasedUntil.map f }

/-- The validator `validate_timestamp_order`. -/
def validateTimestampOrder (run : RunFields Timestamp) : Except String Unit :=
  match run.finishedAt with
  | none => .ok ()
  | some finishedAt => do
      let finished ← ensureUtc finishedAt
      let started ← ensureUtc run.startedAt
      raiseIf (finished.micros < started.micros)
        "finished_at must be greater than or equal to started_at"

/-- Give terminal persisted Runs a finish. -/
def RunFields.normalizePersisted {τ : Type} (run : RunFields τ) : RunFields τ :=
  if run.status.isTerminal ∧ run.finishedAt = none then
    { run with finishedAt := some run.startedAt }
  else
    run

/-- The columns of `runs`. -/
structure RunColumns where
  id : Id
  jobId : Id
  kind : String
  projectId : Option Id
  attempt : ℤ
  status : String
  startedAt : WallClock
  finishedAt : Option WallClock
  resultJson : Option String
  error : Option String
  timeoutSeconds : Option ℤ
  maxRetries : ℤ
  leasedUntil : Option WallClock
  resourcePolicyJson : Option String

/-- A value that counts as true: an object with entries. -/
def JsonDict.isTrue (object : JsonDict) : Bool :=
  decide (object ≠ .empty)

/-- `_run_values`, with the identifier of the run. -/
def RunFields.values (results : ResultSerialisation) (run : RunFields Timestamp) : RunColumns where
  id := run.id
  jobId := run.jobId
  kind := run.kind
  projectId := run.projectId
  attempt := run.attempt
  status := run.status.text
  startedAt := run.startedAt.wall
  finishedAt := run.finishedAt.map Timestamp.wall
  resultJson := run.result.map results.modelDumpJson
  error := run.error
  timeoutSeconds := run.timeoutSeconds
  maxRetries := run.maxRetries
  leasedUntil := run.leasedUntil.map Timestamp.wall
  resourcePolicyJson := (run.resourcePolicy.filter JsonDict.isTrue).map JsonDict.text

/-- The integers of a run. -/
def RunFields.integers {τ : Type} (run : RunFields τ) : List ℤ :=
  [run.attempt, run.maxRetries] ++ run.timeoutSeconds.toList

/-- `persist_run`, up to the insertion. -/
def runToRow (results : ResultSerialisation) (run : RunFields Timestamp) :
    Except String RunColumns := do
  bindIntegers run.integers
  .ok (run.normalizePersisted.values results)

/-- A nullable column with a text that is not empty is read by a function. -/
def readNullable {α : Type} (read : String → Except String α) (column : Option String) :
    Except String (Option α) :=
  match column.filter (· ≠ "") with
  | none => .ok none
  | some text => do
      let value ← read text
      .ok (some value)

/-- `_row_to_run` -/
def rowToRunFields (results : ResultSerialisation) (row : RunColumns) :
    Except String (RunFields Timestamp) := do
  let result ← readNullable results.modelValidateJson row.resultJson
  let resourcePolicy ← readNullable jsonLoads row.resourcePolicyJson
  let status ← literal runStatuses RunStatus.text row.status
  let run : RunFields Timestamp := {
    id := row.id
    jobId := row.jobId
    kind := row.kind
    projectId := row.projectId
    attempt := row.attempt
    status := status
    startedAt := row.startedAt.utc
    finishedAt := row.finishedAt.map WallClock.utc
    result := result
    error := row.error
    timeoutSeconds := row.timeoutSeconds
    maxRetries := integerOr row.maxRetries 0
    leasedUntil := row.leasedUntil.map WallClock.utc
    resourcePolicy := resourcePolicy }
  validateTimestampOrder run
  .ok run

/-- The identifier of a run does not change when it gets a finish. -/
theorem RunFields.normalizePersisted_id {τ : Type} (run : RunFields τ) :
  run.normalizePersisted.id = run.id
  := by
  unfold normalizePersisted
  split <;> rfl

/-- The codec of runs. -/
def runCodec (results : ResultSerialisation) : Codec RunColumns.id (RunFields Timestamp) where
  id := RunFields.id
  encode := runToRow results
  decode := rowToRunFields results
  key_encode := by
    intro run row h
    obtain ⟨-, -, h⟩ := Except.bind_eq_ok.mp h
    cases h
    apply RunFields.normalizePersisted_id

/-! ### Schedules -/

/-- All fields of a schedule, over a type of timestamps. -/
structure ScheduleFields (τ : Type) where
  id : Id
  kind : String
  projectId : Option Id
  input : JsonDict
  cron : String
  timezone : String
  enabled : Bool
  priority : ℤ
  createdAt : τ
  nextRunAt : τ
  lastMaterializedAt : Option τ
  maxRetries : ℤ
  timeoutSeconds : Option ℤ
  deriving DecidableEq

/-- The fields of a schedule with other timestamps. -/
def ScheduleFields.map {τ τ' : Type} (f : τ → τ') (schedule : ScheduleFields τ) :
    ScheduleFields τ' :=
  { schedule with
    createdAt := f schedule.createdAt
    nextRunAt := f schedule.nextRunAt
    lastMaterializedAt := schedule.lastMaterializedAt.map f }

/-- The columns of `schedules`. -/
structure ScheduleColumns where
  id : Id
  kind : String
  projectId : Option Id
  inputJson : String
  cron : String
  timezone : String
  enabled : ℤ
  priority : ℤ
  createdAt : WallClock
  nextRunAt : WallClock
  lastMaterializedAt : Option WallClock
  maxRetries : ℤ
  timeoutSeconds : Option ℤ

/-- The values that `save_schedule` inserts. -/
def ScheduleFields.columns (schedule : ScheduleFields Timestamp) : ScheduleColumns where
  id := schedule.id
  kind := schedule.kind
  projectId := schedule.projectId
  inputJson := schedule.input.text
  cron := schedule.cron
  timezone := schedule.timezone
  enabled := if schedule.enabled then 1 else 0
  priority := schedule.priority
  createdAt := schedule.createdAt.wall
  nextRunAt := schedule.nextRunAt.wall
  lastMaterializedAt := schedule.lastMaterializedAt.map Timestamp.wall
  maxRetries := schedule.maxRetries
  timeoutSeconds := schedule.timeoutSeconds

/-- The integers of a schedule. -/
def ScheduleFields.integers {τ : Type} (schedule : ScheduleFields τ) : List ℤ :=
  [schedule.priority, schedule.maxRetries] ++ schedule.timeoutSeconds.toList

/-- `save_schedule`, up to the insertion. -/
def scheduleToRow (schedule : ScheduleFields Timestamp) : Except String ScheduleColumns := do
  bindIntegers schedule.integers
  .ok schedule.columns

/-- `_row_to_schedule` -/
def rowToScheduleFields (row : ScheduleColumns) : Except String (ScheduleFields Timestamp) := do
  let input ← jsonLoads row.inputJson
  .ok {
    id := row.id
    kind := row.kind
    projectId := row.projectId
    input := input
    cron := row.cron
    timezone := row.timezone
    enabled := decide (row.enabled ≠ 0)
    priority := row.priority
    createdAt := row.createdAt.utc
    nextRunAt := row.nextRunAt.utc
    lastMaterializedAt := row.lastMaterializedAt.map WallClock.utc
    maxRetries := row.maxRetries
    timeoutSeconds := row.timeoutSeconds }

/-- The codec of schedules. -/
def scheduleCodec : Codec ScheduleColumns.id (ScheduleFields Timestamp) where
  id := ScheduleFields.id
  encode := scheduleToRow
  decode := rowToScheduleFields
  key_encode := by
    intro schedule row h
    obtain ⟨-, -, h⟩ := Except.bind_eq_ok.mp h
    cases h
    rfl

/-! ### Heartbeats -/

/-- All fields of a heartbeat, over a type of timestamps. -/
structure HeartbeatFields (τ : Type) where
  ownerId : Id
  ownerType : HeartbeatOwnerType
  status : NonemptyText
  lastSeenAt : τ
  jobId : Option Id
  runId : Option Id
  payload : JsonDict
  deriving DecidableEq

/-- The fields of a heartbeat with other timestamps. -/
def HeartbeatFields.map {τ τ' : Type} (f : τ → τ') (heartbeat : HeartbeatFields τ) :
    HeartbeatFields τ' :=
  { heartbeat with lastSeenAt := f heartbeat.lastSeenAt }

/-- The columns of `heartbeats`. -/
structure HeartbeatColumns where
  ownerId : Id
  ownerType : String
  status : String
  lastSeenAt : WallClock
  jobId : Option Id
  runId : Option Id
  payloadJson : String

/-- The values that a heartbeat puts into its row. -/
def HeartbeatFields.columns (heartbeat : HeartbeatFields Timestamp) : HeartbeatColumns where
  ownerId := heartbeat.ownerId
  ownerType := heartbeat.ownerType.text
  status := heartbeat.status.text
  lastSeenAt := heartbeat.lastSeenAt.wall
  jobId := heartbeat.jobId
  runId := heartbeat.runId
  payloadJson := heartbeat.payload.text

/-- `_row_to_heartbeat` -/
def rowToHeartbeatFields (row : HeartbeatColumns) :
    Except String (HeartbeatFields Timestamp) := do
  let ownerType ← literal heartbeatOwnerTypes HeartbeatOwnerType.text row.ownerType
  let status ← nonemptyText row.status
  let payload ← jsonLoads (textOr row.payloadJson "\x7b\x7d")
  .ok {
    ownerId := row.ownerId
    ownerType := ownerType
    status := status
    lastSeenAt := row.lastSeenAt.utc
    jobId := row.jobId
    runId := row.runId
    payload := payload }

/-- The codec of heartbeats. -/
def heartbeatCodec : Codec HeartbeatColumns.ownerId (HeartbeatFields Timestamp) where
  id := HeartbeatFields.ownerId
  encode heartbeat := .ok heartbeat.columns
  decode := rowToHeartbeatFields
  key_encode := by
    intro heartbeat row h
    cases h
    rfl

/-! ### Events -/

/-- All fields of an event, over a type of timestamps. -/
structure EventFields (τ : Type) where
  id : Id
  sequence : ℕ
  createdAt : τ
  eventType : NonemptyText
  source : EventSource
  projectId : Option Id
  jobId : Option Id
  runId : Option Id
  fanoutId : Option Id
  scheduleId : Option Id
  workerId : Option Id
  schedulerId : Option Id
  payload : JsonDict
  deriving DecidableEq

/-- The columns of `events`. -/
structure EventColumns where
  id : Id
  sequence : ℕ
  createdAt : WallClock
  eventType : String
  source : String
  projectId : Option Id
  jobId : Option Id
  runId : Option Id
  fanoutId : Option Id
  scheduleId : Option Id
  workerId : Option Id
  schedulerId : Option Id
  payloadJson : String

/-- The sequence of a row in the index `ix_events_causal_sequence`. -/
def EventColumns.sequenceIndex (row : EventColumns) : Option ℕ :=
  some row.sequence

/-- The rows of events, and the row of the table `causal_sequences` that counts them. -/
structure EventRows where
  events : IndexedTable EventColumns.id EventColumns.sequenceIndex
  counter : Option ℕ

/-- The values that `persist_event` inserts. -/
def EventFields.columns (event : EventFields WallClock) : EventColumns where
  id := event.id
  sequence := event.sequence
  createdAt := event.createdAt
  eventType := event.eventType.text
  source := event.source.text
  projectId := event.projectId
  jobId := event.jobId
  runId := event.runId
  fanoutId := event.fanoutId
  scheduleId := event.scheduleId
  workerId := event.workerId
  schedulerId := event.schedulerId
  payloadJson := event.payload.text

/-- `causally_after`, for the timestamp of the newest event: it raises where a `datetime` cannot
hold the result. -/
def causallyAfterPrevious (previous : Option WallClock) (candidate : Timestamp) :
    Except String WallClock := do
  let current ← ensureUtc candidate
  let after := causallyAfter [previous.map WallClock.micros] current.micros
  if h : datetimeMin ≤ after ∧ after ≤ datetimeMax then
    .ok ⟨after, h.1, h.2⟩
  else
    .error "date value out of range"

/-- Insert one causally ordered event and return it with its sequence and its timestamp. -/
def persistEventFields (db : EventRows) (event : EventFields Timestamp) :
    Except String (EventRows × EventFields WallClock) := do
  let previous := (db.events.table.rows.argmax EventColumns.sequence).map EventColumns.createdAt
  let createdAt ← causallyAfterPrevious previous event.createdAt
  match db.counter with
  | none => .error "No row was found when one was required"
  | some value => do
      let stored : EventFields WallClock :=
        { event with sequence := value + 1, createdAt := createdAt }
      let events ← uniqueOr (db.events.insert? stored.columns)
      .ok ({ events := events, counter := some (value + 1) }, stored)

/-- `_row_to_event` -/
def rowToEventFields (row : EventColumns) : Except String (EventFields Timestamp) := do
  let eventType ← nonemptyText row.eventType
  let source ← literal eventSources EventSource.text row.source
  let payload ← jsonLoads (textOr row.payloadJson "\x7b\x7d")
  .ok {
    id := row.id
    sequence := row.sequence
    createdAt := row.createdAt.utc
    eventType := eventType
    source := source
    projectId := row.projectId
    jobId := row.jobId
    runId := row.runId
    fanoutId := row.fanoutId
    scheduleId := row.scheduleId
    workerId := row.workerId
    schedulerId := row.schedulerId
    payload := payload }

/-- Load the event with an identifier. -/
def loadEvent (db : EventRows) (id : Id) : Except String (Option (EventFields Timestamp)) :=
  match db.events.find? id with
  | none => .ok none
  | some row => do
      let event ← rowToEventFields row
      .ok (some event)

end GoblinKing
