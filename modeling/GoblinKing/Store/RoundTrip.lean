import GoblinKing.Store.Columns

/-!
# Round trips through the store

What of a record is still there when it is saved and loaded again. The functions that write and
read rows are not inverse to each other: a priority of 0 and an empty policy are read as missing
ones, and a timestamp comes back as if its components had been in UTC. For every other record the
round trip is exact.
-/

namespace GoblinKing

/-! ### Values -/

/-- Components in UTC are the instant of a timestamp exactly when it has no offset. -/
theorem instant_utc_wall (timestamp : Timestamp) :
  timestamp.wall.utc.instant = timestamp.instant ↔ timestamp.offset = 0
  := by
  simp only [Timestamp.instant, WallClock.utc]
  grind

/-- A timestamp without an offset is the one of its components in UTC. -/
theorem utc_wall {timestamp : Timestamp} (h : timestamp.offset = 0) :
  timestamp.wall.utc = timestamp
  := by
  obtain ⟨wall, offset, bounded⟩ := timestamp
  subst h
  rfl

/-- A missing timestamp stays missing, and one that is there comes back as its instant exactly when
it has no offset. -/
theorem map_instant_utc_wall (timestamp : Option Timestamp) :
  (timestamp.map (fun t => t.wall.utc)).map Timestamp.instant = timestamp.map Timestamp.instant ↔
    ∀ t ∈ timestamp.toList, t.offset = 0
  := by
  cases timestamp with
  | none => simp
  | some timestamp => simp [instant_utc_wall]

/-- An object is read back from its serialisation. -/
theorem jsonLoads_text (object : JsonDict) :
  jsonLoads object.text = .ok object
  := by
  rw [jsonLoads, dif_pos object.braced]

/-- The serialisation of an object is not empty. -/
theorem JsonDict.text_ne (object : JsonDict) :
  object.text ≠ ""
  := by
  intro h
  have hbraced := object.braced
  rw [h] at hbraced
  simp at hbraced

/-- A text with a minimal length passes its check. -/
theorem nonemptyText_text (text : NonemptyText) :
  nonemptyText text.text = .ok text
  := by
  rw [nonemptyText, dif_pos text.nonempty]

/-- A row is written when each of its integers fits. -/
theorem bindIntegers_bind_eq_ok {α : Type} {values : List ℤ} {row row' : α} :
  (bindIntegers values >>= fun _ => Except.ok row) = .ok row' ↔
    (∀ value ∈ values, FitsInteger value) ∧ row' = row
  := by
  unfold bindIntegers
  by_cases h : ∀ value ∈ values, FitsInteger value
  · rw [if_pos h]
    constructor
    · intro hrow
      cases hrow
      exact ⟨h, rfl⟩
    · rintro ⟨-, rfl⟩
      rfl
  · rw [if_neg h]
    constructor
    · intro hrow
      cases hrow
    · rintro ⟨h', -⟩
      cases h h'

/-- An integer counts for itself where its default is 0. -/
theorem integerOr_zero (value : ℤ) :
  integerOr value 0 = value
  := by
  unfold integerOr
  split
  case isTrue h => rw [h]
  case isFalse => rfl

/-- An integer counts for itself exactly when it is not 0, or is its default. -/
theorem integerOr_eq_self {value default : ℤ} (hdefault : default ≠ 0) :
  integerOr value default = value ↔ value ≠ 0
  := by
  unfold integerOr
  split
  case isTrue h =>
    subst h
    simpa using hdefault
  case isFalse h => simpa using h

/-- A text that is not empty counts for itself. -/
theorem textOr_of_ne {value : String} (h : value ≠ "") (default : String) :
  textOr value default = value
  := if_neg h

theorem literal_jobStatus (status : JobStatus) :
  literal jobStatuses JobStatus.text status.text = .ok status
  := by
  cases status <;> simp [literal, jobStatuses, JobStatus.text]

theorem literal_runStatus (status : RunStatus) :
  literal runStatuses RunStatus.text status.text = .ok status
  := by
  cases status <;> simp [literal, runStatuses, RunStatus.text]

theorem literal_eventSource (source : EventSource) :
  literal eventSources EventSource.text source.text = .ok source
  := by
  cases source <;> simp [literal, eventSources, EventSource.text]

theorem literal_heartbeatOwnerType (ownerType : HeartbeatOwnerType) :
  literal heartbeatOwnerTypes HeartbeatOwnerType.text ownerType.text = .ok ownerType
  := by
  cases ownerType <;> simp [literal, heartbeatOwnerTypes, HeartbeatOwnerType.text]

/-- The text of a job status is not empty. -/
theorem jobStatus_text_ne (status : JobStatus) :
  status.text ≠ ""
  := by
  cases status <;> simp [JobStatus.text]

/-! ### Jobs -/

/-- The timestamps of a job. -/
def JobFields.timestamps {τ : Type} (job : JobFields τ) : List τ :=
  [job.createdAt] ++ job.dueAt.toList ++ job.leasedUntil.toList

/-- What a job comes back as. -/
def JobFields.loaded (job : JobFields Timestamp) : JobFields Timestamp :=
  { job.map (fun timestamp => timestamp.wall.utc) with priority := integerOr job.priority 100 }

/-- A job comes back as it was saved. -/
structure JobFields.Storable (job : JobFields Timestamp) : Prop where
  integers : ∀ value ∈ job.integers, FitsInteger value
  priority : job.priority ≠ 0
  utc : ∀ timestamp ∈ job.timestamps, timestamp.offset = 0

/-- The row of a job is read. -/
theorem rowToJobFields_columns (job : JobFields Timestamp) :
  rowToJobFields job.columns = .ok job.loaded
  := by
  simp only [rowToJobFields, JobFields.columns, jsonLoads_text, textOr_of_ne job.metadata.text_ne,
    textOr_of_ne (jobStatus_text_ne job.status), literal_jobStatus, integerOr_zero,
    Option.map_map]
  rfl

/-- A job comes back with the same fields and instants exactly when its priority is not 0 and its
timestamps have no offset. -/
theorem map_instant_loaded_job (job : JobFields Timestamp) :
  job.loaded.map Timestamp.instant = job.map Timestamp.instant ↔
    job.priority ≠ 0 ∧ ∀ timestamp ∈ job.timestamps, timestamp.offset = 0
  := by
  simp only [JobFields.map, JobFields.loaded, JobFields.mk.injEq, true_and, and_true,
    instant_utc_wall, integerOr_eq_self (show (100 : ℤ) ≠ 0 by decide), map_instant_utc_wall,
    JobFields.timestamps, List.mem_append, List.mem_singleton, or_imp, forall_and, forall_eq]
  grind

/-- A job that is saved for the first time is loaded as the same job exactly when it is storable. -/
theorem job_roundTrips_iff {jobs : Table JobColumns.id} {job : JobFields Timestamp}
    (hfresh : jobs.find? job.id = none) :
  jobCodec.RoundTrips jobCodec.save (JobFields.map Timestamp.instant) jobs job ↔ job.Storable
  := by
  have hencode : ∀ row, jobCodec.encode job = .ok row ↔
      (∀ value ∈ job.integers, FitsInteger value) ∧ row = job.columns :=
    fun _ => bindIntegers_bind_eq_ok
  have hdecode : ∀ loaded, jobCodec.decode job.columns = .ok loaded ↔ loaded = job.loaded := by
    intro loaded
    change rowToJobFields job.columns = .ok loaded ↔ _
    rw [rowToJobFields_columns, Except.ok.injEq, eq_comm]
  rw [Codec.roundTrips_save hfresh, Codec.recovers_iff hencode]
  simp only [hdecode, exists_eq_left, map_instant_loaded_job]
  constructor
  · rintro ⟨hintegers, hpriority, hutc⟩
    exact ⟨hintegers, hpriority, hutc⟩
  · rintro ⟨hintegers, hpriority, hutc⟩
    exact ⟨hintegers, hpriority, hutc⟩

/-! ### Schedules -/

/-- The timestamps of a schedule. -/
def ScheduleFields.timestamps {τ : Type} (schedule : ScheduleFields τ) : List τ :=
  [schedule.createdAt, schedule.nextRunAt] ++ schedule.lastMaterializedAt.toList

/-- A schedule comes back as it was saved. -/
structure ScheduleFields.Storable (schedule : ScheduleFields Timestamp) : Prop where
  integers : ∀ value ∈ schedule.integers, FitsInteger value
  utc : ∀ timestamp ∈ schedule.timestamps, timestamp.offset = 0

/-- The row of a schedule is read. -/
theorem rowToScheduleFields_columns (schedule : ScheduleFields Timestamp) :
  rowToScheduleFields schedule.columns = .ok (schedule.map (fun timestamp => timestamp.wall.utc))
  := by
  simp only [rowToScheduleFields, ScheduleFields.columns, jsonLoads_text, Option.map_map]
  obtain ⟨_, _, _, _, _, _, enabled, _, _, _, _, _, _⟩ := schedule
  cases enabled <;> rfl

/-- A schedule comes back with the same instants exactly when its timestamps have no offset. -/
theorem map_instant_loaded_schedule (schedule : ScheduleFields Timestamp) :
  (schedule.map (fun timestamp => timestamp.wall.utc)).map Timestamp.instant
      = schedule.map Timestamp.instant ↔
    ∀ timestamp ∈ schedule.timestamps, timestamp.offset = 0
  := by
  simp only [ScheduleFields.map, ScheduleFields.mk.injEq, true_and, and_true, instant_utc_wall,
    map_instant_utc_wall, ScheduleFields.timestamps, List.mem_append, List.mem_cons,
    List.not_mem_nil, or_false, or_imp, forall_and, forall_eq]
  grind

/-- A schedule that is saved for the first time is loaded as the same schedule exactly when it is
storable. -/
theorem schedule_roundTrips_iff {schedules : Table ScheduleColumns.id}
    {schedule : ScheduleFields Timestamp} (hfresh : schedules.find? schedule.id = none) :
  scheduleCodec.RoundTrips scheduleCodec.save (ScheduleFields.map Timestamp.instant) schedules
      schedule ↔
    schedule.Storable
  := by
  have hencode : ∀ row, scheduleCodec.encode schedule = .ok row ↔
      (∀ value ∈ schedule.integers, FitsInteger value) ∧ row = schedule.columns :=
    fun _ => bindIntegers_bind_eq_ok
  have hdecode : ∀ loaded, scheduleCodec.decode schedule.columns = .ok loaded ↔
      loaded = schedule.map (fun timestamp => timestamp.wall.utc) := by
    intro loaded
    change rowToScheduleFields schedule.columns = .ok loaded ↔ _
    rw [rowToScheduleFields_columns, Except.ok.injEq, eq_comm]
  rw [Codec.roundTrips_save hfresh, Codec.recovers_iff hencode]
  simp only [hdecode, exists_eq_left, map_instant_loaded_schedule]
  constructor
  · rintro ⟨hintegers, hutc⟩
    exact ⟨hintegers, hutc⟩
  · rintro ⟨hintegers, hutc⟩
    exact ⟨hintegers, hutc⟩

/-! ### Heartbeats -/

/-- The row of a heartbeat is read. -/
theorem rowToHeartbeatFields_columns (heartbeat : HeartbeatFields Timestamp) :
  rowToHeartbeatFields heartbeat.columns
    = .ok (heartbeat.map (fun timestamp => timestamp.wall.utc))
  := by
  simp only [rowToHeartbeatFields, HeartbeatFields.columns, literal_heartbeatOwnerType,
    nonemptyText_text, textOr_of_ne heartbeat.payload.text_ne, jsonLoads_text]
  rfl

/-- A heartbeat that is put into its table is loaded as the same heartbeat exactly when its
timestamp has no offset. -/
theorem heartbeat_roundTrips_iff {heartbeats : Table HeartbeatColumns.ownerId}
    {heartbeat : HeartbeatFields Timestamp} :
  heartbeatCodec.RoundTrips heartbeatCodec.put (HeartbeatFields.map Timestamp.instant) heartbeats
      heartbeat ↔
    heartbeat.lastSeenAt.offset = 0
  := by
  have hencode : ∀ row, heartbeatCodec.encode heartbeat = .ok row ↔
      True ∧ row = heartbeat.columns := by
    intro row
    change Except.ok heartbeat.columns = .ok row ↔ _
    rw [Except.ok.injEq, true_and, eq_comm]
  have hdecode : ∀ loaded, heartbeatCodec.decode heartbeat.columns = .ok loaded ↔
      loaded = heartbeat.map (fun timestamp => timestamp.wall.utc) := by
    intro loaded
    change rowToHeartbeatFields heartbeat.columns = .ok loaded ↔ _
    rw [rowToHeartbeatFields_columns, Except.ok.injEq, eq_comm]
  rw [Codec.roundTrips_put, Codec.recovers_iff hencode]
  simp only [hdecode, exists_eq_left, true_and, HeartbeatFields.map, HeartbeatFields.mk.injEq,
    and_true, instant_utc_wall]

/-! ### Runs -/

/-- The timestamps of a run. -/
def RunFields.timestamps {τ : Type} (run : RunFields τ) : List τ :=
  [run.startedAt] ++ run.finishedAt.toList ++ run.leasedUntil.toList

/-- What a run comes back as. -/
def RunFields.loaded (run : RunFields Timestamp) : RunFields Timestamp :=
  { run.normalizePersisted.map (fun timestamp => timestamp.wall.utc) with
    resourcePolicy := run.resourcePolicy.filter JsonDict.isTrue }

/-- A run comes back as it was saved, with a finish where it is terminal. -/
structure RunFields.Storable (run : RunFields Timestamp) : Prop where
  integers : ∀ value ∈ run.integers, FitsInteger value
  resourcePolicy : run.resourcePolicy ≠ some .empty
  utc : ∀ timestamp ∈ run.timestamps, timestamp.offset = 0

/-- A run that gets no finish stays what it is. -/
theorem normalizePersisted_of_not {τ : Type} {run : RunFields τ}
    (h : ¬ (run.status.isTerminal ∧ run.finishedAt = none)) :
  run.normalizePersisted = run
  := if_neg h

/-- A terminal run without a finish gets its start for it. -/
theorem normalizePersisted_of {τ : Type} {run : RunFields τ}
    (h : run.status.isTerminal ∧ run.finishedAt = none) :
  run.normalizePersisted = { run with finishedAt := some run.startedAt }
  := if_pos h

/-- A terminal run has a finish when it is stored. -/
theorem not_of_normalizePersisted {τ : Type} (run : RunFields τ) :
  ¬ (run.normalizePersisted.status.isTerminal ∧ run.normalizePersisted.finishedAt = none)
  := by
  by_cases h : run.status.isTerminal ∧ run.finishedAt = none
  · rw [normalizePersisted_of h]
    simp
  · rw [normalizePersisted_of_not h]
    exact h

/-- A run is given a finish once. -/
theorem normalizePersisted_loaded (run : RunFields Timestamp) :
  run.loaded.normalizePersisted = run.loaded
  := by
  apply normalizePersisted_of_not
  have h := not_of_normalizePersisted run
  simpa [RunFields.loaded, RunFields.map] using h

/-- Only the finish of a run changes when it gets one. -/
theorem normalizePersisted_resourcePolicy {τ : Type} (run : RunFields τ) :
  run.normalizePersisted.resourcePolicy = run.resourcePolicy
  := by
  unfold RunFields.normalizePersisted
  split <;> rfl

/-- The finish that a run gets has the offset of its start. -/
theorem utc_normalizePersisted (run : RunFields Timestamp) :
  (∀ timestamp ∈ run.normalizePersisted.timestamps, timestamp.offset = 0) ↔
    ∀ timestamp ∈ run.timestamps, timestamp.offset = 0
  := by
  by_cases h : run.status.isTerminal ∧ run.finishedAt = none
  · rw [normalizePersisted_of h]
    simp [RunFields.timestamps, h.2]
  · rw [normalizePersisted_of_not h]

/-- A policy is kept exactly when it has entries. -/
theorem filter_isTrue (policy : Option JsonDict) :
  policy.filter JsonDict.isTrue = policy ↔ policy ≠ some .empty
  := by
  cases policy with
  | none => simp
  | some policy => simp [Option.filter_some, JsonDict.isTrue]

/-- A nullable column with a value is read as the value. -/
theorem readNullable_some {α : Type} {read : String → Except String α} {text : String} {a : α}
    (hne : text ≠ "") (hread : read text = .ok a) :
  readNullable read (some text) = .ok (some a)
  := by
  simp [readNullable, Option.filter_some, hne, hread, bind, Except.bind]

/-- A policy column is read as the policy, if that has entries. -/
theorem readNullable_resourcePolicy (policy : Option JsonDict) :
  readNullable jsonLoads ((policy.filter JsonDict.isTrue).map JsonDict.text)
    = .ok (policy.filter JsonDict.isTrue)
  := by
  cases policy.filter JsonDict.isTrue with
  | none => rfl
  | some policy => exact readNullable_some policy.text_ne (jsonLoads_text policy)

/-- A result column is read as the result. -/
theorem readNullable_result {results : ResultSerialisation} {result : Option ResultEnvelope}
    (hresult : ∀ envelope ∈ result, results.Serialises envelope) :
  readNullable results.modelValidateJson (result.map results.modelDumpJson) = .ok result
  := by
  cases result with
  | none => rfl
  | some result =>
      obtain ⟨hne, hread⟩ := hresult result rfl
      exact readNullable_some hne hread

/-- Only the finish of a run changes when it gets one: its result stays. -/
theorem normalizePersisted_result {τ : Type} (run : RunFields τ) :
  run.normalizePersisted.result = run.result
  := by
  unfold RunFields.normalizePersisted
  split <;> rfl

/-- The row of a run is read, unless its timestamps are out of order as components. -/
theorem rowToRunFields_values {results : ResultSerialisation} {run : RunFields Timestamp}
    (hresult : ∀ envelope ∈ run.result, results.Serialises envelope)
    (loaded : RunFields Timestamp) :
  rowToRunFields results (run.normalizePersisted.values results) = .ok loaded ↔
    validateTimestampOrder run.loaded = .ok () ∧ loaded = run.loaded
  := by
  rw [← normalizePersisted_result] at hresult
  simp only [rowToRunFields, RunFields.values, readNullable_resourcePolicy,
    readNullable_result hresult, literal_runStatus, integerOr_zero, Option.map_map,
    normalizePersisted_resourcePolicy]
  change (validateTimestampOrder run.loaded >>= fun _ => Except.ok run.loaded) = .ok loaded ↔ _
  rw [Except.bind_eq_ok]
  constructor
  · rintro ⟨⟨⟩, hvalid, heq⟩
    exact ⟨hvalid, (Except.ok.inj heq).symm⟩
  · rintro ⟨hvalid, rfl⟩
    exact ⟨(), hvalid, rfl⟩

/-- A run comes back with the same fields and instants exactly when its policy is not empty and its
timestamps have no offset. -/
theorem map_instant_loaded_run (run : RunFields Timestamp) :
  run.loaded.map Timestamp.instant = run.normalizePersisted.map Timestamp.instant ↔
    run.resourcePolicy ≠ some .empty ∧ ∀ timestamp ∈ run.timestamps, timestamp.offset = 0
  := by
  have hpolicy := normalizePersisted_resourcePolicy run
  rw [← utc_normalizePersisted, ← filter_isTrue]
  simp only [RunFields.map, RunFields.loaded, RunFields.mk.injEq, true_and, instant_utc_wall,
    map_instant_utc_wall, RunFields.timestamps, List.mem_append, List.mem_singleton, or_imp,
    forall_and, forall_eq, hpolicy]
  grind

/-- The components of an instant that a `datetime` can hold. -/
theorem ensureUtc_of_utc {timestamp : Timestamp} (h : timestamp.offset = 0) :
  ensureUtc timestamp = .ok timestamp.wall
  := by
  have hinstant : timestamp.instant = timestamp.wall.micros := by
    simp [Timestamp.instant, h]
  have hrange : datetimeMin ≤ timestamp.instant ∧ timestamp.instant ≤ datetimeMax := by
    rw [hinstant]
    exact ⟨timestamp.wall.lower, timestamp.wall.upper⟩
  rw [ensureUtc, dif_pos hrange]
  simp [hinstant]

/-- The finish that a run gets is not before its start. -/
theorem validateTimestampOrder_loaded {run : RunFields Timestamp}
    (haccepted : validateTimestampOrder run = .ok ())
    (hutc : ∀ timestamp ∈ run.timestamps, timestamp.offset = 0) :
  validateTimestampOrder run.loaded = .ok ()
  := by
  have hstarted : run.startedAt.wall.utc = run.startedAt := by
    apply utc_wall
    apply hutc
    simp [RunFields.timestamps]
  by_cases h : run.status.isTerminal ∧ run.finishedAt = none
  · have hutc' : run.startedAt.offset = 0 := by
      rw [← hstarted]
      rfl
    simp only [RunFields.loaded, normalizePersisted_of h, validateTimestampOrder, RunFields.map,
      Option.map_some, hstarted, ensureUtc_of_utc hutc']
    simp [bind, Except.bind, raiseIf]
  · cases hfinished : run.finishedAt with
    | none =>
        simp [RunFields.loaded, normalizePersisted_of_not h, validateTimestampOrder, RunFields.map,
          hfinished]
    | some finishedAt =>
        have hsame : finishedAt.wall.utc = finishedAt := by
          apply utc_wall
          apply hutc
          simp [RunFields.timestamps, hfinished]
        simp only [validateTimestampOrder, hfinished] at haccepted
        simp only [RunFields.loaded, normalizePersisted_of_not h, validateTimestampOrder,
          RunFields.map, hfinished, Option.map_some, hstarted, hsame]
        exact haccepted

/-- A run that the models accept and that is saved for the first time is loaded as the same run,
with a finish where it is terminal, exactly when it is storable. -/
theorem run_roundTrips_iff {results : ResultSerialisation} {runs : Table RunColumns.id}
    {run : RunFields Timestamp} (haccepted : validateTimestampOrder run = .ok ())
    (hresult : ∀ envelope ∈ run.result, results.Serialises envelope)
    (hfresh : runs.find? run.id = none) :
  (runCodec results).RoundTrips (runCodec results).save
      (fun run => run.normalizePersisted.map Timestamp.instant) runs run ↔
    run.Storable
  := by
  have hencode : ∀ row, (runCodec results).encode run = .ok row ↔
      (∀ value ∈ run.integers, FitsInteger value) ∧ row = run.normalizePersisted.values results :=
    fun _ => bindIntegers_bind_eq_ok
  have hdecode : ∀ loaded,
      (runCodec results).decode (run.normalizePersisted.values results) = .ok loaded ↔
        validateTimestampOrder run.loaded = .ok () ∧ loaded = run.loaded :=
    rowToRunFields_values hresult
  rw [Codec.roundTrips_save hfresh, Codec.recovers_iff hencode]
  simp only [hdecode]
  constructor
  · rintro ⟨hintegers, loaded, ⟨-, rfl⟩, hview⟩
    rw [normalizePersisted_loaded, map_instant_loaded_run] at hview
    exact ⟨hintegers, hview.1, hview.2⟩
  · rintro ⟨hintegers, hpolicy, hutc⟩
    use hintegers, run.loaded
    use ⟨validateTimestampOrder_loaded haccepted hutc, rfl⟩
    rw [normalizePersisted_loaded, map_instant_loaded_run]
    exact ⟨hpolicy, hutc⟩

/-! ### Events -/

/-- The timestamp of the newest event. -/
def EventRows.newest (db : EventRows) : Option WallClock :=
  (db.events.table.rows.argmax EventColumns.sequence).map EventColumns.createdAt

/-- The counter of sequences is there and not behind any event. -/
def EventRows.Counted (db : EventRows) : Prop :=
  ∃ value, db.counter = some value ∧ ∀ row ∈ db.events.table.rows, row.sequence ≤ value

/-- The instant of an event, and one after that of the newest event, can be held by a
`datetime`. -/
structure EventFields.Storable (db : EventRows) (event : EventFields Timestamp) : Prop where
  lower : datetimeMin ≤ event.createdAt.instant
  upper : event.createdAt.instant ≤ datetimeMax
  newest : ∀ newest ∈ db.newest, newest.micros < datetimeMax

/-- An event is persisted and loaded with the same fields, except that its sequence is assigned and
its timestamp may be moved to a later instant. -/
def EventFields.RoundTrips (db : EventRows) (event : EventFields Timestamp) : Prop :=
  ∃ db' stored loaded, persistEventFields db event = .ok (db', stored) ∧
    loadEvent db' event.id = .ok (some loaded) ∧
    loaded = { event with sequence := loaded.sequence, createdAt := loaded.createdAt } ∧
    event.createdAt.instant ≤ loaded.createdAt.instant

/-- The counter is there in an empty log. -/
theorem counted_empty :
  EventRows.Counted { events := .empty, counter := some 0 }
  := ⟨0, rfl, by simp [IndexedTable.empty, Table.empty]⟩

/-- What an event that is persisted leaves: a timestamp that is not before its own, the next number
of the counter, and its row at the end. -/
theorem persistEventFields_ok {db db' : EventRows} {event : EventFields Timestamp}
    {stored : EventFields WallClock} (h : persistEventFields db event = .ok (db', stored)) :
  ∃ createdAt value, causallyAfterPrevious db.newest event.createdAt = .ok createdAt ∧
    db.counter = some value ∧
    stored = { event with sequence := value + 1, createdAt := createdAt } ∧
    db.events.insert? stored.columns = some db'.events ∧ db'.counter = some (value + 1)
  := by
  simp only [persistEventFields, Except.bind_eq_ok] at h
  obtain ⟨createdAt, hcreated, h⟩ := h
  split at h
  case h_1 => cases h
  case h_2 value hvalue =>
    simp only [Except.bind_eq_ok] at h
    obtain ⟨events, hevents, h⟩ := h
    cases h
    exact ⟨createdAt, value, hcreated, hvalue, rfl, uniqueOr_ok.mp hevents, rfl⟩

/-- The counter stays ahead of the events. -/
theorem counted_persistEventFields {db db' : EventRows} {event : EventFields Timestamp}
    {stored : EventFields WallClock} (hcounted : db.Counted)
    (h : persistEventFields db event = .ok (db', stored)) :
  db'.Counted
  := by
  obtain ⟨createdAt, value, -, hvalue, rfl, hinsert, hcounter⟩ := persistEventFields_ok h
  obtain ⟨value', hvalue', hrows⟩ := hcounted
  rw [hvalue] at hvalue'
  cases hvalue'
  use value + 1, hcounter
  intro row hrow
  rw [IndexedTable.rows_of_insert? hinsert, List.mem_append, List.mem_singleton] at hrow
  rcases hrow with hrow | rfl
  · exact Nat.le_succ_of_le (hrows row hrow)
  · exact le_refl _

/-- The row of an event is read. -/
theorem rowToEventFields_columns (event : EventFields WallClock) :
  rowToEventFields event.columns = .ok { event with createdAt := event.createdAt.utc }
  := by
  simp only [rowToEventFields, EventFields.columns, nonemptyText_text, literal_eventSource,
    textOr_of_ne event.payload.text_ne, jsonLoads_text]
  rfl

/-- The timestamp of an event, when it is in order: its instant, moved behind the newest one. -/
theorem causallyAfterPrevious_eq_ok {previous : Option WallClock} {candidate : Timestamp}
    {createdAt : WallClock} :
  causallyAfterPrevious previous candidate = .ok createdAt ↔
    datetimeMin ≤ candidate.instant ∧ candidate.instant ≤ datetimeMax ∧
      createdAt.micros = causallyAfter [previous.map WallClock.micros] candidate.instant
  := by
  unfold causallyAfterPrevious ensureUtc
  by_cases hrange : datetimeMin ≤ candidate.instant ∧ candidate.instant ≤ datetimeMax
  · rw [dif_pos hrange]
    change (if h : _ then Except.ok (⟨_, _, _⟩ : WallClock) else _) = _ ↔ _
    have hcreated := createdAt.lower
    have hcreated' := createdAt.upper
    split
    case isTrue h =>
      obtain ⟨micros, lower, upper⟩ := createdAt
      simp only [Except.ok.injEq, WallClock.mk.injEq]
      constructor
      · intro heq
        exact ⟨hrange.1, hrange.2, heq.symm⟩
      · rintro ⟨-, -, heq⟩
        exact heq.symm
    case isFalse h =>
      constructor
      · intro heq
        cases heq
      · rintro ⟨-, -, heq⟩
        rw [heq] at hcreated hcreated'
        cases h ⟨hcreated, hcreated'⟩
  · rw [dif_neg hrange]
    constructor
    · intro heq
      cases heq
    · rintro ⟨hlower, hupper, -⟩
      cases hrange ⟨hlower, hupper⟩

/-- An instant behind the newest event can be held by a `datetime` exactly when the candidate and
the instant after the newest event can. -/
theorem exists_causallyAfterPrevious {previous : Option WallClock} {candidate : Timestamp} :
  (∃ createdAt, causallyAfterPrevious previous candidate = .ok createdAt) ↔
    datetimeMin ≤ candidate.instant ∧ candidate.instant ≤ datetimeMax ∧
      ∀ newest ∈ previous, newest.micros < datetimeMax
  := by
  simp only [causallyAfterPrevious_eq_ok]
  have hstep : ∀ newest : WallClock, previous = some newest →
      causallyAfter [previous.map WallClock.micros] candidate.instant
        = if newest.micros < candidate.instant then candidate.instant else newest.micros + 1 := by
    rintro newest rfl
    rfl
  constructor
  · rintro ⟨createdAt, hlower, hupper, heq⟩
    use hlower, hupper
    rintro newest hnewest
    rw [hstep newest hnewest] at heq
    have hcreated := createdAt.upper
    grind
  · rintro ⟨hlower, hupper, hnewest⟩
    cases hprevious : previous with
    | none => exact ⟨⟨candidate.instant, hlower, hupper⟩, hlower, hupper, rfl⟩
    | some newest =>
        have hbelow := hnewest newest hprevious
        have hfirst := newest.lower
        rw [← hprevious, hstep newest hprevious]
        by_cases hlater : newest.micros < candidate.instant
        · rw [if_pos hlater]
          exact ⟨⟨candidate.instant, hlower, hupper⟩, hlower, hupper, rfl⟩
        · rw [if_neg hlater]
          have hnext : datetimeMin ≤ newest.micros + 1 ∧ newest.micros + 1 ≤ datetimeMax :=
            ⟨by grind, Int.add_one_le_of_lt hbelow⟩
          exact ⟨⟨newest.micros + 1, hnext.1, hnext.2⟩, hlower, hupper, rfl⟩

/-- An event is persisted with a timestamp behind the newest one and the next number of the
counter. -/
theorem persistEventFields_of {db : EventRows} {event : EventFields Timestamp}
    {createdAt : WallClock} {value : ℕ}
    {events : IndexedTable EventColumns.id EventColumns.sequenceIndex}
    (hcreated : causallyAfterPrevious db.newest event.createdAt = .ok createdAt)
    (hvalue : db.counter = some value)
    (hinsert : db.events.insert? (EventFields.columns
      { event with sequence := value + 1, createdAt := createdAt }) = some events) :
  persistEventFields db event
    = .ok ({ events := events, counter := some (value + 1) },
        { event with sequence := value + 1, createdAt := createdAt })
  := by
  simp only [persistEventFields, Except.bind_eq_ok]
  use createdAt, hcreated
  rw [hvalue]
  exact Except.bind_eq_ok.mpr ⟨events, uniqueOr_ok.mpr hinsert, rfl⟩

/-- The next number of the counter is not the sequence of an event. -/
theorem exists_insert?_event {db : EventRows} {event : EventFields WallClock} {value : ℕ}
    (hrows : ∀ row ∈ db.events.table.rows, row.sequence ≤ value)
    (hsequence : event.sequence = value + 1) (hfresh : db.events.find? event.id = none) :
  ∃ events, db.events.insert? event.columns = some events
  := by
  apply IndexedTable.exists_insert? hfresh
  intro row hrow i hi hrow'
  have hle := hrows row hrow
  have hi : event.sequence = i := Option.some.inj hi
  have hrow' : row.sequence = i := Option.some.inj hrow'
  omega

/-- An event is persisted and loaded as the same event exactly when its timestamp can be stored. -/
theorem event_roundTrips_iff {db : EventRows} {event : EventFields Timestamp}
    (hcounted : db.Counted) (hfresh : db.events.find? event.id = none) :
  event.RoundTrips db ↔ event.Storable db
  := by
  have hexists := @exists_causallyAfterPrevious db.newest event.createdAt
  constructor
  · rintro ⟨db', stored, loaded, hpersist, -, -, -⟩
    obtain ⟨createdAt, value, hcreated, -⟩ := persistEventFields_ok hpersist
    obtain ⟨hlower, hupper, hnewest⟩ := hexists.mp ⟨createdAt, hcreated⟩
    exact ⟨hlower, hupper, hnewest⟩
  · rintro ⟨hlower, hupper, hnewest⟩
    obtain ⟨createdAt, hcreated⟩ := hexists.mpr ⟨hlower, hupper, hnewest⟩
    obtain ⟨value, hvalue, hrows⟩ := hcounted
    let stored : EventFields WallClock := { event with sequence := value + 1, createdAt := createdAt }
    obtain ⟨events, hinsert⟩ := @exists_insert?_event db stored value hrows rfl hfresh
    have hload : loadEvent { events := events, counter := some (value + 1) } event.id
        = .ok (some { stored with createdAt := stored.createdAt.utc }) := by
      have hfind := IndexedTable.find?_insert? hinsert event.id
      rw [if_pos (show stored.columns.id = event.id from rfl)] at hfind
      simp only [loadEvent, hfind, rowToEventFields_columns]
      rfl
    refine ⟨_, stored, _, persistEventFields_of hcreated hvalue hinsert, hload, rfl, ?_⟩
    have hmicros := (causallyAfterPrevious_eq_ok.mp hcreated).2.2
    have hle := le_causallyAfter [db.newest.map WallClock.micros] event.createdAt.instant
    rw [← hmicros] at hle
    simpa [Timestamp.instant, WallClock.utc, stored] using hle

/-! ### All records -/

/-- A record that the models accept comes back from the store as it was saved exactly when it is
storable: its integers fit their columns, the priority of a job is not 0, the policy of a run has
entries, and the timestamps of a job, a run, a schedule or a heartbeat have no offset. The
timestamp of an event may have one. -/
theorem records_roundTrip_iff (results : ResultSerialisation) :
  (∀ (jobs : Table JobColumns.id) job, jobs.find? job.id = none →
    (jobCodec.RoundTrips jobCodec.save (JobFields.map Timestamp.instant) jobs job ↔
      job.Storable)) ∧
  (∀ (runs : Table RunColumns.id) run, validateTimestampOrder run = .ok () →
    (∀ envelope ∈ run.result, results.Serialises envelope) → runs.find? run.id = none →
    ((runCodec results).RoundTrips (runCodec results).save
        (fun run => run.normalizePersisted.map Timestamp.instant) runs run ↔
      run.Storable)) ∧
  (∀ (schedules : Table ScheduleColumns.id) schedule, schedules.find? schedule.id = none →
    (scheduleCodec.RoundTrips scheduleCodec.save (ScheduleFields.map Timestamp.instant) schedules
        schedule ↔
      schedule.Storable)) ∧
  (∀ (heartbeats : Table HeartbeatColumns.ownerId) heartbeat,
    heartbeatCodec.RoundTrips heartbeatCodec.put (HeartbeatFields.map Timestamp.instant) heartbeats
        heartbeat ↔
      heartbeat.lastSeenAt.offset = 0) ∧
  ∀ (db : EventRows) (event : EventFields Timestamp), db.Counted →
    db.events.find? event.id = none → (event.RoundTrips db ↔ event.Storable db)
  := by
  refine ⟨?_, ?_, ?_, ?_, ?_⟩
  · intro jobs job hfresh
    apply job_roundTrips_iff hfresh
  · intro runs run haccepted hresult hfresh
    apply run_roundTrips_iff haccepted hresult hfresh
  · intro schedules schedule hfresh
    apply schedule_roundTrips_iff hfresh
  · intro heartbeats heartbeat
    apply heartbeat_roundTrips_iff
  · intro db event hcounted hfresh
    apply event_roundTrips_iff hcounted hfresh

/-- The first second of 1970 in UTC. -/
def startOfEpoch : Timestamp :=
  WallClock.utc ⟨0, by decide, by decide⟩

/-- The first second of 1970 on a clock that is an hour ahead of UTC. -/
def aheadOfEpoch : Timestamp where
  wall := ⟨0, by decide, by decide⟩
  offset := 3600000000
  bounded := by decide

/-- A job with a priority. -/
def jobOfPriority (priority : ℤ) : JobFields Timestamp where
  id := "job-1"
  kind := "report"
  input := .empty
  createdAt := startOfEpoch
  createdBy := "cli"
  correlationId := none
  projectId := none
  fanoutId := none
  metadata := .empty
  status := .queued
  priority := priority
  scheduleId := none
  dueAt := none
  leaseOwner := none
  leasedUntil := none
  attemptCount := 0
  maxRetries := 0
  timeoutSeconds := none
  lastError := none

/-- A result without data. -/
def emptyResult : ResultEnvelope where
  status := .success
  data := .empty
  artifacts := []
  metrics := .empty
  handoff := []
  error := none

/-- The serialisation of the result without data, the only one that is read back. -/
def emptySerialisation : ResultSerialisation where
  modelDumpJson _ :=
    "\x7b\"status\":\"success\",\"data\":\x7b\x7d,\"artifacts\":[],\"metrics\":\x7b\x7d,\"handoff\":[],\"error\":null\x7d"
  modelValidateJson _ := .ok emptyResult

/-- A completed run with a policy, whose finish is missing. -/
def runOfPolicy (resourcePolicy : Option JsonDict) : RunFields Timestamp where
  id := "run-1"
  jobId := "job-1"
  kind := "report"
  projectId := none
  attempt := 1
  status := .completed
  startedAt := startOfEpoch
  finishedAt := none
  result := some emptyResult
  error := none
  timeoutSeconds := none
  maxRetries := 0
  leasedUntil := none
  resourcePolicy := resourcePolicy

/-- A schedule created at a timestamp. -/
def scheduleCreatedAt (createdAt : Timestamp) : ScheduleFields Timestamp where
  id := "schedule-1"
  kind := "report"
  projectId := none
  input := .empty
  cron := "* * * * *"
  timezone := "UTC"
  enabled := true
  priority := 0
  createdAt := createdAt
  nextRunAt := startOfEpoch
  lastMaterializedAt := none
  maxRetries := 0
  timeoutSeconds := none

/-- An event created at a timestamp. -/
def eventCreatedAt (createdAt : Timestamp) : EventFields Timestamp where
  id := "event-1"
  sequence := 7
  createdAt := createdAt
  eventType := ⟨"job.queued", by simp⟩
  source := .api
  projectId := none
  jobId := some "job-1"
  runId := none
  fanoutId := none
  scheduleId := none
  workerId := none
  schedulerId := none
  payload := .empty

/-- A job of the default priority, a run without a policy, a schedule in UTC and an event ahead of
UTC come back from an empty store. -/
theorem plainRecords_roundTrip :
  jobCodec.RoundTrips jobCodec.save (JobFields.map Timestamp.instant) .empty (jobOfPriority 100) ∧
  (runCodec emptySerialisation).RoundTrips (runCodec emptySerialisation).save
    (fun run => run.normalizePersisted.map Timestamp.instant) .empty (runOfPolicy none) ∧
  scheduleCodec.RoundTrips scheduleCodec.save (ScheduleFields.map Timestamp.instant) .empty
    (scheduleCreatedAt startOfEpoch) ∧
  (eventCreatedAt aheadOfEpoch).RoundTrips { events := .empty, counter := some 0 }
  := by
  obtain ⟨hjob, hrun, hschedule, -, hevent⟩ := records_roundTrip_iff emptySerialisation
  refine ⟨?_, ?_, ?_, ?_⟩
  · apply (hjob .empty _ rfl).mpr
    constructor
    · decide
    · decide
    · simp [JobFields.timestamps, jobOfPriority, startOfEpoch, WallClock.utc]
  · apply (hrun .empty _ rfl _ rfl).mpr
    · constructor
      · decide
      · simp [runOfPolicy]
      · simp [RunFields.timestamps, runOfPolicy, startOfEpoch, WallClock.utc]
    · simp [runOfPolicy, ResultSerialisation.Serialises, emptySerialisation]
  · apply (hschedule .empty _ rfl).mpr
    constructor
    · decide
    · simp [ScheduleFields.timestamps, scheduleCreatedAt, startOfEpoch, WallClock.utc]
  · apply (hevent _ _ counted_empty rfl).mpr
    constructor
    · decide
    · decide
    · simp [EventRows.newest, IndexedTable.empty, Table.empty]

/-- A job of priority 0, a run with an empty policy and a schedule ahead of UTC do not come back as
they were saved. -/
theorem boundaryRecords_do_not_roundTrip :
  ¬ jobCodec.RoundTrips jobCodec.save (JobFields.map Timestamp.instant) .empty (jobOfPriority 0) ∧
  ¬ (runCodec emptySerialisation).RoundTrips (runCodec emptySerialisation).save
    (fun run => run.normalizePersisted.map Timestamp.instant) .empty (runOfPolicy (some .empty)) ∧
  ¬ scheduleCodec.RoundTrips scheduleCodec.save (ScheduleFields.map Timestamp.instant) .empty
    (scheduleCreatedAt aheadOfEpoch)
  := by
  refine ⟨?_, ?_, ?_⟩
  · rw [job_roundTrips_iff rfl]
    intro h
    apply h.priority rfl
  · rw [run_roundTrips_iff rfl _ rfl]
    · intro h
      apply h.resourcePolicy rfl
    · simp [runOfPolicy, ResultSerialisation.Serialises, emptySerialisation]
  · rw [schedule_roundTrips_iff rfl]
    intro h
    have hutc := h.utc aheadOfEpoch (by simp [ScheduleFields.timestamps, scheduleCreatedAt])
    simp [aheadOfEpoch] at hutc

end GoblinKing
