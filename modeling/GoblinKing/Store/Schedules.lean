import GoblinKing.Environment
import Mathlib.Data.List.Sort
import Mathlib.Data.List.Forall2

/-!
# The schedules table

The rows of the schedules table, how a record is written to a row and read back, and the
transactions of the store on the table.

A record is validated when a row is read, and not when it is written: the API writes the
copy of a record in which the fields of a request have been replaced, and such a copy may
hold null in any of these fields.
-/

namespace GoblinKing

/-- A row of the schedules table. The column `input_json` holds a JSON text; here it is an
object, or `none` for the text `null`. -/
structure ScheduleRow where
  id : Id
  kind : String
  projectId : Option Id
  inputJson : Option JsonObject
  cron : String
  timezone : String
  enabled : ℤ
  priority : ℤ
  createdAt : Instant
  nextRunAt : Instant
  lastMaterializedAt : Option Instant
  maxRetries : ℕ
  timeoutSeconds : Option ℕ
  deriving DecidableEq, Repr

/-- The table of schedules. -/
abbrev Schedules := Table ScheduleRow.id

/-- A copy of a schedule record with fields replaced and not validated. -/
structure PatchedSchedule where
  id : Id
  kind : String
  projectId : Option Id
  input : Option JsonObject
  cron : Option String
  timezone : Option String
  enabled : Option Bool
  priority : Option ℤ
  createdAt : Instant
  nextRunAt : Instant
  lastMaterializedAt : Option Instant
  maxRetries : Option ℕ
  timeoutSeconds : Option ℕ
  deriving DecidableEq, Repr

/-- A record is a copy of itself. -/
def ScheduleRecord.copy (schedule : ScheduleRecord) : PatchedSchedule where
  id := schedule.id
  kind := schedule.kind
  projectId := schedule.projectId
  input := some schedule.input
  cron := some schedule.cron
  timezone := some schedule.timezone
  enabled := some schedule.enabled
  priority := some schedule.priority
  createdAt := schedule.createdAt
  nextRunAt := schedule.nextRunAt
  lastMaterializedAt := schedule.lastMaterializedAt
  maxRetries := some schedule.maxRetries
  timeoutSeconds := schedule.timeoutSeconds

/-! ### Rows -/

/-- The driver stores an integer in 64 bits and raises on any other. -/
def bindInteger (n : ℤ) : Except String ℤ :=
  if -9223372036854775808 ≤ n ∧ n ≤ 9223372036854775807 then
    .ok n
  else
    .error "Python int too large to convert to SQLite INTEGER"

/-- A column that is not nullable. -/
def notNull {α : Type} (column : String) (value : Option α) : Except String α :=
  match value with
  | some a => .ok a
  | none => .error ("NOT NULL constraint failed: schedules." ++ column)

/-- The row a copy is written to, if the database accepts its columns. -/
def scheduleValues (schedule : PatchedSchedule) : Except String ScheduleRow := do
  let cron ← notNull "cron" schedule.cron
  let timezone ← notNull "timezone" schedule.timezone
  let priority ← notNull "priority" schedule.priority
  let maxRetries ← notNull "max_retries" schedule.maxRetries
  let _ ← bindInteger priority
  let _ ← bindInteger maxRetries
  let _ ← bindInteger (schedule.timeoutSeconds.getD 0)
  .ok {
    id := schedule.id
    kind := schedule.kind
    projectId := schedule.projectId
    inputJson := schedule.input
    cron := cron
    timezone := timezone
    -- a null is written as disabled
    enabled := if schedule.enabled = some true then 1 else 0
    priority := priority
    createdAt := schedule.createdAt
    nextRunAt := schedule.nextRunAt
    lastMaterializedAt := schedule.lastMaterializedAt
    maxRetries := maxRetries
    timeoutSeconds := schedule.timeoutSeconds }

/-- Convert a row into the record; the record is validated. -/
def rowToSchedule (row : ScheduleRow) : Except String ScheduleRecord :=
  match row.inputJson with
  | none => .error "1 validation error for ScheduleRecord: input should be a valid dictionary"
  | some input => .ok {
      id := row.id
      kind := row.kind
      projectId := row.projectId
      input := input
      cron := row.cron
      timezone := row.timezone
      enabled := decide (row.enabled ≠ 0)
      priority := row.priority
      createdAt := row.createdAt
      nextRunAt := row.nextRunAt
      lastMaterializedAt := row.lastMaterializedAt
      maxRetries := row.maxRetries
      timeoutSeconds := row.timeoutSeconds }

/-- Convert rows one after the other; the first error is raised. -/
def rowsToSchedules : List ScheduleRow → Except String (List ScheduleRecord)
  | [] => .ok []
  | row :: rows => do
      let schedule ← rowToSchedule row
      let schedules ← rowsToSchedules rows
      .ok (schedule :: schedules)

/-! ### Transactions -/

/-- Insert one recurring schedule definition. -/
def saveSchedule (schedules : Schedules) (schedule : ScheduleRecord) :
    Except String Schedules := do
  let row ← scheduleValues schedule.copy
  match schedules.insert? row with
  | some schedules' => .ok schedules'
  | none => .error "UNIQUE constraint failed: schedules.id"

/-- Load one schedule by its identifier. -/
def getSchedule (schedules : Schedules) (scheduleId : Id) :
    Except String (Option ScheduleRecord) :=
  match schedules.find? scheduleId with
  | none => .ok none
  | some row => do
      let schedule ← rowToSchedule row
      .ok (some schedule)

/-- The columns that an update writes; the row keeps its identifier and its creation. -/
def ScheduleRow.replace (values row : ScheduleRow) : ScheduleRow :=
  { values with id := row.id, createdAt := row.createdAt }

theorem ScheduleRow.replace_id (values row : ScheduleRow) :
  (values.replace row).id = row.id
  := rfl

/-- Replace the mutable fields of one existing schedule. -/
def updateSchedule (schedules : Schedules) (schedule : PatchedSchedule) :
    Except String Schedules := do
  let values ← scheduleValues schedule
  .ok (schedules.update (fun row => decide (row.id = schedule.id)) values.replace
    values.replace_id)

/-- Rows in the order of their next run. -/
def ScheduleRow.RunsBefore (a b : ScheduleRow) : Prop :=
  a.nextRunAt ≤ b.nextRunAt

instance : DecidableRel ScheduleRow.RunsBefore :=
  fun a b => inferInstanceAs (Decidable (a.nextRunAt ≤ b.nextRunAt))

/-- All schedules ordered by their next run. -/
def listSchedules (schedules : Schedules) : Except String (List ScheduleRecord) :=
  rowsToSchedules (schedules.rows.insertionSort ScheduleRow.RunsBefore)

/-- A schedule is due when it is enabled and its next run has come. -/
def ScheduleRow.due (now : Instant) (row : ScheduleRow) : Bool :=
  decide (row.enabled = 1) && decide (row.nextRunAt ≤ now)

/-- The due schedules ordered by their next run. -/
def listDueSchedules (schedules : Schedules) (now : Instant) :
    Except String (List ScheduleRecord) :=
  rowsToSchedules ((schedules.select (ScheduleRow.due now)).insertionSort ScheduleRow.RunsBefore)

/-- The row of a schedule after its due job has been materialized. -/
def ScheduleRow.advance (lastMaterializedAt nextRunAt : Instant) (row : ScheduleRow) :
    ScheduleRow :=
  { row with lastMaterializedAt := some lastMaterializedAt, nextRunAt := nextRunAt }

theorem ScheduleRow.advance_id (lastMaterializedAt nextRunAt : Instant) (row : ScheduleRow) :
  (row.advance lastMaterializedAt nextRunAt).id = row.id
  := rfl

/-- Advance one schedule after its due job has been materialized. -/
def updateScheduleAfterMaterialize (schedules : Schedules) (scheduleId : Id)
    (lastMaterializedAt nextRunAt : Instant) : Schedules :=
  schedules.update (fun row => decide (row.id = scheduleId))
    (ScheduleRow.advance lastMaterializedAt nextRunAt)
    (ScheduleRow.advance_id lastMaterializedAt nextRunAt)

/-! ### What is read back -/

/-- A row loads exactly when its input is an object. -/
theorem rowToSchedule_ok {row : ScheduleRow} :
  (∃ schedule, rowToSchedule row = .ok schedule) ↔ row.inputJson ≠ none
  := by
  rw [rowToSchedule]
  cases row.inputJson <;> simp

/-- A schedule that was read has a row, with the identifier and the creation of the record. -/
theorem getSchedule_row {schedules : Schedules} {scheduleId : Id} {schedule : ScheduleRecord}
    (h : getSchedule schedules scheduleId = .ok (some schedule)) :
  ∃ row, schedules.find? schedule.id = some row ∧ row.createdAt = schedule.createdAt
  := by
  rw [getSchedule] at h
  split at h
  case h_1 => cases h
  case h_2 row hrow =>
    obtain ⟨loaded, hload, h⟩ := Except.bind_eq_ok.mp h
    cases h
    rw [rowToSchedule] at hload
    split at hload
    · cases hload
    · cases hload
      use row
      constructor
      · rw [Table.key_of_find? hrow, hrow]
      · rfl

/-- Rows load exactly when each of them does, and into what they load one by one. -/
theorem rowsToSchedules_ok {rows : List ScheduleRow} {schedules : List ScheduleRecord} :
  rowsToSchedules rows = .ok schedules
    ↔ List.Forall₂ (fun row schedule => rowToSchedule row = .ok schedule) rows schedules
  := by
  induction rows generalizing schedules with
  | nil =>
      rw [rowsToSchedules, List.forall₂_nil_left_iff, Except.ok.injEq, eq_comm]
  | cons row rows ih =>
      rw [rowsToSchedules, List.forall₂_cons_left_iff]
      cases hrow : rowToSchedule row with
      | error error => simp [bind, Except.bind]
      | ok schedule =>
          cases hrows : rowsToSchedules rows with
          | error error =>
              simp only [bind, Except.bind, reduceCtorEq, false_iff]
              rintro ⟨_, rest, _, h, -⟩
              rw [← ih, hrows] at h
              cases h
          | ok rest =>
              simp only [bind, Except.bind, Except.ok.injEq, ← ih, hrows]
              constructor
              · rintro rfl
                use schedule, rest
              · rintro ⟨_, _, rfl, rfl, rfl⟩
                rfl

/-- Rows all load when each has an object for its input. -/
theorem rowsToSchedules_total {rows : List ScheduleRow} (h : ∀ row ∈ rows, row.inputJson ≠ none) :
  ∃ schedules, rowsToSchedules rows = .ok schedules
  := by
  induction rows with
  | nil =>
      use []
      rfl
  | cons row rows ih =>
      obtain ⟨schedule, hrow⟩ := rowToSchedule_ok.mpr (h row List.mem_cons_self)
      obtain ⟨schedules, hrows⟩ := ih (fun r hr => h r (List.mem_cons_of_mem _ hr))
      use schedule :: schedules
      simp [rowsToSchedules, hrow, hrows, bind, Except.bind]

/-- A row that does not load breaks the list it is in. -/
theorem rowsToSchedules_error {rows : List ScheduleRow} {row : ScheduleRow} (h : row ∈ rows)
    (hrow : row.inputJson = none) :
  ∀ schedules, rowsToSchedules rows ≠ .ok schedules
  := by
  intro schedules hrows
  have hall := rowsToSchedules_ok.mp hrows
  clear hrows
  induction hall with
  | nil => cases h
  | cons hload _ ih =>
      rcases List.mem_cons.mp h with rfl | h
      · apply rowToSchedule_ok.mp ⟨_, hload⟩ hrow
      · apply ih h

/-- Advancing changes the schedule it names. -/
theorem find?_updateScheduleAfterMaterialize (schedules : Schedules) (scheduleId : Id)
    (lastMaterializedAt nextRunAt : Instant) (s : Id) :
  (updateScheduleAfterMaterialize schedules scheduleId lastMaterializedAt nextRunAt).find? s
    = (schedules.find? s).map (fun row =>
        if row.id = scheduleId then row.advance lastMaterializedAt nextRunAt else row)
  := by
  simp [updateScheduleAfterMaterialize]

/-- A copy that the database accepts has values in its columns, and they are written. -/
theorem scheduleValues_ok {schedule : PatchedSchedule} {row : ScheduleRow}
    (h : scheduleValues schedule = .ok row) :
  row.id = schedule.id ∧ row.kind = schedule.kind ∧ row.projectId = schedule.projectId
    ∧ row.inputJson = schedule.input ∧ schedule.cron = some row.cron
    ∧ schedule.timezone = some row.timezone
    ∧ row.enabled = (if schedule.enabled = some true then 1 else 0)
    ∧ schedule.priority = some row.priority ∧ row.createdAt = schedule.createdAt
    ∧ row.nextRunAt = schedule.nextRunAt
    ∧ row.lastMaterializedAt = schedule.lastMaterializedAt
    ∧ schedule.maxRetries = some row.maxRetries ∧ row.timeoutSeconds = schedule.timeoutSeconds
  := by
  have hvalue : ∀ {α : Type} {column : String} {value : Option α} {a : α},
      notNull column value = .ok a → value = some a := by
    intro α column value a ha
    cases value with
    | none => cases ha
    | some b =>
        cases ha
        rfl
  rw [scheduleValues] at h
  obtain ⟨cron, hcron, h⟩ := Except.bind_eq_ok.mp h
  obtain ⟨timezone, htimezone, h⟩ := Except.bind_eq_ok.mp h
  obtain ⟨priority, hpriority, h⟩ := Except.bind_eq_ok.mp h
  obtain ⟨maxRetries, hmaxRetries, h⟩ := Except.bind_eq_ok.mp h
  obtain ⟨_, -, h⟩ := Except.bind_eq_ok.mp h
  obtain ⟨_, -, h⟩ := Except.bind_eq_ok.mp h
  obtain ⟨_, -, h⟩ := Except.bind_eq_ok.mp h
  cases h
  simp [hvalue hcron, hvalue htimezone, hvalue hpriority, hvalue hmaxRetries]

/-- An update replaces the row that it names by the values of the copy. -/
theorem updateSchedule_ok {schedules schedules' : Schedules} {schedule : PatchedSchedule}
    (h : updateSchedule schedules schedule = .ok schedules') :
  ∃ values, scheduleValues schedule = .ok values ∧ ∀ s, schedules'.find? s
    = (schedules.find? s).map (fun row =>
        if row.id = schedule.id then values.replace row else row)
  := by
  obtain ⟨values, hvalues, h⟩ := Except.bind_eq_ok.mp h
  cases h
  use values, hvalues
  intro s
  simp

/-- What is written is read back exactly when neither the input nor the flag is null: a null
input does not load, and a null flag loads as disabled. -/
theorem roundTrip_iff {schedule : PatchedSchedule} {row : ScheduleRow}
    (h : scheduleValues schedule = .ok row) :
  (∃ loaded, rowToSchedule row = .ok loaded ∧ loaded.copy = schedule)
    ↔ schedule.input ≠ none ∧ schedule.enabled ≠ none
  := by
  constructor
  · rintro ⟨loaded, -, rfl⟩
    constructor <;> simp [ScheduleRecord.copy]
  · rintro ⟨hinput, henabled⟩
    obtain ⟨input, hinput⟩ := Option.ne_none_iff_exists'.mp hinput
    obtain ⟨enabled, henabled⟩ := Option.ne_none_iff_exists'.mp henabled
    obtain ⟨hid, hkind, hproject, hrowInput, hcron, htimezone, hrowEnabled, hpriority, hcreated,
      hnext, hlast, hretries, htimeout⟩ := scheduleValues_ok h
    rw [hinput] at hrowInput
    simp only [rowToSchedule, hrowInput]
    refine ⟨_, rfl, ?_⟩
    cases schedule
    dsimp only at *
    subst hinput henabled hid hkind hproject hcron htimezone hpriority hcreated hnext hlast
      hretries htimeout
    cases enabled <;> simp [ScheduleRecord.copy, hrowEnabled]

end GoblinKing
