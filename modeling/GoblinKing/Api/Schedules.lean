import GoblinKing.Scheduler.Pass

/-!
# The schedule endpoints

Creating and patching schedules through the API. A patch request says of every field whether
it is absent, null or set. The endpoint reads the record, replaces the fields that are
present, and writes back every column; the read and the write are separate transactions.
-/

namespace GoblinKing

/-- A field of a patch request. -/
inductive PatchField (α : Type) where
  | absent
  | null
  | value (a : α)
  deriving DecidableEq, Repr

/-- The value of a field in the copy of a record. -/
def PatchField.over {α : Type} (field : PatchField α) (old : Option α) : Option α :=
  match field with
  | .absent => old
  | .null => none
  | .value a => some a

/-- Whether a field is present in a request. -/
def PatchField.isSet {α : Type} (field : PatchField α) : Bool :=
  match field with
  | .absent => false
  | .null | .value _ => true

/-- Partial request body for updating a recurring schedule. -/
structure SchedulePatchRequest where
  cron : PatchField String := .absent
  input : PatchField JsonObject := .absent
  timezone : PatchField String := .absent
  enabled : PatchField Bool := .absent
  priority : PatchField ℤ := .absent
  maxRetries : PatchField ℕ := .absent
  timeoutSeconds : PatchField ℕ := .absent
  timeoutPositive : timeoutSeconds ≠ .value 0 := by decide
  deriving DecidableEq

/-- Request body for creating one recurring schedule. -/
structure ScheduleCreateRequest where
  kind : String
  cron : String
  input : JsonObject
  timezone : String := "UTC"
  enabled : Bool := true
  priority : ℤ := 100
  maxRetries : ℕ := 0
  timeoutSeconds : Option ℕ := none
  dueNow : Bool := false
  timeoutPositive : timeoutSeconds ≠ some 0 := by decide
  deriving DecidableEq

/-- Validate and convert a create body into a record; the record gets the project of the
request. -/
def scheduleFromRequest (env : Environment) (kinds : List String)
    (request : ScheduleCreateRequest) (projectId : Option Id) (scheduleId : Id)
    (createdAt : Instant) : Except String ScheduleRecord := do
  let kind ← registryGet kinds request.kind
  let cron ← env.validateCron (some request.cron)
  let timezone ← env.validateTimezone (some request.timezone)
  let nextRunAt ←
    if request.dueNow then .ok createdAt else env.nextRunAfter cron timezone createdAt
  .ok {
    id := scheduleId
    kind := kind
    projectId := projectId
    input := request.input
    cron := cron
    timezone := timezone
    enabled := request.enabled
    priority := request.priority
    createdAt := createdAt
    nextRunAt := nextRunAt
    lastMaterializedAt := none
    maxRetries := request.maxRetries
    timeoutSeconds := request.timeoutSeconds }

/-- Create one recurring schedule. -/
def createSchedule (env : Environment) (kinds : List String) (schedules : Schedules)
    (request : ScheduleCreateRequest) (projectId : Option Id) (scheduleId : Id)
    (createdAt : Instant) : Except String (ScheduleRecord × Schedules) := do
  let schedule ← scheduleFromRequest env kinds request projectId scheduleId createdAt
  let schedules ← saveSchedule schedules schedule
  .ok (schedule, schedules)

/-- The copy of a record with the fields of a request. -/
def SchedulePatchRequest.over (request : SchedulePatchRequest) (schedule : ScheduleRecord) :
    PatchedSchedule :=
  { schedule.copy with
    cron := request.cron.over (some schedule.cron)
    input := request.input.over (some schedule.input)
    timezone := request.timezone.over (some schedule.timezone)
    enabled := request.enabled.over (some schedule.enabled)
    priority := request.priority.over (some schedule.priority)
    maxRetries := request.maxRetries.over (some schedule.maxRetries)
    timeoutSeconds := request.timeoutSeconds.over schedule.timeoutSeconds }

/-- `changed_timing` -/
def SchedulePatchRequest.changedTiming (request : SchedulePatchRequest) : Bool :=
  request.cron.isSet || request.timezone.isSet || request.enabled.isSet

/-- What a patch request writes: the copy of the record, with a new next run when the
timing has changed. -/
def patched (env : Environment) (request : SchedulePatchRequest) (schedule : ScheduleRecord)
    (now : Instant) : Except String PatchedSchedule := do
  let cron ← env.validateCron (request.cron.over (some schedule.cron))
  let timezone ← env.validateTimezone (request.timezone.over (some schedule.timezone))
  if request.changedTiming then
    let nextRunAt ← env.nextRunAfter cron timezone now
    .ok { request.over schedule with nextRunAt := nextRunAt }
  else
    .ok (request.over schedule)

/-- Patch one schedule; both transactions at once. -/
def patchSchedule (env : Environment) (schedules : Schedules) (scheduleId : Id)
    (request : SchedulePatchRequest) (now : Instant) :
    Except String (PatchedSchedule × Schedules) := do
  match ← getSchedule schedules scheduleId with
  | none => .error ("schedule not found: " ++ scheduleId)
  | some schedule =>
      let copy ← patched env request schedule now
      let schedules ← updateSchedule schedules copy
      .ok (copy, schedules)

/-- What a patch request writes is the copy of the record, with the next run after the
instant of the request when the timing has changed. -/
theorem patched_ok {env : Environment} {request : SchedulePatchRequest}
    {schedule : ScheduleRecord} {now : Instant} {copy : PatchedSchedule}
    (h : patched env request schedule now = .ok copy) :
  ∃ nextRunAt, copy = { request.over schedule with nextRunAt := nextRunAt }
    ∧ ((request.changedTiming = true ∧ ∃ cron timezone,
          copy.cron = some cron ∧ copy.timezone = some timezone
          ∧ env.nextRunAfter cron timezone now = .ok nextRunAt)
      ∨ (request.changedTiming = false ∧ nextRunAt = schedule.nextRunAt))
  := by
  rw [patched] at h
  obtain ⟨cron, hcron, h⟩ := Except.bind_eq_ok.mp h
  obtain ⟨timezone, htimezone, h⟩ := Except.bind_eq_ok.mp h
  split at h
  case isTrue hchanged =>
    obtain ⟨nextRunAt, hnext, h⟩ := Except.bind_eq_ok.mp h
    cases h
    use nextRunAt, rfl
    left
    exact ⟨hchanged, cron, timezone, (env.validateCron_ok hcron).1,
      (env.validateTimezone_ok htimezone).1, hnext⟩
  case isFalse hchanged =>
    cases h
    use schedule.nextRunAt, rfl
    right
    exact ⟨Bool.not_eq_true _ ▸ hchanged, rfl⟩

end GoblinKing
