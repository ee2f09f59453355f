import GoblinKing.Api.IsolationLeaks
import GoblinKing.Api.Schedules

/-!
# Lists and single resources

A job, a fanout or a schedule can be reached by its identifier, or be found on a page of a list.
The two ways should agree for every caller. Reaching one resolves the project of its row, where a
row without a project falls back to the project of the caller or to the default project; a list
compares the project of the row itself.
-/

namespace GoblinKing

/-! ### Endpoints that change a resource -/

/-- An error with status 409 under a condition. -/
def conflictIf (condition : Bool) (detail : String) : Except ReadError Unit :=
  if condition then .error (.conflict detail) else .ok ()

/-- What `cancel_job` answers after the attempt to cancel. -/
def cancelResponse (jobId : Id) :
    (Option JobRecord × Bool) × Jobs → Except ReadError (JobRecord × Jobs)
  | ((none, _), _) => .error (.notFound ("job not found: " ++ jobId))
  | ((some cancelled, changed), jobs) => do
      conflictIf (!changed) ("job is terminal: " ++ cancelled.status.text)
      .ok (rowToJob cancelled, jobs)

/-- `cancel_job`; its transactions at once. -/
def ReadDb.cancelJob (db : ReadDb) (settings : ApiSettings) (principal : Principal) (jobId : Id) :
    Except ReadError (JobRecord × Jobs) := do
  let before ← foundOr (db.jobs.find? jobId) ("job not found: " ++ jobId)
  let _ ← authorize settings principal before.projectId
  conflictIf before.status.isTerminal ("job is terminal: " ++ before.status.text)
  cancelResponse jobId (tryCancelJob db.jobs jobId)

/-- `patch_schedule` up to the update: the schedule is loaded and its project authorized. -/
def ReadDb.scheduleForPatch (db : ReadDb) (settings : ApiSettings) (principal : Principal)
    (scheduleId : Id) : Except ReadError ScheduleRecord := do
  let found ← (getSchedule db.schedules scheduleId).mapError .internal
  let schedule ← foundOr found ("schedule not found: " ++ scheduleId)
  let _ ← authorize settings principal schedule.projectId
  .ok schedule

/-- `patch_schedule`; its transactions at once. -/
def ReadDb.patchSchedule (db : ReadDb) (env : Environment) (settings : ApiSettings)
    (principal : Principal) (scheduleId : Id) (request : SchedulePatchRequest) (now : Instant) :
    Except ReadError (PatchedSchedule × Schedules) := do
  let schedule ← db.scheduleForPatch settings principal scheduleId
  let copy ← (patched env request schedule now).mapError .internal
  let schedules ← (updateSchedule db.schedules copy).mapError .internal
  .ok (copy, schedules)

/-! ### Both ways to a resource -/

/-- A resource that has a list and can be reached by its identifier. -/
inductive Resource where
  | job (jobId : Id)
  | fanout (fanoutId : Id)
  | schedule (scheduleId : Id)
  deriving DecidableEq

/-- A caller can read a resource, or gets at it to change it. -/
def ReadDb.Reaches (db : ReadDb) (settings : ApiSettings) (principal : Principal) :
    Resource → Prop
  | .job jobId =>
      (∃ job, db.getJob settings principal jobId = .ok job)
        ∨ ∃ cancelled, db.cancelJob settings principal jobId = .ok cancelled
  | .fanout fanoutId => ∃ detail, db.getFanout settings principal fanoutId = .ok detail
  | .schedule scheduleId =>
      ∃ schedule, db.scheduleForPatch settings principal scheduleId = .ok schedule

/-- A resource is on some page of its list, for some filter. -/
def ReadDb.Lists (db : ReadDb) (settings : ApiSettings) (principal : Principal) :
    Resource → Prop
  | .job jobId => ∃ query status projectId response,
      db.listJobs settings principal query status projectId = .ok response
        ∧ ∃ job ∈ response.items, job.id = jobId
  | .fanout fanoutId => ∃ details, db.getFanouts principal = .ok details
      ∧ ∃ detail ∈ details, detail.fanout.id = fanoutId
  | .schedule scheduleId => ∃ schedules, db.listSchedules principal = .ok schedules
      ∧ ∃ schedule ∈ schedules, schedule.id = scheduleId

/-- Jobs of a project are found both ways or neither. A job without a project is, when it falls
back to a project that the caller may not access, to no project at all, or to what is in its own
row. -/
def jobsAgree (settings : ApiSettings) (principal : Principal) (projectId : Option Id) : Bool :=
  let fallback := resolvedProject settings principal none
  (truthy projectId).isSome || fallback.isNone || decide (projectId = fallback)
    || !principal.mayAccess fallback

/-- Rows of fanouts and schedules are found both ways or neither by an admin without a project;
by an admin with a project, if they are of that project; by another caller without a project, if
they have a project; and by a caller with a project, if they name a project, or fall back to the
project of the caller exactly when it is in their row. -/
def rowsAgree (settings : ApiSettings) (principal : Principal) (projectId : Option Id) : Bool :=
  if principal.role = .admin then
    principal.projectId.isNone || decide (projectId = principal.projectId)
  else
    match principal.projectId with
    | none => projectId.isSome
    | some own => (truthy projectId).isSome
        || (decide (resolvedProject settings principal none = some own)
          == decide (projectId = some own))

/-- A schedule that loads is found both ways or neither, when all others load as well and its row
is; or when the caller may not access it in the first place. -/
def ReadDb.schedulesAgree (db : ReadDb) (settings : ApiSettings) (principal : Principal)
    (row : ScheduleRow) : Bool :=
  row.inputJson.isNone
    || (if db.schedules.rows.all (fun other => other.inputJson.isSome) then
      rowsAgree settings principal row.projectId
    else
      !principal.mayAccess (resolvedProject settings principal row.projectId))

/-- Both ways to a resource agree. -/
def ReadDb.agrees (db : ReadDb) (settings : ApiSettings) (principal : Principal) :
    Resource → Bool
  | .job jobId => (db.jobs.find? jobId).all (fun job => jobsAgree settings principal job.projectId)
  | .fanout fanoutId =>
      (db.fanouts.find? fanoutId).all (fun fanout => rowsAgree settings principal fanout.projectId)
  | .schedule scheduleId =>
      (db.schedules.find? scheduleId).all (db.schedulesAgree settings principal)

section

variable {settings : ApiSettings} {principal : Principal} {db : ReadDb}

/-- A row that is looked up and authorized. -/
theorem foundOr_bind_ok {α β : Type} {row : Option α} {detail : String}
    {f : α → Except ReadError β} {b : β} :
  (foundOr row detail >>= f) = .ok b ↔ ∃ a, row = some a ∧ f a = .ok b
  := by
  simp only [Except.bind_eq_ok, foundOr_ok]

/-- What is authorized, and what is returned then. -/
theorem authorize_bind_ok {α : Type} {projectId : Option Id} {a b : α} :
  (authorize settings principal projectId >>= fun _ => .ok a) = .ok b
    ↔ principal.mayAccess (resolvedProject settings principal projectId) = true ∧ a = b
  := by
  rw [authorize_eq]
  split
  case isTrue h => simp [bind, Except.bind, h]
  case isFalse h => simp [bind, Except.bind, h]

/-! ### Jobs -/

/-- A job is reached when its project is authorized; to be cancelled it must be read first. -/
theorem reaches_job {jobId : Id} :
  db.Reaches settings principal (.job jobId)
    ↔ ∃ job, db.jobs.find? jobId = some job
      ∧ principal.mayAccess (resolvedProject settings principal job.projectId) = true
  := by
  have hget : (∃ record, db.getJob settings principal jobId = .ok record)
      ↔ ∃ job, db.jobs.find? jobId = some job
        ∧ principal.mayAccess (resolvedProject settings principal job.projectId) = true := by
    constructor
    · rintro ⟨record, h⟩
      obtain ⟨job, hjob, h⟩ := foundOr_bind_ok.mp h
      exact ⟨job, hjob, (authorize_bind_ok.mp h).1⟩
    · rintro ⟨job, hjob, hallowed⟩
      exact ⟨rowToJob job, foundOr_bind_ok.mpr ⟨job, hjob, authorize_bind_ok.mpr ⟨hallowed, rfl⟩⟩⟩
  constructor
  · rintro (h | ⟨cancelled, h⟩)
    · apply hget.mp h
    · obtain ⟨job, hjob, h⟩ := foundOr_bind_ok.mp h
      obtain ⟨scope, hscope, -⟩ := Except.bind_eq_ok.mp h
      obtain ⟨hallowed, rfl⟩ := authorize_ok.mp hscope
      exact ⟨job, hjob, hallowed⟩
  · intro h
    left
    apply hget.mpr h

/-- A job is listed when a project that the caller may access, and that can be asked for, is that
of its row, or none. -/
theorem lists_job {jobId : Id} :
  db.Lists settings principal (.job jobId)
    ↔ ∃ job, db.jobs.find? jobId = some job ∧ ∃ projectId,
      principal.mayAccess (resolvedProject settings principal projectId) = true
      ∧ inScope (resolvedProject settings principal projectId) job.projectId = true
  := by
  constructor
  · rintro ⟨query, status, projectId, response, h, record, hrecord, hid⟩
    obtain ⟨scope, hscope, h⟩ := Except.bind_eq_ok.mp h
    obtain ⟨hallowed, rfl⟩ := authorize_ok.mp hscope
    obtain rfl := Except.ok.inj h
    obtain ⟨job, hjob, rfl⟩ := List.mem_map.mp hrecord
    have hmem := (List.mem_insertionSort _).mp (PageQuery.mem_of_mem_page hjob)
    rw [Table.select, List.mem_filter, Bool.and_eq_true] at hmem
    exact ⟨job, Table.find?_eq_some.mpr ⟨hmem.1, hid⟩, projectId, hallowed, hmem.2.1⟩
  · rintro ⟨job, hjob, projectId, hallowed, hscope⟩
    obtain ⟨hmem, hid⟩ := Table.find?_eq_some.mp hjob
    have hselected : job ∈ (db.jobs.select (fun job =>
        inScope (resolvedProject settings principal projectId) job.projectId
          && meets none job.status.text)).insertionSort
            (fun a b => b.createdAt ≤ a.createdAt) := by
      rw [List.mem_insertionSort, Table.select, List.mem_filter, hscope]
      exact ⟨hmem, rfl⟩
    obtain ⟨query, hpage⟩ := PageQuery.exists_mem_page hselected
    refine ⟨query, none, projectId, _, Except.bind_eq_ok.mpr
      ⟨_, authorize_ok.mpr ⟨hallowed, rfl⟩, rfl⟩, rowToJob job, ?_, hid⟩
    apply List.mem_map_of_mem hpage

/-- A row that names no project resolves as a request that names none. -/
theorem resolvedProject_of_not_truthy {projectId : Option Id} (h : truthy projectId = none) :
  resolvedProject settings principal projectId = resolvedProject settings principal none
  := by
  rw [resolvedProject, h]
  rfl

/-- The project of a row can be asked for when it is one. -/
theorem resolvedProject_truthy {projectId : Option Id} (h : (truthy projectId).isSome = true) :
  resolvedProject settings principal projectId = projectId
  := by
  obtain ⟨project, hproject⟩ := Option.isSome_iff_exists.mp h
  rw [resolvedProject_of_truthy hproject, (Option.filter_eq_some_iff.mp hproject).1]

/-- An admin alone may access what has no project. -/
theorem mayAccess_none (h : principal.mayAccess none = true) :
  principal.role = .admin
  := by
  by_contra hmember
  obtain ⟨hsome, hnone⟩ := (mayAccess_member hmember).mp h
  rw [← hnone] at hsome
  cases hsome

/-- For a job of a row with some project, both ways agree exactly under the condition on this
project. -/
theorem jobsAgree_iff {projectId : Option Id} :
  (principal.mayAccess (resolvedProject settings principal projectId) = true
      ↔ ∃ requested, principal.mayAccess (resolvedProject settings principal requested) = true
        ∧ inScope (resolvedProject settings principal requested) projectId = true)
    ↔ jobsAgree settings principal projectId = true
  := by
  cases hproject : truthy projectId with
  | some project =>
      apply iff_of_true
      · have hown : (truthy projectId).isSome = true := by
          rw [hproject]
          rfl
        constructor
        · intro hallowed
          refine ⟨projectId, hallowed, ?_⟩
          rw [resolvedProject_truthy hown]
          apply inScope_self
        · rintro ⟨requested, hallowed, hscope⟩
          rw [resolvedProject_truthy hown]
          cases hresolved : resolvedProject settings principal requested with
          | none =>
              rw [hresolved] at hallowed
              simp [Principal.mayAccess, mayAccess_none hallowed]
          | some scope =>
              rw [hresolved] at hallowed hscope
              have hsame : projectId = some scope := by
                simpa [inScope] using hscope
              rw [hsame]
              apply hallowed
      · simp [jobsAgree, hproject]
  | none =>
      rw [resolvedProject_of_not_truthy hproject, jobsAgree, hproject]
      simp only [Option.isSome_none, Bool.false_or]
      -- a project that is asked for by name is not that of the row
      have hscope : (∃ requested,
          principal.mayAccess (resolvedProject settings principal requested) = true
            ∧ inScope (resolvedProject settings principal requested) projectId = true)
          ↔ principal.mayAccess (resolvedProject settings principal none) = true
            ∧ inScope (resolvedProject settings principal none) projectId = true := by
        constructor
        · rintro ⟨requested, hallowed, hscope⟩
          cases hrequested : truthy requested with
          | none =>
              rw [resolvedProject_of_not_truthy hrequested] at hallowed hscope
              exact ⟨hallowed, hscope⟩
          | some scope =>
              rw [resolvedProject_of_truthy hrequested] at hscope
              have hsame : projectId = some scope := by
                simpa [inScope] using hscope
              have hown : truthy projectId = some scope := by
                rw [hsame, truthy, Option.filter_eq_some_iff]
                exact ⟨rfl, (Option.filter_eq_some_iff.mp hrequested).2⟩
              rw [hproject] at hown
              cases hown
        · rintro ⟨hallowed, hscope⟩
          exact ⟨none, hallowed, hscope⟩
      rw [hscope]
      generalize resolvedProject settings principal none = fallback
      cases hallowed : principal.mayAccess fallback with
      | false => simp
      | true => cases fallback <;> simp [inScope]

/-! ### Fanouts and schedules -/

/-- A fanout is reached when its project is authorized. -/
theorem reaches_fanout {fanoutId : Id} :
  db.Reaches settings principal (.fanout fanoutId)
    ↔ ∃ fanout, db.fanouts.find? fanoutId = some fanout
      ∧ principal.mayAccess (resolvedProject settings principal fanout.projectId) = true
  := by
  constructor
  · rintro ⟨detail, h⟩
    obtain ⟨loaded, hloaded, h⟩ := Except.bind_eq_ok.mp h
    obtain ⟨fanout, hfanout, hdetail⟩ := foundOr_bind_ok.mp hloaded
    obtain rfl := Except.ok.inj hdetail
    exact ⟨fanout, hfanout, (authorize_bind_ok.mp h).1⟩
  · rintro ⟨fanout, hfanout, hallowed⟩
    exact ⟨db.detail fanout, Except.bind_eq_ok.mpr ⟨db.detail fanout,
      foundOr_bind_ok.mpr ⟨fanout, hfanout, rfl⟩, authorize_bind_ok.mpr ⟨hallowed, rfl⟩⟩⟩

/-- A row is picked from a list for a caller who sees all, or of its project. -/
theorem mem_picked {α : Type} (owner : α → Option Id) {rows : List α} {row : α} :
  row ∈ (if principal.seesAll then
      rows
    else
      rows.filter (fun row => decide (owner row = principal.projectId)))
    ↔ row ∈ rows ∧ (principal.seesAll = true ∨ owner row = principal.projectId)
  := by
  cases principal.seesAll <;> simp

/-- A fanout is listed to an admin without a project, or when it has the project of the caller. -/
theorem lists_fanout {fanoutId : Id} :
  db.Lists settings principal (.fanout fanoutId)
    ↔ ∃ fanout, db.fanouts.find? fanoutId = some fanout
      ∧ (principal.seesAll = true ∨ fanout.projectId = principal.projectId)
  := by
  constructor
  · rintro ⟨details, h, detail, hdetail, hid⟩
    obtain rfl := Except.ok.inj h
    obtain ⟨hmem, hseen⟩ := (mem_picked (fun detail : FanoutDetail => detail.fanout.projectId)).mp hdetail
    obtain ⟨fanout, hfanout, rfl⟩ := List.mem_map.mp hmem
    rw [listFanouts, List.mem_insertionSort] at hfanout
    exact ⟨fanout, Table.find?_eq_some.mpr ⟨hfanout, hid⟩, hseen⟩
  · rintro ⟨fanout, hfanout, hseen⟩
    obtain ⟨hmem, hid⟩ := Table.find?_eq_some.mp hfanout
    refine ⟨_, rfl, db.detail fanout, ?_, hid⟩
    apply (mem_picked (fun detail : FanoutDetail => detail.fanout.projectId)).mpr
    refine ⟨?_, hseen⟩
    apply List.mem_map_of_mem
    rw [listFanouts, List.mem_insertionSort]
    apply hmem

/-- For a row with some project, both ways agree exactly under the condition on this project. -/
theorem rowsAgree_iff {projectId : Option Id} :
  (principal.mayAccess (resolvedProject settings principal projectId) = true
      ↔ principal.seesAll = true ∨ projectId = principal.projectId)
    ↔ rowsAgree settings principal projectId = true
  := by
  rw [rowsAgree]
  split
  case isTrue hadmin =>
    simp [Principal.mayAccess, Principal.seesAll, hadmin]
  case isFalse hmember =>
    rw [mayAccess_member hmember]
    cases hown : principal.projectId with
    | none => simp [Principal.seesAll, hmember, Option.isSome_iff_ne_none]
    | some own =>
        cases hproject : truthy projectId with
        | some project =>
            have hsome : (truthy projectId).isSome = true := by
              rw [hproject]
              rfl
            simp [Principal.seesAll, hmember, resolvedProject_truthy hsome]
        | none =>
            rw [resolvedProject_of_not_truthy hproject]
            by_cases hfallback : resolvedProject settings principal none = some own <;>
              by_cases hsame : projectId = some own <;>
              simp [Principal.seesAll, hmember, hfallback, hsame]

/-- What loads a schedule keeps its identifier and its project. -/
theorem rowToSchedule_ids {row : ScheduleRow} {schedule : ScheduleRecord}
    (h : rowToSchedule row = .ok schedule) :
  schedule.id = row.id ∧ schedule.projectId = row.projectId
  := by
  rw [rowToSchedule] at h
  cases hinput : row.inputJson with
  | none =>
      rw [hinput] at h
      cases h
  | some input =>
      rw [hinput] at h
      cases h
      exact ⟨rfl, rfl⟩

/-- A schedule is loaded from its row. -/
theorem getSchedule_eq_some {schedules : Schedules} {scheduleId : Id} {schedule : ScheduleRecord} :
  getSchedule schedules scheduleId = .ok (some schedule)
    ↔ ∃ row, schedules.find? scheduleId = some row ∧ rowToSchedule row = .ok schedule
  := by
  rw [getSchedule]
  cases schedules.find? scheduleId with
  | none => simp
  | some row => simp [Except.bind_eq_ok]

/-- A schedule is reached when its row loads and its project is authorized. -/
theorem reaches_schedule {scheduleId : Id} :
  db.Reaches settings principal (.schedule scheduleId)
    ↔ ∃ row, db.schedules.find? scheduleId = some row ∧ row.inputJson ≠ none
      ∧ principal.mayAccess (resolvedProject settings principal row.projectId) = true
  := by
  constructor
  · rintro ⟨loaded, h⟩
    obtain ⟨found, hfound, h⟩ := Except.bind_eq_ok.mp h
    obtain ⟨schedule, rfl, h⟩ := foundOr_bind_ok.mp h
    obtain ⟨row, hrow, hload⟩ := getSchedule_eq_some.mp (Except.mapError_eq_ok.mp hfound)
    have hallowed := (authorize_bind_ok.mp h).1
    rw [(rowToSchedule_ids hload).2] at hallowed
    exact ⟨row, hrow, rowToSchedule_ok.mp ⟨schedule, hload⟩, hallowed⟩
  · rintro ⟨row, hrow, hinput, hallowed⟩
    obtain ⟨schedule, hload⟩ := rowToSchedule_ok.mpr hinput
    rw [← (rowToSchedule_ids hload).2] at hallowed
    exact ⟨schedule, Except.bind_eq_ok.mpr ⟨some schedule,
      Except.mapError_eq_ok.mpr (getSchedule_eq_some.mpr ⟨row, hrow, hload⟩),
      authorize_bind_ok.mpr ⟨hallowed, rfl⟩⟩⟩

/-- The schedules that are loaded have the identifiers and the projects of the rows. -/
theorem mem_rowsToSchedules {rows : List ScheduleRow} {schedules : List ScheduleRecord}
    (h : rowsToSchedules rows = .ok schedules) (scheduleId : Id) (projectId : Option Id) :
  (∃ schedule ∈ schedules, schedule.id = scheduleId ∧ schedule.projectId = projectId)
    ↔ ∃ row ∈ rows, row.id = scheduleId ∧ row.projectId = projectId
  := by
  have hall := rowsToSchedules_ok.mp h
  clear h
  induction hall with
  | nil => simp
  | cons hload _ ih =>
      obtain ⟨hid, hproject⟩ := rowToSchedule_ids hload
      simp [ih, hid, hproject]

/-- A schedule is listed when all rows load, and to an admin without a project, or when it has the
project of the caller. -/
theorem lists_schedule {scheduleId : Id} :
  db.Lists settings principal (.schedule scheduleId)
    ↔ ∃ row, db.schedules.find? scheduleId = some row
      ∧ (∀ other ∈ db.schedules.rows, other.inputJson ≠ none)
      ∧ (principal.seesAll = true ∨ row.projectId = principal.projectId)
  := by
  have hsorted : ∀ row, row ∈ db.schedules.rows.insertionSort ScheduleRow.RunsBefore
      ↔ row ∈ db.schedules.rows := fun _ => List.mem_insertionSort _
  constructor
  · rintro ⟨_, h, schedule, hschedule, hid⟩
    obtain ⟨schedules, hloaded, h⟩ := Except.bind_eq_ok.mp h
    obtain rfl := Except.ok.inj h
    have hrows := Except.mapError_eq_ok.mp hloaded
    rw [listSchedules] at hrows
    have hload : ∀ row ∈ db.schedules.rows, row.inputJson ≠ none := by
      intro row hrow hinput
      apply rowsToSchedules_error ((hsorted row).mpr hrow) hinput schedules hrows
    obtain ⟨hmem, hseen⟩ := (mem_picked ScheduleRecord.projectId).mp hschedule
    obtain ⟨row, hrow, hid', hproject⟩ := (mem_rowsToSchedules hrows scheduleId
      schedule.projectId).mp ⟨schedule, hmem, hid, rfl⟩
    rw [← hproject] at hseen
    exact ⟨row, Table.find?_eq_some.mpr ⟨(hsorted row).mp hrow, hid'⟩, hload, hseen⟩
  · rintro ⟨row, hrow, hload, hseen⟩
    obtain ⟨hmem, hid⟩ := Table.find?_eq_some.mp hrow
    have hloads : ∀ row ∈ db.schedules.rows.insertionSort ScheduleRow.RunsBefore,
        row.inputJson ≠ none := fun row hrow => hload row ((hsorted row).mp hrow)
    obtain ⟨schedules, hrows⟩ := rowsToSchedules_total hloads
    obtain ⟨schedule, hschedule, hid', hproject⟩ := (mem_rowsToSchedules hrows scheduleId
      row.projectId).mpr ⟨row, (hsorted row).mpr hmem, hid, rfl⟩
    refine ⟨_, Except.bind_eq_ok.mpr ⟨schedules, Except.mapError_eq_ok.mpr hrows, rfl⟩, schedule, ?_,
      hid'⟩
    apply (mem_picked ScheduleRecord.projectId).mpr
    rw [hproject]
    exact ⟨hschedule, hseen⟩

/-! ### Where both ways agree -/

/-- Two statements about the row under a key agree exactly when they do for the row that is there,
if there is one. -/
theorem agree_iff {α : Type} {row : Option α} {P Q : α → Prop} {agrees : α → Bool}
    (h : ∀ a, row = some a → ((P a ↔ Q a) ↔ agrees a = true)) :
  ((∃ a, row = some a ∧ P a) ↔ ∃ a, row = some a ∧ Q a) ↔ row.all agrees = true
  := by
  cases row with
  | none => simp
  | some a =>
      rw [Option.all_some, ← h a rfl]
      simp

/-- A schedule is reached and listed, or neither, exactly under the condition on its row. -/
theorem schedulesAgree_iff {row : ScheduleRow} (hrow : row ∈ db.schedules.rows) :
  ((row.inputJson ≠ none
        ∧ principal.mayAccess (resolvedProject settings principal row.projectId) = true)
      ↔ (∀ other ∈ db.schedules.rows, other.inputJson ≠ none)
        ∧ (principal.seesAll = true ∨ row.projectId = principal.projectId))
    ↔ db.schedulesAgree settings principal row = true
  := by
  rw [ReadDb.schedulesAgree]
  by_cases hinput : row.inputJson = none
  · apply iff_of_true
    · constructor
      · rintro ⟨hloads, -⟩
        cases hloads hinput
      · rintro ⟨hall, -⟩
        cases hall row hrow hinput
    · simp [hinput]
  · have hsome : row.inputJson.isNone = false := by
      rw [← Bool.not_eq_true, Option.isNone_iff_eq_none]
      apply hinput
    rw [hsome, Bool.false_or]
    split
    case isTrue hall =>
      have hloads : ∀ other ∈ db.schedules.rows, other.inputJson ≠ none := by
        intro other hother hnone
        have hsome := List.all_eq_true.mp hall other hother
        rw [hnone] at hsome
        cases hsome
      rw [← rowsAgree_iff]
      simp only [ne_eq, hinput, not_false_eq_true, true_and]
      rw [and_iff_right hloads]
    case isFalse hbroken =>
      have hfails : ¬∀ other ∈ db.schedules.rows, other.inputJson ≠ none := by
        intro hloads
        apply hbroken
        rw [List.all_eq_true]
        intro other hother
        apply Option.isSome_iff_ne_none.mpr (hloads other hother)
      simp [hinput, hfails]

end

/-- For every caller, every setting and every store: a resource that the caller can reach is on a
page of its list and the other way round, exactly under the condition on its row. -/
theorem reaches_iff_lists (settings : ApiSettings) (principal : Principal) (db : ReadDb)
    (resource : Resource) :
  (db.Reaches settings principal resource ↔ db.Lists settings principal resource)
    ↔ db.agrees settings principal resource = true
  := by
  cases resource with
  | job jobId =>
      rw [reaches_job, lists_job]
      apply agree_iff
      intro job _
      apply jobsAgree_iff
  | fanout fanoutId =>
      rw [reaches_fanout, lists_fanout]
      apply agree_iff
      intro fanout _
      apply rowsAgree_iff
  | schedule scheduleId =>
      rw [reaches_schedule, lists_schedule]
      apply agree_iff
      intro row hrow
      apply schedulesAgree_iff (Table.mem_of_find? hrow)

/-- A store with a job that has no project. -/
def orphanStore : ReadDb :=
  { StoreContents.empty.toReadDb with
    jobs := ⟨[{ id := "j", kind := "k", createdAt := 0 }], List.nodup_singleton _⟩ }

/-- A job without a project can be read by every member with a project, and is on no page. -/
theorem orphan_job_unlisted :
  ¬∀ (settings : ApiSettings) (principal : Principal) (db : ReadDb) (resource : Resource),
    db.Reaches settings principal resource ↔ db.Lists settings principal resource
  := by
  intro h
  have hjob := h .sample alice orphanStore (.job "j")
  rw [reaches_job, lists_job] at hjob
  have hagrees := (agree_iff (fun _ _ => jobsAgree_iff)).mp hjob
  revert hagrees
  decide

end GoblinKing
