import GoblinKing.Api.Ceilings
import GoblinKing.Api.Queueing
import GoblinKing.Api.Reads
import GoblinKing.Store.RoundTrip
import GoblinKing.Store.Tables

/-!
# The creation of a batch

The creation of a fanout and its jobs, transaction by transaction: the items are validated before
anything is written, but the fanout and each of its jobs are written in transactions of their own,
and the batch is read back in further statements. What fails behind the transaction of the fanout
leaves the fanout, and the jobs that were written before, in the store.
-/

namespace GoblinKing

/-! ### Requests -/

/-- One queued job request inside a fanout batch, with its input. -/
structure FanoutItemFields where
  kind : String
  input : JsonDict
  priority : ℤ
  maxRetries : ℕ
  timeoutSeconds : Option ℕ+

/-- What is validated of an item. -/
def FanoutItemFields.item (fields : FanoutItemFields) : FanoutItem where
  kind := fields.kind
  priority := fields.priority
  maxRetries := fields.maxRetries
  timeoutSeconds := fields.timeoutSeconds

/-- Create request for a mixed-kind fanout batch, with all of its fields. -/
structure FanoutRequestFields where
  description : Option String
  correlationId : Option String
  items : List FanoutItemFields
  nonempty : items ≠ []

/-- What a batch is created with besides its request: who creates it, and the identifiers and the
time that are drawn. -/
structure FanoutDraws where
  createdBy : String
  projectId : Option Id
  now : WallClock
  fanoutId : Id
  correlationId : String
  jobId : ℕ → Id

/-- The settings of the API, and the metadata of the jobs of a batch. -/
structure FanoutConfig extends QueueConfig where
  metadata : ℕ → FanoutItemFields → Option ResourcePolicy → JsonDict

/-- `request.correlation_id or str(uuid4())` -/
def FanoutDraws.correlation (draws : FanoutDraws) (request : FanoutRequestFields) : String :=
  (request.correlationId.filter (· ≠ "")).getD draws.correlationId

/-- The row of a fanout. -/
def fanoutColumns (request : FanoutRequestFields) (draws : FanoutDraws) : FanoutColumns where
  id := draws.fanoutId
  createdAt := draws.now
  createdBy := draws.createdBy
  projectId := draws.projectId
  correlationId := some (draws.correlation request)
  description := request.description

/-- The effective retries and timeout of an item under a policy. -/
def FanoutItemFields.limits (item : FanoutItemFields) (policy : Option ResourcePolicy) :
    ℕ × Option ℕ :=
  match policy with
  | none => (item.maxRetries, seconds? item.timeoutSeconds)
  | some policy => (policy.maxRetries.getD 0, policy.timeoutSeconds)

/-- The job of an item. -/
def fanoutJobFields (config : FanoutConfig) (request : FanoutRequestFields) (draws : FanoutDraws)
    (index : ℕ) (item : FanoutItemFields) (policy : Option ResourcePolicy) :
    JobFields Timestamp where
  id := draws.jobId index
  kind := item.kind
  input := item.input
  createdAt := draws.now.utc
  createdBy := draws.createdBy
  correlationId := some (draws.correlation request)
  projectId := draws.projectId
  fanoutId := some draws.fanoutId
  metadata := config.metadata index item policy
  status := .queued
  priority := item.priority
  scheduleId := none
  dueAt := some draws.now.utc
  leaseOwner := none
  leasedUntil := none
  attemptCount := 0
  maxRetries := (item.limits policy).1
  timeoutSeconds := (item.limits policy).2.map Int.ofNat
  lastError := none

/-- The jobs of the items from an index on. -/
def fanoutJobsFields (config : FanoutConfig) (request : FanoutRequestFields) (draws : FanoutDraws) :
    ℕ → List FanoutItemFields → List (Option ResourcePolicy) → List (JobFields Timestamp)
  | index, item :: items, policy :: policies =>
      fanoutJobFields config request draws index item policy
        :: fanoutJobsFields config request draws (index + 1) items policies
  | _, _, _ => []

/-- The policies of the items. All of them are validated. -/
def fanoutItemPolicies (config : FanoutConfig) (request : FanoutRequestFields) :
    Except String (List (Option ResourcePolicy)) :=
  fanoutPolicies config.toQueueConfig (request.items.map FanoutItemFields.item)

/-! ### Programs -/

/-- The record of a job, but for its policy. -/
def JobFields.record (job : JobFields Timestamp) : JobRecord where
  id := job.id
  kind := job.kind
  createdAt := job.createdAt.instant
  projectId := job.projectId
  fanoutId := job.fanoutId
  status := job.status
  priority := job.priority
  scheduleId := job.scheduleId
  dueAt := job.dueAt.map Timestamp.instant
  leaseOwner := job.leaseOwner
  leasedUntil := job.leasedUntil.map Timestamp.instant
  attemptCount := job.attemptCount.toNat
  maxRetries := job.maxRetries.toNat
  timeoutSeconds := job.timeoutSeconds.map Int.toNat
  lastError := job.lastError

/-- Read model for fanout metadata, derived status, child jobs, and runs, with all fields. -/
structure FanoutDetailFields where
  fanout : FanoutColumns
  status : FanoutStatus
  counts : List (String × ℕ)
  jobs : List (JobFields Timestamp)
  runs : List (RunFields Timestamp)

namespace StoreTables

/-- `save_fanout` -/
def saveFanout (row : FanoutColumns) : Program StoreTables Unit :=
  .transact (insertFanout row)

/-- `save_job` -/
def saveJob (job : JobFields Timestamp) : Program StoreTables Unit :=
  .transact (insertJob job)

/-- `get_fanout` -/
def getFanout (fanoutId : Id) : Program StoreTables (Option FanoutColumns) :=
  .statement (fun db => .ok (db.fanouts.find? fanoutId, db))

/-- The rows of the jobs of a fanout. -/
def fanoutJobRows (db : StoreTables) (fanoutId : Id) : List JobColumns :=
  db.jobs.select (fun row => decide (row.fanoutId = some fanoutId))

/-- The rows of the runs of a job. -/
def jobRunRows (db : StoreTables) (jobId : Id) : List RunColumns :=
  db.runs.select (fun row => decide (row.jobId = jobId))

/-- `list_fanout_jobs` -/
def listFanoutJobs (fanoutId : Id) : Program StoreTables (List (JobFields Timestamp)) := do
  let rows ← .statement (fun db => .ok ((db.fanoutJobRows fanoutId).insertionSort
    (fun a b => a.createdAt.micros ≤ b.createdAt.micros), db))
  .lift (rows.mapM rowToJobFields)

/-- `list_job_runs` -/
def listJobRuns (results : ResultSerialisation) (jobId : Id) :
    Program StoreTables (List (RunFields Timestamp)) := do
  let rows ← .statement (fun db => .ok ((db.jobRunRows jobId).insertionSort
    (fun a b => a.attempt ≤ b.attempt), db))
  .lift (rows.mapM (rowToRunFields results))

/-- The runs of jobs, one job after the other. -/
def listAllRuns (results : ResultSerialisation) :
    List (JobFields Timestamp) → Program StoreTables (List (RunFields Timestamp))
  | [] => pure []
  | job :: jobs => do
      let runs ← listJobRuns results job.id
      let rest ← listAllRuns results jobs
      pure (runs ++ rest)

/-- `fanout_detail` -/
def fanoutDetail (results : ResultSerialisation) (fanoutId : Id) :
    Program StoreTables FanoutDetailFields := do
  match ← getFanout fanoutId with
  | none => .raise fanoutId
  | some fanout => do
      let jobs ← listFanoutJobs fanoutId
      let runs ← listAllRuns results jobs
      let records := jobs.map JobFields.record
      pure ⟨fanout, deriveFanoutStatus records, statusCounts records, jobs, runs⟩

/-- What `create_fanout` does behind the transaction of the fanout. -/
def createFanoutJobs (results : ResultSerialisation) (fanoutId : Id)
    (jobs : List (JobFields Timestamp)) : Program StoreTables FanoutDetailFields := do
  jobs.forM saveJob
  fanoutDetail results fanoutId

/-- `create_fanout` -/
def createFanout (results : ResultSerialisation) (config : FanoutConfig)
    (request : FanoutRequestFields) (draws : FanoutDraws) :
    Program StoreTables FanoutDetailFields := do
  let policies ← .lift (fanoutItemPolicies config request)
  saveFanout (fanoutColumns request draws)
  createFanoutJobs results draws.fanoutId
    (fanoutJobsFields config request draws 0 request.items policies)

/-! ### The transactions -/

variable {faults : Faults} {clock clock' : ℕ} {db db' : StoreTables}

/-- A fanout is saved when no fault hits its transaction and its identifier is not taken. -/
theorem saveFanout_ok {row : FanoutColumns} :
  (saveFanout row).run faults clock db = ⟨.ok (), db', clock'⟩ ↔
    faults.Spare clock (clock + 3) ∧ clock' = clock + 3 ∧
      ∃ fanouts, db.fanouts.insert? row = some fanouts ∧ db' = { db with fanouts := fanouts }
  := by
  simp only [saveFanout, insertFanout, Program.run_transact_statement_ok, Except.bind_eq_ok,
    uniqueOr_ok, Except.ok.injEq, Prod.mk.injEq, true_and]
  grind

/-- A job is saved when no fault hits its transaction, its integers fit and its identifier is not
taken. -/
theorem saveJob_ok {job : JobFields Timestamp} :
  (saveJob job).run faults clock db = ⟨.ok (), db', clock'⟩ ↔
    faults.Spare clock (clock + 3) ∧ clock' = clock + 3 ∧
      (∀ value ∈ job.integers, FitsInteger value) ∧
      ∃ jobs, db.jobs.insert? job.columns = some jobs ∧ db' = { db with jobs := jobs }
  := by
  have hrow : ∀ row, jobToRow job = .ok row ↔
      (∀ value ∈ job.integers, FitsInteger value) ∧ row = job.columns :=
    fun _ => bindIntegers_bind_eq_ok
  simp only [saveJob, insertJob, Program.run_transact_statement_ok, Except.bind_eq_ok, hrow,
    uniqueOr_ok, Except.ok.injEq, Prod.mk.injEq, true_and]
  grind

end StoreTables

/-- Jobs can be saved: their integers fit, and their identifiers are new and different. -/
structure JobsFit (db : StoreTables) (jobs : List (JobFields Timestamp)) : Prop where
  integers : ∀ job ∈ jobs, ∀ value ∈ job.integers, FitsInteger value
  fresh : ∀ job ∈ jobs, db.jobs.find? job.id = none
  distinct : (jobs.map JobFields.id).Nodup

/-- Jobs can be saved when the first one can, and the others when it has been. -/
theorem jobsFit_cons {db : StoreTables} {job : JobFields Timestamp}
    {jobs : List (JobFields Timestamp)} {table : Table JobColumns.id}
    (h : db.jobs.insert? job.columns = some table) :
  JobsFit db (job :: jobs) ↔
    (∀ value ∈ job.integers, FitsInteger value) ∧ JobsFit { db with jobs := table } jobs
  := by
  have hfind : ∀ k, table.find? k = if job.id = k then some job.columns else db.jobs.find? k :=
    Table.find?_insert? h
  have hnone : db.jobs.find? job.id = none := Table.find?_of_insert? h
  constructor
  · rintro ⟨hintegers, hfresh, hdistinct⟩
    rw [List.map_cons, List.nodup_cons] at hdistinct
    use hintegers job List.mem_cons_self
    constructor
    · intro other hother
      apply hintegers other (List.mem_cons_of_mem job hother)
    · intro other hother
      have hne : job.id ≠ other.id := by
        intro heq
        apply hdistinct.1
        rw [heq]
        apply List.mem_map_of_mem hother
      dsimp only
      rw [hfind, if_neg hne]
      apply hfresh other (List.mem_cons_of_mem job hother)
    · apply hdistinct.2
  · rintro ⟨hinteger, hintegers, hfresh, hdistinct⟩
    have hothers : ∀ other ∈ jobs, job.id ≠ other.id ∧ db.jobs.find? other.id = none := by
      intro other hother
      have h' := hfresh other hother
      dsimp only at h'
      rw [hfind] at h'
      split at h'
      case isTrue => cases h'
      case isFalse hne => exact ⟨hne, h'⟩
    constructor
    · rw [List.forall_mem_cons]
      exact ⟨hinteger, hintegers⟩
    · rw [List.forall_mem_cons]
      exact ⟨hnone, fun other hother => (hothers other hother).2⟩
    · rw [List.map_cons, List.nodup_cons]
      refine ⟨?_, hdistinct⟩
      intro hmem
      obtain ⟨other, hother, heq⟩ := List.mem_map.mp hmem
      apply (hothers other hother).1 heq.symm

namespace StoreTables

variable {faults : Faults} {clock clock' : ℕ} {db db' : StoreTables}

/-- There is a table with the jobs that can be saved behind those that are stored. -/
theorem exists_table_of_jobsFit {jobs : List (JobFields Timestamp)} (h : JobsFit db jobs) :
  ∃ table : Table JobColumns.id, table.rows = db.jobs.rows ++ jobs.map JobFields.columns
  := by
  refine ⟨⟨db.jobs.rows ++ jobs.map JobFields.columns, ?_⟩, rfl⟩
  rw [List.map_append, List.map_map]
  apply List.Nodup.append db.jobs.nodup h.distinct
  intro id hstored hnew
  obtain ⟨row, hrow, rfl⟩ := List.mem_map.mp hstored
  obtain ⟨job, hjob, heq⟩ := List.mem_map.mp hnew
  apply Table.find?_eq_none.mp (h.fresh job hjob) row hrow heq.symm

/-- The jobs are saved when no fault hits their transactions and they can be saved. -/
theorem saveJobs_ok {jobs : List (JobFields Timestamp)} :
  (jobs.forM saveJob).run faults clock db = ⟨.ok (), db', clock'⟩ ↔
    faults.Spare clock (clock + 3 * jobs.length) ∧ clock' = clock + 3 * jobs.length ∧
      JobsFit db jobs ∧ db' = { db with jobs := db'.jobs } ∧
      db'.jobs.rows = db.jobs.rows ++ jobs.map JobFields.columns
  := by
  induction jobs generalizing clock db with
  | nil =>
      constructor
      · intro h
        cases h
        exact ⟨Program.spare_self faults _, rfl, ⟨by simp, by simp, by simp⟩, rfl, by simp⟩
      · rintro ⟨-, rfl, -, hdb, hrows⟩
        have hjobs : db'.jobs = db.jobs := by
          obtain ⟨⟨rows, nodup⟩⟩ := db'
          obtain ⟨⟨rows', nodup'⟩⟩ := db
          simpa using hrows
        rw [hdb, hjobs]
        rfl
  | cons job jobs ih =>
      change (saveJob job >>= fun _ => jobs.forM saveJob).run faults clock db = _ ↔ _
      have hlength : clock + 3 * (job :: jobs).length = clock + 3 + 3 * jobs.length := by
        rw [List.length_cons]
        omega
      rw [Program.run_bind_ok, hlength,
        Program.spare_iff_and (show clock ≤ clock + 3 by omega) (by omega)]
      constructor
      · rintro ⟨_, db₁, clock₁, hjob, hjobs⟩
        obtain ⟨hspare₁, rfl, hintegers, table, hinsert, rfl⟩ := saveJob_ok.mp hjob
        obtain ⟨hspare, rfl, hfit, hdb, hrows⟩ := ih.mp hjobs
        refine ⟨⟨hspare₁, hspare⟩, rfl, (jobsFit_cons hinsert).mpr ⟨hintegers, hfit⟩, ?_, ?_⟩
        · rw [hdb]
        · rw [hrows, Table.rows_insert? hinsert, List.append_assoc]
          rfl
      · rintro ⟨⟨hspare₁, hspare⟩, rfl, hfit, hdb, hrows⟩
        obtain ⟨table, hinsert⟩ : ∃ table, db.jobs.insert? job.columns = some table :=
          Table.exists_insert? (hfit.fresh job List.mem_cons_self)
        obtain ⟨hintegers, hfit⟩ := (jobsFit_cons hinsert).mp hfit
        use (), { db with jobs := table }, clock + 3
        use saveJob_ok.mpr ⟨hspare₁, rfl, hintegers, table, hinsert, rfl⟩
        apply ih.mpr
        refine ⟨hspare, rfl, hfit, hdb, ?_⟩
        rw [hrows, Table.rows_insert? hinsert, List.append_assoc]
        rfl

end StoreTables

/-! ### Reading back -/

/-- A row of a job is read as a job with its identifier. -/
theorem rowToJobFields_id {row : JobColumns} {job : JobFields Timestamp}
    (h : rowToJobFields row = .ok job) :
  job.id = row.id
  := by
  obtain ⟨_, -, h⟩ := Except.bind_eq_ok.mp h
  obtain ⟨_, -, h⟩ := Except.bind_eq_ok.mp h
  obtain ⟨_, -, h⟩ := Except.bind_eq_ok.mp h
  cases h
  rfl

/-- The jobs of a fanout that are stored can be read, and so can their runs. -/
structure ReadsBack (results : ResultSerialisation) (db : StoreTables) (fanoutId : Id) : Prop where
  jobs : ∀ row ∈ db.fanoutJobRows fanoutId, ∃ job, rowToJobFields row = .ok job
  runs : ∀ row ∈ db.fanoutJobRows fanoutId, ∀ run ∈ db.jobRunRows row.id,
    ∃ fields, rowToRunFields results run = .ok fields

namespace StoreTables

variable {results : ResultSerialisation} {faults : Faults} {clock : ℕ} {db : StoreTables}

/-- The runs of a job are listed when no fault hits the statement and they can be read. -/
theorem listJobRuns_ok {jobId : Id} {runs : List (RunFields Timestamp)} {clock' : ℕ}
    {db' : StoreTables} :
  (listJobRuns results jobId).run faults clock db = ⟨.ok runs, db', clock'⟩ ↔
    faults clock = .none ∧ clock' = clock + 1 ∧ db' = db ∧
      ((db.jobRunRows jobId).insertionSort (fun a b => a.attempt ≤ b.attempt)).mapM
        (rowToRunFields results) = .ok runs
  := by
  rw [listJobRuns, Program.run_bind_ok]
  simp only [Program.run_statement_ok, Program.run_lift_ok, Except.ok.injEq, Prod.mk.injEq]
  grind

/-- The jobs of a fanout are listed when no fault hits the statement and they can be read. -/
theorem listFanoutJobs_ok {fanoutId : Id} {jobs : List (JobFields Timestamp)} {clock' : ℕ}
    {db' : StoreTables} :
  (listFanoutJobs fanoutId).run faults clock db = ⟨.ok jobs, db', clock'⟩ ↔
    faults clock = .none ∧ clock' = clock + 1 ∧ db' = db ∧
      ((db.fanoutJobRows fanoutId).insertionSort
        (fun a b => a.createdAt.micros ≤ b.createdAt.micros)).mapM rowToJobFields = .ok jobs
  := by
  rw [listFanoutJobs, Program.run_bind_ok]
  simp only [Program.run_statement_ok, Program.run_lift_ok, Except.ok.injEq, Prod.mk.injEq]
  grind

/-- The runs of jobs are listed when no fault hits a statement and they can be read. -/
theorem exists_listAllRuns_ok {jobs : List (JobFields Timestamp)} :
  (∃ runs db' clock',
      (listAllRuns results jobs).run faults clock db = ⟨.ok runs, db', clock'⟩) ↔
    faults.Spare clock (clock + jobs.length) ∧
      ∀ job ∈ jobs, ∀ run ∈ db.jobRunRows job.id, ∃ fields, rowToRunFields results run = .ok fields
  := by
  induction jobs generalizing clock with
  | nil =>
      simp only [listAllRuns, Program.run_pure, List.length_nil, Nat.add_zero, List.not_mem_nil,
        false_implies, implies_true, and_true]
      constructor
      · intro _
        apply Program.spare_self
      · intro _
        exact ⟨_, _, _, rfl⟩
  | cons job jobs ih =>
      have hlength : clock + (job :: jobs).length = clock + 1 + jobs.length := by
        rw [List.length_cons]
        omega
      have hsort : ∀ run, run ∈ (db.jobRunRows job.id).insertionSort
          (fun a b => a.attempt ≤ b.attempt) ↔ run ∈ db.jobRunRows job.id :=
        fun run => (List.perm_insertionSort _ _).mem_iff
      rw [hlength, Program.spare_iff_succ (by omega), List.forall_mem_cons]
      constructor
      · rintro ⟨runs, db', clock', h⟩
        obtain ⟨own, db₁, clock₁, hown, h⟩ := Program.run_bind_ok.mp h
        obtain ⟨rest, db₂, clock₂, hrest, -⟩ := Program.run_bind_ok.mp h
        obtain ⟨hfault, rfl, rfl, hmap⟩ := listJobRuns_ok.mp hown
        obtain ⟨hspare, hruns⟩ := ih.mp ⟨rest, db₂, clock₂, hrest⟩
        refine ⟨⟨hfault, hspare⟩, ?_, hruns⟩
        intro run hrun
        apply Except.exists_mapM_eq_ok.mp ⟨own, hmap⟩ run ((hsort run).mpr hrun)
      · rintro ⟨⟨hfault, hspare⟩, hown, hruns⟩
        obtain ⟨own, hmap⟩ := Except.exists_mapM_eq_ok.mpr
          (fun run hrun => hown run ((hsort run).mp hrun))
        obtain ⟨rest, db', clock', hrest⟩ := ih.mpr ⟨hspare, hruns⟩
        use own ++ rest, db', clock'
        apply Program.run_bind_ok.mpr
        use own, db, clock + 1, listJobRuns_ok.mpr ⟨hfault, rfl, rfl, hmap⟩
        apply Program.run_bind_ok.mpr
        use rest, db', clock', hrest
        rfl

/-- The jobs that are read have the identifiers of the rows. -/
theorem map_id_of_mapM {rows : List JobColumns} {jobs : List (JobFields Timestamp)}
    (h : rows.mapM rowToJobFields = .ok jobs) :
  jobs.map JobFields.id = rows.map JobColumns.id
  := by
  induction Except.mapM_eq_ok.mp h with
  | nil => rfl
  | cons hrow hrows ih =>
      rw [List.map_cons, List.map_cons, rowToJobFields_id hrow, ih (Except.mapM_eq_ok.mpr hrows)]

/-- What holds of the identifiers of the jobs that are listed holds of those of the rows. -/
theorem forall_listed_iff {fanoutId : Id} {jobs : List (JobFields Timestamp)} (P : Id → Prop)
    (h : ((db.fanoutJobRows fanoutId).insertionSort
      (fun a b => a.createdAt.micros ≤ b.createdAt.micros)).mapM rowToJobFields = .ok jobs) :
  (∀ job ∈ jobs, P job.id) ↔ ∀ row ∈ db.fanoutJobRows fanoutId, P row.id
  := by
  have hids : ∀ id, id ∈ jobs.map JobFields.id ↔
      id ∈ (db.fanoutJobRows fanoutId).map JobColumns.id := by
    intro id
    rw [map_id_of_mapM h]
    apply ((List.perm_insertionSort _ _).map JobColumns.id).mem_iff
  rw [← List.forall_mem_map (f := JobFields.id) (P := P),
    ← List.forall_mem_map (f := JobColumns.id) (P := P)]
  simp only [hids]

/-- The detail of a fanout that is stored is returned when no fault hits a statement and the jobs
and their runs can be read. -/
theorem exists_fanoutDetail_ok {fanoutId : Id} {row : FanoutColumns}
    (h : db.fanouts.find? fanoutId = some row) :
  (∃ detail db' clock',
      (fanoutDetail results fanoutId).run faults clock db = ⟨.ok detail, db', clock'⟩) ↔
    faults.Spare clock (clock + 2 + (db.fanoutJobRows fanoutId).length) ∧
      ReadsBack results db fanoutId
  := by
  have hlength : ∀ jobs, ((db.fanoutJobRows fanoutId).insertionSort
      (fun a b => a.createdAt.micros ≤ b.createdAt.micros)).mapM rowToJobFields = .ok jobs →
      jobs.length = (db.fanoutJobRows fanoutId).length := by
    intro jobs hjobs
    rw [← (Except.mapM_eq_ok.mp hjobs).length_eq, List.length_insertionSort]
  have hsort : ∀ job, job ∈ (db.fanoutJobRows fanoutId).insertionSort
      (fun a b => a.createdAt.micros ≤ b.createdAt.micros) ↔ job ∈ db.fanoutJobRows fanoutId :=
    fun job => (List.perm_insertionSort _ _).mem_iff
  have hlisted : ∀ jobs, ((db.fanoutJobRows fanoutId).insertionSort
      (fun a b => a.createdAt.micros ≤ b.createdAt.micros)).mapM rowToJobFields = .ok jobs →
      ((∀ job ∈ jobs, ∀ run ∈ db.jobRunRows job.id,
          ∃ fields, rowToRunFields results run = .ok fields) ↔
        ∀ row ∈ db.fanoutJobRows fanoutId, ∀ run ∈ db.jobRunRows row.id,
          ∃ fields, rowToRunFields results run = .ok fields) :=
    fun _ => forall_listed_iff (fun id => ∀ run ∈ db.jobRunRows id,
      ∃ fields, rowToRunFields results run = .ok fields)
  rw [Program.spare_iff_succ (by omega), Program.spare_iff_succ (by omega)]
  constructor
  · rintro ⟨detail, db', clock', hdetail⟩
    obtain ⟨fanout, db₁, clock₁, hget, hrest⟩ := Program.run_bind_ok.mp hdetail
    obtain ⟨hfault, hfind, rfl⟩ := Program.run_statement_ok.mp hget
    cases hfind
    rw [h] at hrest
    obtain ⟨jobs, db₂, clock₂, hlist, hrest'⟩ := Program.run_bind_ok.mp hrest
    obtain ⟨hfault', rfl, rfl, hmap⟩ := listFanoutJobs_ok.mp hlist
    obtain ⟨runs, db₃, clock₃, hruns, -⟩ := Program.run_bind_ok.mp hrest'
    obtain ⟨hspare, hruns⟩ := exists_listAllRuns_ok.mp ⟨runs, db₃, clock₃, hruns⟩
    rw [hlength jobs hmap] at hspare
    refine ⟨⟨hfault, hfault', hspare⟩, ?_, ?_⟩
    · intro job hjob
      apply Except.exists_mapM_eq_ok.mp ⟨jobs, hmap⟩ job ((hsort job).mpr hjob)
    · apply (hlisted jobs hmap).mp hruns
  · rintro ⟨⟨hfault, hfault', hspare⟩, hjobs, hruns⟩
    obtain ⟨jobs, hmap⟩ := Except.exists_mapM_eq_ok.mpr
      (fun job hjob => hjobs job ((hsort job).mp hjob))
    rw [← hlength jobs hmap] at hspare
    obtain ⟨runs, db', clock', hlist⟩ := exists_listAllRuns_ok.mpr
      ⟨hspare, (hlisted jobs hmap).mpr hruns⟩
    use ⟨row, deriveFanoutStatus (jobs.map JobFields.record),
      statusCounts (jobs.map JobFields.record), jobs, runs⟩, db', clock'
    apply Program.run_bind_ok.mpr
    use some row, db, clock + 1
    use Program.run_statement_ok.mpr ⟨hfault, by rw [h], rfl⟩
    apply Program.run_bind_ok.mpr
    use jobs, db, clock + 1 + 1, listFanoutJobs_ok.mpr ⟨hfault', rfl, rfl, hmap⟩
    apply Program.run_bind_ok.mpr
    use runs, db', clock', hlist
    rfl

end StoreTables

/-! ### The batch -/

/-- A row holds the queued job of an item, with its effective limits. -/
structure IsJobOf (config : FanoutConfig) (draws : FanoutDraws) (item : FanoutItemFields)
    (row : JobColumns) : Prop where
  kind : row.kind = item.kind
  input : row.inputJson = item.input.text
  priority : row.priority = item.priority
  status : row.status = "queued"
  fanoutId : row.fanoutId = some draws.fanoutId
  limits : ∃ policy, effectivePolicy config.toQueueConfig item.kind (seconds? item.timeoutSeconds)
      item.maxRetries = .ok policy ∧ row.maxRetries = (item.limits policy).1 ∧
    row.timeoutSeconds = (item.limits policy).2.map Int.ofNat

/-- A batch is created: its fanout and one job for each item are stored, and nothing else is. -/
structure CreatesBatch (config : FanoutConfig) (request : FanoutRequestFields)
    (draws : FanoutDraws) (db db' : StoreTables) : Prop where
  fanout : db'.fanouts.rows = db.fanouts.rows ++ [fanoutColumns request draws]
  jobs : ∃ rows, db'.jobs.rows = db.jobs.rows ++ rows ∧
    List.Forall₂ (IsJobOf config draws) request.items rows
  rest : (db'.runs, db'.artifacts, db'.handoffs) = (db.runs, db.artifacts, db.handoffs)

/-- Items that are valid have effective policies. -/
theorem forall₂_of_fanoutItemPolicies {config : FanoutConfig} {request : FanoutRequestFields}
    {policies : List (Option ResourcePolicy)}
    (h : fanoutItemPolicies config request = .ok policies) :
  List.Forall₂ (fun item policy => effectivePolicy config.toQueueConfig item.kind
    (seconds? item.timeoutSeconds) item.maxRetries = .ok policy) request.items policies
  := by
  obtain ⟨_, -, h⟩ := Except.bind_eq_ok.mp h
  rw [Except.mapM_eq_ok, List.forall₂_map_left_iff] at h
  apply h

/-- There is one job for each item, with the effective limits of the item. -/
theorem isJobOf_fanoutJobsFields (config : FanoutConfig) (request : FanoutRequestFields)
    (draws : FanoutDraws) {items : List FanoutItemFields} {policies : List (Option ResourcePolicy)}
    (h : List.Forall₂ (fun item policy => effectivePolicy config.toQueueConfig item.kind
      (seconds? item.timeoutSeconds) item.maxRetries = .ok policy) items policies) (index : ℕ) :
  List.Forall₂ (IsJobOf config draws) items
    ((fanoutJobsFields config request draws index items policies).map JobFields.columns)
  := by
  induction h generalizing index with
  | nil => exact .nil
  | cons hpolicy _ ih =>
      apply List.Forall₂.cons _ (ih (index + 1))
      exact ⟨rfl, rfl, rfl, rfl, rfl, _, hpolicy, rfl, rfl⟩

/-- The jobs of a batch belong to its fanout. -/
theorem fanoutId_of_mem {config : FanoutConfig} {request : FanoutRequestFields}
    {draws : FanoutDraws} {items : List FanoutItemFields} {policies : List (Option ResourcePolicy)}
    {index : ℕ} {job : JobFields Timestamp}
    (h : job ∈ fanoutJobsFields config request draws index items policies) :
  job.fanoutId = some draws.fanoutId
  := by
  fun_induction fanoutJobsFields config request draws index items policies with
  | case1 index item items policy policies ih =>
      rcases List.mem_cons.mp h with rfl | h
      · rfl
      · apply ih h
  | case2 => cases h

/-- The jobs of a batch can be saved, and the batch can be read back. -/
structure BatchFits (results : ResultSerialisation) (db : StoreTables) (fanoutId : Id)
    (jobs : List (JobFields Timestamp)) : Prop where
  saved : JobsFit db jobs
  stored : ReadsBack results db fanoutId
  runs : ∀ job ∈ jobs, ∀ run ∈ db.jobRunRows job.id,
    ∃ fields, rowToRunFields results run = .ok fields

/-- The number of ticks of `create_fanout` behind the transaction of the fanout. -/
def StoreTables.batchTicks (db : StoreTables) (fanoutId : Id) (jobs : List (JobFields Timestamp)) :
    ℕ :=
  3 * jobs.length + 2 + ((db.fanoutJobRows fanoutId).length + jobs.length)

namespace StoreTables

variable {results : ResultSerialisation} {faults : Faults} {clock : ℕ} {db : StoreTables}

/-- What is read back of a batch: the jobs that were stored under its identifier, and its own. -/
theorem readsBack_append (results : ResultSerialisation) (db' : StoreTables) {fanoutId : Id}
    {jobs : List (JobFields Timestamp)} (hjobs : ∀ job ∈ jobs, job.fanoutId = some fanoutId)
    (hrows : db'.jobs.rows = db.jobs.rows ++ jobs.map JobFields.columns)
    (hruns : db'.runs = db.runs) :
  (db'.fanoutJobRows fanoutId).length = (db.fanoutJobRows fanoutId).length + jobs.length ∧
    (ReadsBack results db' fanoutId ↔ ReadsBack results db fanoutId ∧
      ∀ job ∈ jobs, ∀ run ∈ db.jobRunRows job.id,
        ∃ fields, rowToRunFields results run = .ok fields)
  := by
  have hfilter : db'.fanoutJobRows fanoutId
      = db.fanoutJobRows fanoutId ++ jobs.map JobFields.columns := by
    rw [fanoutJobRows, fanoutJobRows, Table.select, Table.select, hrows, List.filter_append]
    congr 1
    rw [List.filter_eq_self]
    intro row hrow
    obtain ⟨job, hjob, rfl⟩ := List.mem_map.mp hrow
    apply decide_eq_true (hjobs job hjob)
  have hruns' : db'.jobRunRows = db.jobRunRows := by
    funext id
    rw [jobRunRows, jobRunRows, hruns]
  constructor
  · rw [hfilter, List.length_append, List.length_map]
  · constructor
    · rintro ⟨hread, hread'⟩
      rw [hfilter] at hread hread'
      rw [hruns'] at hread'
      refine ⟨⟨?_, ?_⟩, ?_⟩
      · intro row hrow
        apply hread row (List.mem_append_left _ hrow)
      · intro row hrow
        apply hread' row (List.mem_append_left _ hrow)
      · intro job hjob
        apply hread' job.columns (List.mem_append_right _ (List.mem_map_of_mem hjob))
    · rintro ⟨⟨hread, hread'⟩, hown⟩
      constructor
      · rw [hfilter, List.forall_mem_append, List.forall_mem_map]
        use hread
        intro job _
        exact ⟨_, rowToJobFields_columns job⟩
      · rw [hfilter, hruns', List.forall_mem_append, List.forall_mem_map]
        exact ⟨hread', hown⟩

/-- What is done behind the transaction of the fanout returns when no fault hits it and the batch
fits. -/
theorem exists_createFanoutJobs_ok {fanoutId : Id} {row : FanoutColumns}
    {jobs : List (JobFields Timestamp)} (hfanout : db.fanouts.find? fanoutId = some row)
    (hjobs : ∀ job ∈ jobs, job.fanoutId = some fanoutId) :
  (∃ detail db' clock', (createFanoutJobs results fanoutId jobs).run faults clock db
      = ⟨.ok detail, db', clock'⟩) ↔
    faults.Spare clock (clock + db.batchTicks fanoutId jobs) ∧ BatchFits results db fanoutId jobs
  := by
  rw [batchTicks, ← Nat.add_assoc clock, ← Nat.add_assoc clock,
    Program.spare_iff_and (show clock ≤ clock + 3 * jobs.length by omega) (by omega)]
  constructor
  · rintro ⟨detail, db', clock', h⟩
    obtain ⟨_, db₁, clock₁, hsave, hdetail⟩ := Program.run_bind_ok.mp h
    obtain ⟨hspare, rfl, hfit, hdb₁, hrows⟩ := saveJobs_ok.mp hsave
    have hfanout₁ : db₁.fanouts.find? fanoutId = some row := by rw [hdb₁, hfanout]
    have hruns : db₁.runs = db.runs := by rw [hdb₁]
    obtain ⟨hlength, hreads⟩ := readsBack_append results db₁ hjobs hrows hruns
    obtain ⟨hspare', hreads'⟩ := (exists_fanoutDetail_ok hfanout₁).mp ⟨detail, db', clock', hdetail⟩
    rw [hlength] at hspare'
    obtain ⟨hstored, hown⟩ := hreads.mp hreads'
    exact ⟨⟨hspare, hspare'⟩, hfit, hstored, hown⟩
  · rintro ⟨⟨hspare, hspare'⟩, hfit, hstored, hown⟩
    obtain ⟨table, hrows⟩ := exists_table_of_jobsFit hfit
    obtain ⟨hlength, hreads⟩ := readsBack_append results { db with jobs := table } hjobs hrows rfl
    rw [← hlength] at hspare'
    have hfanout₁ : ({ db with jobs := table } : StoreTables).fanouts.find? fanoutId = some row :=
      hfanout
    obtain ⟨detail, db', clock', hdetail⟩ :=
      (exists_fanoutDetail_ok hfanout₁).mpr ⟨hspare', hreads.mpr ⟨hstored, hown⟩⟩
    use detail, db', clock'
    apply Program.run_bind_ok.mpr
    use (), { db with jobs := table }, clock + 3 * jobs.length
    exact ⟨saveJobs_ok.mpr ⟨hspare, rfl, hfit, rfl, hrows⟩, hdetail⟩

/-- Nothing is changed by reading the detail of a fanout. -/
theorem keeps_fanoutDetail (results : ResultSerialisation) {τ : Type} (view : StoreTables → τ)
    (fanoutId : Id) :
  (fanoutDetail results fanoutId).Keeps view
  := by
  have hruns : ∀ jobs, (listAllRuns results jobs).Keeps view := by
    intro jobs
    induction jobs with
    | nil => apply Program.Keeps.pure
    | cons job jobs ih =>
        apply Program.Keeps.bind
        · apply Program.Keeps.bind (Program.Keeps.read _) (fun _ => Program.Keeps.lift _)
        · intro _
          apply Program.Keeps.bind ih (fun _ => Program.Keeps.pure _)
  apply Program.Keeps.bind (Program.Keeps.read _)
  intro fanout
  cases fanout with
  | none => trivial
  | some fanout =>
      apply Program.Keeps.bind
      · apply Program.Keeps.bind (Program.Keeps.read _) (fun _ => Program.Keeps.lift _)
      · intro jobs
        apply Program.Keeps.bind (hruns jobs) (fun _ => Program.Keeps.pure _)

/-- What is done behind the transaction of the fanout leaves the fanouts. -/
theorem keeps_createFanoutJobs (results : ResultSerialisation) (fanoutId : Id)
    (jobs : List (JobFields Timestamp)) :
  (createFanoutJobs results fanoutId jobs).Keeps fanouts
  := by
  apply Program.Keeps.bind
  · apply Program.Keeps.forM
    intro job _
    refine ⟨⟨?_, fun _ => trivial⟩, fun _ => trivial⟩
    intro s b s' hs
    obtain ⟨row, -, hs⟩ := Except.bind_eq_ok.mp hs
    obtain ⟨table, -, hs⟩ := Except.bind_eq_ok.mp hs
    cases hs
    rfl
  · intro _
    apply keeps_fanoutDetail

end StoreTables

/-! ### All or nothing -/

/-- The items of a request are valid, no fault hits the transaction of its fanout, and the
identifier of the fanout is not taken. -/
structure FanoutCommits (config : FanoutConfig) (request : FanoutRequestFields)
    (draws : FanoutDraws) (faults : Faults) (clock : ℕ) (db : StoreTables)
    (policies : List (Option ResourcePolicy)) : Prop where
  valid : fanoutItemPolicies config request = .ok policies
  spared : faults.Spare clock (clock + 3)
  fresh : db.fanouts.find? draws.fanoutId = none

/-- No fault hits what is done behind the transaction of the fanout, the jobs can be saved, and the
batch can be read back. -/
structure BatchGoesThrough (results : ResultSerialisation) (faults : Faults) (clock : ℕ)
    (db : StoreTables) (fanoutId : Id) (jobs : List (JobFields Timestamp)) : Prop where
  spared : faults.Spare clock (clock + db.batchTicks fanoutId jobs)
  fits : BatchFits results db fanoutId jobs

/-- A request either fails before its fanout is committed and changes nothing, or it commits its
fanout. -/
theorem createFanout_cases (results : ResultSerialisation) (config : FanoutConfig)
    (request : FanoutRequestFields) (draws : FanoutDraws) (faults : Faults) (clock : ℕ)
    (db : StoreTables) :
  (∃ error clock', (StoreTables.createFanout results config request draws).run faults clock db
      = ⟨.error error, db, clock'⟩ ∧
      ∀ policies, ¬ FanoutCommits config request draws faults clock db policies) ∨
    ∃ policies fanouts, FanoutCommits config request draws faults clock db policies ∧
      db.fanouts.insert? (fanoutColumns request draws) = some fanouts ∧
      (StoreTables.createFanout results config request draws).run faults clock db =
        (StoreTables.createFanoutJobs results draws.fanoutId
          (fanoutJobsFields config request draws 0 request.items policies)).run faults (clock + 3)
          { db with fanouts := fanouts }
  := by
  rw [StoreTables.createFanout, Program.run_bind]
  cases hvalid : fanoutItemPolicies config request with
  | error error =>
      left
      use error, clock, rfl
      rintro policies ⟨hvalid', -, -⟩
      rw [hvalid] at hvalid'
      cases hvalid'
  | ok policies =>
      simp only [Program.lift, Program.run]
      rw [Program.run_bind]
      cases hsave : (StoreTables.saveFanout (fanoutColumns request draws)).run faults clock db with
      | mk outcome db₁ clock₁ =>
          cases outcome with
          | ok _ =>
              right
              obtain ⟨hspare, rfl, fanouts, hinsert, rfl⟩ := StoreTables.saveFanout_ok.mp hsave
              exact ⟨policies, fanouts, ⟨hvalid, hspare, Table.find?_of_insert? hinsert⟩, hinsert,
                rfl⟩
          | error error =>
              left
              obtain rfl := Program.run_transact_error hsave
              use error, clock₁, rfl
              rintro policies' ⟨-, hspare, hfresh⟩
              obtain ⟨fanouts, hinsert⟩ := Table.exists_insert? (r := fanoutColumns request draws)
                hfresh
              rw [StoreTables.saveFanout_ok.mpr ⟨hspare, rfl, fanouts, hinsert, rfl⟩] at hsave
              cases hsave

/-- What can be saved and read back does not depend on the fanouts. -/
theorem batchFits_fanouts {results : ResultSerialisation} {db : StoreTables}
    {fanouts : Table FanoutColumns.id} {fanoutId : Id} {jobs : List (JobFields Timestamp)} :
  BatchFits results { db with fanouts := fanouts } fanoutId jobs ↔
    BatchFits results db fanoutId jobs
  := by
  constructor
  · rintro ⟨⟨hintegers, hfresh, hdistinct⟩, ⟨hjobs, hstored⟩, hruns⟩
    exact ⟨⟨hintegers, hfresh, hdistinct⟩, ⟨hjobs, hstored⟩, hruns⟩
  · rintro ⟨⟨hintegers, hfresh, hdistinct⟩, ⟨hjobs, hstored⟩, hruns⟩
    exact ⟨⟨hintegers, hfresh, hdistinct⟩, ⟨hjobs, hstored⟩, hruns⟩

/-- A request that returns has created its batch. -/
theorem createsBatch_of_run {results : ResultSerialisation} {config : FanoutConfig}
    {request : FanoutRequestFields} {draws : FanoutDraws} {faults : Faults} {clock clock' : ℕ}
    {db db' : StoreTables} {policies : List (Option ResourcePolicy)}
    {fanouts : Table FanoutColumns.id} {detail : FanoutDetailFields}
    (hvalid : fanoutItemPolicies config request = .ok policies)
    (hinsert : db.fanouts.insert? (fanoutColumns request draws) = some fanouts)
    (h : (StoreTables.createFanoutJobs results draws.fanoutId
      (fanoutJobsFields config request draws 0 request.items policies)).run faults clock
        { db with fanouts := fanouts } = ⟨.ok detail, db', clock'⟩) :
  CreatesBatch config request draws db db'
  := by
  obtain ⟨_, db₁, clock₁, hsave, hdetail⟩ := Program.run_bind_ok.mp h
  obtain ⟨-, -, -, hdb₁, hrows⟩ := StoreTables.saveJobs_ok.mp hsave
  have hdb' : db' = db₁ := by
    have hkeeps := Program.run_keeps
      (StoreTables.keeps_fanoutDetail results (fun s => s) draws.fanoutId) faults clock₁ db₁
    rw [hdetail] at hkeeps
    apply hkeeps
  subst hdb'
  constructor
  · rw [hdb₁]
    apply Table.rows_insert? hinsert
  · use (fanoutJobsFields config request draws 0 request.items policies).map JobFields.columns
    use hrows
    apply isJobOf_fanoutJobsFields
    apply forall₂_of_fanoutItemPolicies hvalid
  · rw [hdb₁]

/-- What is done behind the transaction of the fanout returns exactly when the batch goes through. -/
theorem returns_iff_goesThrough {results : ResultSerialisation} {config : FanoutConfig}
    {request : FanoutRequestFields} {draws : FanoutDraws} {faults : Faults} {clock : ℕ}
    {db : StoreTables} {policies : List (Option ResourcePolicy)} {fanouts : Table FanoutColumns.id}
    (hinsert : db.fanouts.insert? (fanoutColumns request draws) = some fanouts) :
  (∃ detail db' clock', (StoreTables.createFanoutJobs results draws.fanoutId
      (fanoutJobsFields config request draws 0 request.items policies)).run faults clock
        { db with fanouts := fanouts } = ⟨.ok detail, db', clock'⟩) ↔
    BatchGoesThrough results faults clock db draws.fanoutId
      (fanoutJobsFields config request draws 0 request.items policies)
  := by
  have hfind : ({ db with fanouts := fanouts } : StoreTables).fanouts.find? draws.fanoutId
      = some (fanoutColumns request draws) :=
    (Table.find?_insert? hinsert draws.fanoutId).trans (if_pos rfl)
  rw [StoreTables.exists_createFanoutJobs_ok hfind (fun job hjob => fanoutId_of_mem hjob),
    batchFits_fanouts]
  constructor
  · rintro ⟨hspare, hfits⟩
    exact ⟨hspare, hfits⟩
  · rintro ⟨hspare, hfits⟩
    exact ⟨hspare, hfits⟩

/-- A batch is created as a whole or not at all exactly when nothing fails behind the transaction of
its fanout. -/
theorem createFanout_allOrNothing_iff (results : ResultSerialisation) (config : FanoutConfig)
    (request : FanoutRequestFields) (draws : FanoutDraws) (faults : Faults) (clock : ℕ)
    (db : StoreTables) :
  ((StoreTables.createFanout results config request draws).run faults clock db).AllOrNothing db
      (fun _ db' => CreatesBatch config request draws db db') ↔
    ∀ policies, FanoutCommits config request draws faults clock db policies →
      BatchGoesThrough results faults (clock + 3) db draws.fanoutId
        (fanoutJobsFields config request draws 0 request.items policies)
  := by
  rcases createFanout_cases results config request draws faults clock db with
    ⟨error, clock', hrun, hfails⟩ | ⟨policies, fanouts, hcommits, hinsert, hrun⟩
  · rw [hrun]
    apply iff_of_true
    · rfl
    · intro policies hcommits
      exact absurd hcommits (hfails policies)
  · rw [hrun]
    cases hrest : (StoreTables.createFanoutJobs results draws.fanoutId
      (fanoutJobsFields config request draws 0 request.items policies)).run faults (clock + 3)
        { db with fanouts := fanouts } with
    | mk outcome db' clock' =>
        cases outcome with
        | ok detail =>
            apply iff_of_true
            · apply createsBatch_of_run hcommits.valid hinsert hrest
            · rintro policies' ⟨hvalid, -, -⟩
              rw [hcommits.valid] at hvalid
              cases hvalid
              apply (returns_iff_goesThrough hinsert).mp ⟨detail, db', clock', hrest⟩
        | error error =>
            -- the fanout is in the store, whatever failed
            have hkeeps := Program.run_keeps (StoreTables.keeps_createFanoutJobs results
              draws.fanoutId (fanoutJobsFields config request draws 0 request.items policies))
              faults (clock + 3) { db with fanouts := fanouts }
            rw [hrest] at hkeeps
            apply iff_of_false
            · rintro rfl
              have hrows := Table.rows_insert? hinsert
              dsimp only at hkeeps
              rw [← hkeeps] at hrows
              simpa using congrArg List.length hrows
            · intro h
              obtain ⟨detail, db'', clock'', hok⟩ :=
                (returns_iff_goesThrough hinsert).mpr (h policies hcommits)
              rw [hrest] at hok
              cases hok

/-- An item with a priority. -/
def itemOfPriority (priority : ℤ) : FanoutItemFields where
  kind := "report"
  input := .empty
  priority := priority
  maxRetries := 0
  timeoutSeconds := none

/-- Settings without policies, and without metadata. -/
def unlimitedConfig : FanoutConfig where
  api := cappedConfig.api
  kinds := ["report"]
  policies := none
  floats := noFloats
  compact := fun _ => ""
  metadata := fun _ _ _ => .empty

/-- A batch of two items, the second with a priority that has more than 64 bits. -/
def oversizedRequest : FanoutRequestFields where
  description := none
  correlationId := none
  items := [itemOfPriority 100, itemOfPriority 9223372036854775808]
  nonempty := by simp

/-- The identifiers of a batch of two. -/
def drawsOfTwo : FanoutDraws where
  createdBy := "api"
  projectId := none
  now := startOfEpoch.wall
  fanoutId := "fanout-1"
  correlationId := "correlation-1"
  jobId := fun index => if index = 0 then "job-1" else "job-2"

/-- The second job of a batch cannot be stored. The fanout and the first job stay. -/
theorem oversizedItem_leaves_fanout :
  ¬ ((StoreTables.createFanout emptySerialisation unlimitedConfig oversizedRequest drawsOfTwo).run
    Faults.none 0 .empty).AllOrNothing .empty
      (fun _ db' => CreatesBatch unlimitedConfig oversizedRequest drawsOfTwo .empty db')
  := by
  intro h
  have hfails : ((StoreTables.createFanout emptySerialisation unlimitedConfig oversizedRequest
      drawsOfTwo).run Faults.none 0 .empty).outcome.isOk = false := by
    decide +kernel
  obtain ⟨error, herror⟩ := Except.isOk_eq_false.mp hfails
  rw [Program.Report.AllOrNothing, herror] at h
  have hlength : ((StoreTables.createFanout emptySerialisation unlimitedConfig oversizedRequest
      drawsOfTwo).run Faults.none 0 .empty).state.fanouts.rows.length = 1 := by
    decide +kernel
  rw [h] at hlength
  cases hlength

end GoblinKing
