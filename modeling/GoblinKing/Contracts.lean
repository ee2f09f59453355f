import GoblinKing.Library.Table
import Mathlib.Data.PNat.Defs

/-!
# Contracts

The records shared by the store, the scheduler and the API. A record has the columns that
the functions of this development read or write. Timestamps are UTC instants, counted in
microseconds. Identifiers drawn by `uuid4` are strings that are only ever compared.
-/

namespace GoblinKing

/-- An identifier: a `uuid4` string, or the name of a project. -/
abbrev Id := String

/-- The identity of a scheduler process, `worker_id` in the source. -/
abbrev WorkerId := String

/-- A UTC instant, in microseconds. -/
abbrev Instant := ℤ

/-- The status of a job. -/
inductive JobStatus where
  | queued
  | leased
  | running
  | completed
  | failed
  | retrying
  | timedOut
  | cancelled
  deriving DecidableEq, Repr

/-- The status of a run. -/
inductive RunStatus where
  | running
  | completed
  | failed
  | timedOut
  deriving DecidableEq, Repr

/-- The status a job takes over from a run. The source uses one string for both. -/
def RunStatus.toJobStatus : RunStatus → JobStatus
  | .running => .running
  | .completed => .completed
  | .failed => .failed
  | .timedOut => .timedOut

/-- The text of a run status, as it stands in the database and in error messages. -/
def RunStatus.text : RunStatus → String
  | .running => "running"
  | .completed => "completed"
  | .failed => "failed"
  | .timedOut => "timed_out"

/-- The text of a job status, as it stands in the database and in error messages. -/
def JobStatus.text : JobStatus → String
  | .queued => "queued"
  | .leased => "leased"
  | .running => "running"
  | .completed => "completed"
  | .failed => "failed"
  | .retrying => "retrying"
  | .timedOut => "timed_out"
  | .cancelled => "cancelled"

/-- `TERMINAL_JOB_STATUSES` -/
def JobStatus.isTerminal : JobStatus → Bool
  | .completed | .failed | .timedOut | .cancelled => true
  | .queued | .leased | .running | .retrying => false

/-- The statuses `leased` and `running`, in which a job occupies a scheduler. -/
def JobStatus.isActive : JobStatus → Bool
  | .leased | .running => true
  | .queued | .completed | .failed | .retrying | .timedOut | .cancelled => false

/-- `TERMINAL_RUN_STATUSES` -/
def RunStatus.isTerminal : RunStatus → Bool
  | .completed | .failed | .timedOut => true
  | .running => false

/-- The status of a result envelope. -/
inductive ResultStatus where
  | success
  | failed
  deriving DecidableEq, Repr

/-- The result envelope of an execution: its status and its error. -/
structure GoblinResult where
  status : ResultStatus
  error : Option String := none
  deriving DecidableEq, Repr

/-- `GoblinResult.failed` -/
def GoblinResult.failure (error : String) : GoblinResult :=
  ⟨.failed, some error⟩

/-- A submitted or scheduler-created job. The field `resourcePolicy` is the JSON text the
metadata of the job holds under `resource_policy`, `none` when there is none. -/
structure JobRecord where
  id : Id
  kind : String
  createdAt : Instant
  projectId : Option Id := none
  fanoutId : Option Id := none
  resourcePolicy : Option String := none
  status : JobStatus := .queued
  priority : ℤ := 100
  scheduleId : Option Id := none
  dueAt : Option Instant := none
  leaseOwner : Option WorkerId := none
  leasedUntil : Option Instant := none
  attemptCount : ℕ := 0
  maxRetries : ℕ := 0
  timeoutSeconds : Option ℕ := none
  lastError : Option String := none
  deriving DecidableEq, Repr

/-- One execution attempt of a job. -/
structure RunRecord where
  id : Id
  jobId : Id
  kind : String
  projectId : Option Id := none
  attempt : ℕ := 1
  status : RunStatus
  startedAt : Instant
  finishedAt : Option Instant := none
  result : Option GoblinResult := none
  error : Option String := none
  deriving DecidableEq, Repr

/-- A batch of jobs that were created together. -/
structure FanoutRecord where
  id : Id
  createdAt : Instant
  projectId : Option Id := none
  deriving DecidableEq, Repr

/-- `LongServiceStatus` -/
inductive LongServiceStatus where
  | registered
  | running
  | failed
  | stopped
  deriving DecidableEq

/-- A registered long-running service with its latest probe. The field `statusCode` is the
status code in the proof of the probe, `none` when the proof has none. -/
structure LongServiceRecord where
  id : Id
  createdAt : Instant
  projectId : Option Id := none
  status : LongServiceStatus := .registered
  lastProbeAt : Option Instant := none
  statusCode : Option ℕ := none
  deriving DecidableEq

/-- A JSON object, by its serialisation. -/
structure JsonObject where
  text : String
  deriving DecidableEq, Repr

/-- A recurring cron schedule that materializes queued jobs. -/
structure ScheduleRecord where
  id : Id
  kind : String
  projectId : Option Id := none
  input : JsonObject
  cron : String
  timezone : String := "UTC"
  enabled : Bool := true
  priority : ℤ := 100
  createdAt : Instant
  nextRunAt : Instant
  lastMaterializedAt : Option Instant := none
  maxRetries : ℕ := 0
  timeoutSeconds : Option ℕ := none
  deriving DecidableEq, Repr

/-- The columns of a job that no operation changes. -/
def JobRecord.lineage (job : JobRecord) : Id × String × Option Id × Option String :=
  (job.id, job.kind, job.projectId, job.resourcePolicy)

/-- The columns of a run that `_finalize_run` compares: job, kind, project and attempt. -/
def RunRecord.lineage (run : RunRecord) : Id × String × Option Id × ℕ :=
  (run.jobId, run.kind, run.projectId, run.attempt)

/-- The lineage of a run of a job. -/
def JobRecord.runLineage (job : JobRecord) (attempt : ℕ) : Id × String × Option Id × ℕ :=
  (job.id, job.kind, job.projectId, attempt)

/-- The terminal run statuses are terminal job statuses. -/
@[simp]
theorem RunStatus.isTerminal_toJobStatus (s : RunStatus) :
  s.toJobStatus.isTerminal = s.isTerminal
  := by
  cases s <;> rfl

/-- A terminal status is not active. -/
theorem JobStatus.not_isActive {s : JobStatus} (h : s.isTerminal = true) :
  s.isActive = false
  := by
  cases s <;> simp_all [isTerminal, isActive]

/-- A run that is not running is terminal. -/
theorem RunStatus.isTerminal_iff {s : RunStatus} :
  s.isTerminal = true ↔ s ≠ .running
  := by
  cases s <;> simp [isTerminal]

end GoblinKing
