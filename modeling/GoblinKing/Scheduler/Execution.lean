import GoblinKing.CausalTime

/-!
# Executing a claimed job

The records which `_execute_claimed_job` builds, and the statuses it derives from the result
of the runtime. The transactions between which it builds them are in the pass of the
scheduler.
-/

namespace GoblinKing

/-- A number of seconds, as a duration. -/
def seconds (n : ℤ) : ℤ :=
  n * 1000000

/-- Map a result and the elapsed time into the status of the run. -/
def statusForResult (result : GoblinResult) (elapsed : ℤ) (timeoutSeconds : Option ℕ) :
    RunStatus :=
  if timeoutSeconds.any (fun timeout => seconds timeout < elapsed) then
    .timedOut
  else
    match result.status with
    | .success => .completed
    | .failed => .failed

/-- The attempt that a claimed job is executed at. -/
def JobRecord.nextAttempt (job : JobRecord) : ℕ :=
  job.attemptCount + 1

/-- When an attempt starts: after its `job.running` event. -/
def attemptStartedAt (requestedStart runningEventAt : Instant) : Instant :=
  causallyAfter [some runningEventAt] requestedStart

/-- When an attempt finishes: after its start and the latest event of its job. -/
def finishAttemptTimestamp (startedAt : Instant) (latestEventAt : Option Instant)
    (clock : Instant) : Instant :=
  causallyAfter [some startedAt, latestEventAt] clock

/-- The run that is exposed while the runtime executes. -/
def runningRun (job : JobRecord) (runId : Id) (startedAt : Instant) : RunRecord where
  id := runId
  jobId := job.id
  kind := job.kind
  projectId := job.projectId
  attempt := job.nextAttempt
  status := .running
  startedAt := startedAt

/-- The run of an attempt that the validation of its image has rejected. -/
def rejectedRun (job : JobRecord) (runId : Id) (startedAt finishedAt : Instant)
    (validationError : String) : RunRecord where
  id := runId
  jobId := job.id
  kind := job.kind
  projectId := job.projectId
  attempt := job.nextAttempt
  status := .failed
  startedAt := startedAt
  finishedAt := some finishedAt
  result := some (.failure validationError)
  error := some validationError

/-- The result of an execution that may have exceeded the timeout of its job. -/
def resultWithinTimeout (job : JobRecord) (result : GoblinResult) (elapsed : ℤ) : GoblinResult :=
  if statusForResult result elapsed job.timeoutSeconds = .timedOut ∧ result.error = none then
    .failure ("job exceeded timeout_seconds="
      ++ (match job.timeoutSeconds with | none => "None" | some t => toString t))
  else
    result

/-- The run of an attempt whose execution has returned. -/
def finishedRun (job : JobRecord) (runId : Id) (startedAt finishedAt : Instant)
    (result : GoblinResult) (elapsed : ℤ) : RunRecord where
  id := runId
  jobId := job.id
  kind := job.kind
  projectId := job.projectId
  attempt := job.nextAttempt
  status := statusForResult result elapsed job.timeoutSeconds
  startedAt := startedAt
  finishedAt := some finishedAt
  result := some (resultWithinTimeout job result elapsed)
  error := (resultWithinTimeout job result elapsed).error

/-- A failed attempt is retried while the job has retries left. -/
def retrying (job : JobRecord) (status : RunStatus) : Bool :=
  decide (status = .failed) && decide (job.nextAttempt ≤ job.maxRetries)

/-- The status that a finished attempt gives its job. -/
def finishedJobStatus (job : JobRecord) (status : RunStatus) : JobStatus :=
  if retrying job status then .retrying else status.toJobStatus

/-- A result is mapped to a terminal status. -/
theorem isTerminal_statusForResult (result : GoblinResult) (elapsed : ℤ)
    (timeoutSeconds : Option ℕ) :
  (statusForResult result elapsed timeoutSeconds).isTerminal = true
  := by
  rw [statusForResult]
  split
  · rfl
  · cases result.status <;> rfl

/-- A finished attempt leaves its job waiting or terminal, never active. -/
theorem isActive_finishedJobStatus (job : JobRecord) (result : GoblinResult) (elapsed : ℤ)
    (timeoutSeconds : Option ℕ) :
  (finishedJobStatus job (statusForResult result elapsed timeoutSeconds)).isActive = false
  := by
  rw [finishedJobStatus]
  split
  · rfl
  · apply JobStatus.not_isActive
    rw [RunStatus.isTerminal_toJobStatus, isTerminal_statusForResult]

end GoblinKing
