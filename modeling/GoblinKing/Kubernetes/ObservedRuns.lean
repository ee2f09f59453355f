import GoblinKing.Api.ServiceRuntimes
import GoblinKing.Kubernetes.PodDiagnostics
import GoblinKing.Kubernetes.Manifest

/-!
# The run of a Kubernetes worker

The Kubernetes runtime creates a ConfigMap and a Job, polls the Job until it has ended or the time is up,
reads the result that the forwarder has left in Redis, captures what is left in the Pod and deletes both
objects. What the cluster, Redis and the clock answer at a poll is not decided here.
-/

namespace GoblinKing

/-! ### The outside -/

/-- What is read of the status of a Job. -/
structure ClusterJobStatus where
  succeeded : Bool
  failed : Bool
  deriving DecidableEq

/-- When the cluster is read: at a poll, or after the polls. -/
inductive ReadingTime where
  | poll (index : ℕ)
  | afterwards

/-- A monotonic clock that is read once at every poll, from the start of the polls on. It passes every
limit at some poll. -/
structure PollClock where
  reading : ℕ → ℚ
  deadline : ℤ → ℕ
  passed : ∀ limit : ℤ, limit ≤ reading (deadline limit)

/-- What answers the Kubernetes runtime. -/
structure ClusterHost extends DockerHost where
  /-- the texts that names are made of -/
  texts : ApiSettings
  /-- `kubernetes_clients`, or the text of its exception -/
  clients : Except String Unit
  createConfigMap : String → Except Raised Unit
  createJob : JobManifest → Except Raised Unit
  readJob : ℕ → Except Raised ClusterJobStatus
  pods : ReadingTime → PodReader
  /-- the value under a key at a poll -/
  stored : ℕ → String → Except Raised (Option RedisValue)
  clock : PollClock

/-- The Kubernetes runtime. -/
structure KubernetesRuntime (library : KubernetesLibrary) where
  settings : KubernetesRuntimeSettings library
  redisUrl : String
  heartbeatIntervalSeconds : ℤ := 5

/-- What a run does, step by step. -/
inductive ObservedStep where
  | event (event : WorkerEvent)
  | createConfigMap (name : String)
  | createJob (name : String)
  | deleteJob (name : String)
  | deleteConfigMap (name : String)
  deriving DecidableEq

/-- The arguments of `run_observed`. -/
structure ObservedRun where
  kind : String
  metadata : WorkerMetadata
  placement : Option PlacementDeclaration := none
  input : JsonDict
  context : GoblinContext
  timeoutSeconds : Option ℤ := none
  resourcePolicy : Option ResourcePolicy := none

variable {library : KubernetesLibrary} (host : ClusterHost) (runtime : KubernetesRuntime library)
  (run : ObservedRun)

/-- The name of the Job. -/
def ObservedRun.jobName : String :=
  kubernetesName host.texts ("gk-" ++ run.kind ++ "-" ++ run.context.runId)

/-- The name of the ConfigMap. -/
def ObservedRun.configName : String :=
  run.jobName host ++ "-input"

/-- The identifier of the worker. -/
def ObservedRun.workerId : String :=
  "k8s-worker-" ++ run.context.runId

/-! ### Results -/

/-- `forwarded_result_key` -/
def forwardedResultKey (runId : String) : String :=
  "goblin-king:forwarded-results:" ++ runId

/-- The key of the result of a run. -/
def KubernetesRuntime.resultKey (runId : String) : String :=
  if runtime.settings.artifactRetention.isSome then forwardedResultKey runId
  else GoblinKing.resultKey runId

/-- `_load_result` at a poll -/
def loadStoredResult (poll : ℕ) (runId : String) : Except Raised (Option WorkerResult) :=
  match host.stored poll (runtime.resultKey runId) with
  | .error error => if error.kind = .redisError then .ok none else .error error
  | .ok none => .ok none
  | .ok (some raw) => do
      let text ← redisText host.toDockerHost raw
      .ok (some (parseResult host.toDockerHost text))

/-- An error is about an envelope that is not valid. -/
def isEnvelopeError (error : String) : Bool :=
  "worker produced invalid result JSON:".toList.isPrefixOf error.toList

/-- `_load_result_observed` at a poll -/
def loadStoredObservation (poll : ℕ) (runId : String) :
    Except Raised KubernetesRunObservation := do
  let result ← loadStoredResult host runtime poll runId
  match result with
  | none => .ok { result := .failure "worker result was not received" }
  | some result => .ok {
      result := result
      resultReceived := true
      resultEnvelopeValid := !(result.status = .failed && isEnvelopeError (result.error.getD "")) }

/-! ### Polls -/

/-- What is observed of a Job that has succeeded. -/
def succeededJob (poll : ℕ) : Except Raised KubernetesRunObservation := do
  let observation ← loadStoredObservation host runtime poll run.context.runId
  if observation.resultReceived then
    .ok observation
  else
    .ok { result := .failure (run.jobName host ++ " completed without a Redis result") }

/-- What is observed of a Job that has failed. -/
def failedJob (poll : ℕ) : Except Raised KubernetesRunObservation := do
  let logs := workerLogExcerpt host.toDockerHost (host.pods (.poll poll)) (run.jobName host)
  let forwarded ← loadStoredObservation host runtime poll run.context.runId
  if forwarded.resultReceived then
    if forwarded.result.status = .failed then
      .ok forwarded
    else
      .ok {
        result := {
          WorkerResult.failure (run.jobName host ++ " failed after publishing a result: " ++ logs)
            forwarded.result.data forwarded.result.metrics forwarded.result.handoff with
          artifacts := forwarded.result.artifacts }
        resultReceived := true
        resultEnvelopeValid := forwarded.resultEnvelopeValid }
  else
    .ok { result := .failure (run.jobName host ++ " failed: " ++ logs) }

/-- One poll of the Job; `none` when it goes on. -/
def pollJob (poll : ℕ) : Except Raised (Option KubernetesRunObservation) := do
  let status ← host.readJob poll
  if status.succeeded then
    (succeededJob host runtime run poll).map some
  else if status.failed then
    (failedJob host runtime run poll).map some
  else
    match findImagePullFailure (host.pods (.poll poll)) (run.jobName host) with
    | some failure => .ok (some { result := .failure (failure.describe (run.jobName host)) })
    | none => .ok none

/-- How long a Job is polled. -/
def ObservedRun.limit : ℤ :=
  (match run.timeoutSeconds with
  | none => 300
  | some seconds => if seconds = 0 then 300 else seconds) + 30

/-- What is observed of a Job that has not ended in time. -/
def expiredJob : KubernetesRunObservation where
  result := .failure (run.jobName host ++ " exceeded wait timeout")

/-- Poll the Job from a poll on, a number of times at most. -/
def pollFrom : ℕ → ℕ → Except Raised KubernetesRunObservation
  | 0, _ => .ok (expiredJob host run)
  | polls + 1, poll =>
      if host.clock.reading poll < run.limit then do
        let decided ← pollJob host runtime run poll
        match decided with
        | some observation => .ok observation
        | none => pollFrom polls (poll + 1)
      else
        .ok (expiredJob host run)

/-- `_wait_for_result_observed`. At the deadline of the clock the polls are over. -/
def waitForResultObserved : Except Raised KubernetesRunObservation :=
  pollFrom host runtime run (host.clock.deadline run.limit + 1) 0

/-! ### The run -/

/-- `_emit_worker_event` -/
def emitRunEvent (eventType : WorkerEventType) (payload : List (String × JsonScalar)) :
    Emission ObservedStep Raised Unit :=
  (emitWorkerEvent host.toDockerHost eventType run.context run.workerId payload).relabel .event

/-- The worker of the Job. -/
def ObservedRun.workerJob (image : String) : WorkerJob where
  name := run.jobName host
  configName := run.configName host
  image := image
  context := run.context
  workerId := run.workerId
  timeoutSeconds := run.timeoutSeconds
  redisUrl := runtime.redisUrl
  heartbeatIntervalSeconds := runtime.heartbeatIntervalSeconds
  resourcePolicy := run.resourcePolicy
  placement := (normalizePlacement run.placement).or (placementMetadata run.context)
  kind := some run.kind
  workerEnv := literalWorkerEnvironment run.metadata.env

/-- Create the ConfigMap and the Job. -/
def submitJob (image : String) : Emission ObservedStep Raised Unit := do
  let _ ← Emission.ofExcept (host.contextJson run.context)
  Emission.emit (.createConfigMap (run.configName host))
  Emission.ofExcept (host.createConfigMap (run.configName host))
  let manifest ← Emission.ofExcept
    ((buildKubernetesJobManifest runtime.settings (run.workerJob host runtime image)).mapError
      (fun message => ⟨.valueError, message⟩))
  Emission.emit (.createJob (run.jobName host))
  Emission.ofExcept (host.createJob manifest)

/-- What is observed of a run that raises an exception. -/
def crashedRun (jobCreated : Bool) (error : Raised) : KubernetesRunObservation where
  result := .failure (run.kind ++ " Kubernetes worker failed: " ++ error.message)
  jobCreated := jobCreated

/-- Create the objects and wait for the result. -/
def observeJob (image : String) : Emission ObservedStep Raised KubernetesRunObservation := do
  let refused ← (submitJob host runtime run image).attempted
  match refused with
  | some error => pure (crashedRun run false error)
  | none =>
      match waitForResultObserved host runtime run with
      | .ok observation => pure { observation with jobCreated := true }
      | .error error => pure (crashedRun run true error)

/-- How many bytes of a log are captured. -/
def ObservedRun.maxLogBytes : ℕ :=
  min (logCaptureLimit run.resourcePolicy) defaultLogCaptureBytes

/-- The payload of `_emit_container_log_event` -/
def podLogPayload (image : String) (observation : KubernetesRunObservation) :
    List (String × JsonScalar) :=
  let log := (observation.logs.lookup "worker").getD ⟨"", false, 0, false⟩
  let workerLog := if log.readFailed then "" else log.text
  let (stdout, stdoutTruncated, stdoutBytes) :=
    tailOfText host.toDockerHost workerLog run.maxLogBytes
  let observed := if log.readFailed then some 0
    else (observation.logs.lookup "worker").map PodLog.observedBytes
  let truncated := stdoutTruncated || (!log.readFailed && log.truncated)
  [("kind", .text run.kind),
    ("image", .text image),
    ("container_name", .text "worker"),
    ("exit_code", observation.exitCode.elim .null .int),
    ("timed_out", .bool (decide
      ("exceeded wait timeout".toList <:+: (observation.result.error.getD "").toList))),
    ("stdout", .text stdout),
    ("stderr", .text ""),
    ("stdout_truncated", .bool truncated),
    ("stderr_truncated", .bool false),
    ("truncated", .bool truncated),
    ("max_bytes", .int run.maxLogBytes),
    ("stdout_bytes", .int (observed.getD stdoutBytes)),
    ("stderr_bytes", .int 0),
    ("stream_mode", .text "combined"),
    ("byte_count_exact", .bool !(log.readFailed || truncated))]

/-- Record the heartbeats and capture the diagnostics of a Job that has been created. -/
def diagnoseRun (image : String) (captureDiagnostics : Bool)
    (observation : KubernetesRunObservation) :
    Emission ObservedStep Raised KubernetesRunObservation := do
  (recordWorkerHeartbeats host.toDockerHost run.context).relabel ObservedStep.event
  if captureDiagnostics && observation.jobCreated then do
    let observation := capturePodDiagnostics host.toDockerHost (host.pods .afterwards)
      (run.jobName host) observation run.maxLogBytes
    emitRunEvent host run .containerLogs (podLogPayload host run image observation)
    pure observation
  else
    pure observation

/-- `_cleanup`, whose exceptions are dropped -/
def cleanUpRun : Emission ObservedStep Raised Unit := do
  Emission.emit (.deleteJob (run.jobName host))
  Emission.emit (.deleteConfigMap (run.configName host))

/-- The last event of a run. -/
def concludeRun (observation : KubernetesRunObservation) : Emission ObservedStep Raised Unit :=
  emitRunEvent host run (if observation.result.status = .success then .completed else .failed)
    [("kind", .text run.kind),
      ("status", .text (statusText observation.result.status)),
      ("error", observation.result.error.elim .null .text)]

/-- The steps of a run whose image is known. -/
def executeRun (image : String) (captureDiagnostics : Bool) :
    Emission ObservedStep Raised KubernetesRunObservation := do
  emitRunEvent host run .started [("kind", .text run.kind)]
  let observation ← ((observeJob host runtime run image).andThen
    (diagnoseRun host run image captureDiagnostics)).ensuring (cleanUpRun host run)
  concludeRun host run observation
  pure observation

/-- `run_observed` -/
def KubernetesRuntime.runObserved (captureDiagnostics : Bool) : Emission ObservedStep Raised KubernetesRunObservation :=
  match host.workerImage run.kind, host.clients with
  | .error error, _ => pure { result := .failure error }
  | .ok _, .error error =>
      pure { result := .failure ("kubernetes runtime unavailable: " ++ error) }
  | .ok image, .ok () => executeRun host runtime run image captureDiagnostics

end GoblinKing
