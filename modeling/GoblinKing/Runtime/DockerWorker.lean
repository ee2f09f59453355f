import GoblinKing.Library.Emission
import GoblinKing.Runtime.Precedence
import GoblinKing.Runtime.Results
import Mathlib.Algebra.BigOperators.Group.List.Defs

/-!
# The run of a Docker worker

The Docker runtime starts a container, waits for it, records the heartbeats and the output that it
has left, and reads its result from Redis or from a file. What it does is told by the events that it
emits, of which the last one is to say how the worker has ended. What Docker, Redis and the file
system answer is not decided here.
-/

namespace GoblinKing

open Posix

/-! ### Events -/

/-- The events that the Docker runtime emits. -/
inductive WorkerEventType where
  | started
  | heartbeatInvalid
  | heartbeatReadFailed
  | containerLogs
  | completed
  | failed
  | timedOut
  | noResult
  deriving DecidableEq, Repr

/-- The text of the type of an event. -/
def WorkerEventType.text : WorkerEventType → String
  | .started => "worker.started"
  | .heartbeatInvalid => "worker.heartbeat_invalid"
  | .heartbeatReadFailed => "worker.heartbeat_read_failed"
  | .containerLogs => "worker.container_logs"
  | .completed => "worker.completed"
  | .failed => "worker.failed"
  | .timedOut => "worker.timed_out"
  | .noResult => "worker.no_result"

/-- The events that say how a worker has ended. -/
def WorkerEventType.isTerminal : WorkerEventType → Bool
  | .completed | .failed | .timedOut | .noResult => true
  | .started | .heartbeatInvalid | .heartbeatReadFailed | .containerLogs => false

/-- An event from the runtime. The identifiers of its project and of its job are empty when there
are none. -/
structure WorkerEvent where
  eventType : WorkerEventType
  projectId : String := ""
  jobId : String := ""
  runId : Option String := none
  workerId : Option String := none
  payload : List (String × JsonScalar)
  deriving DecidableEq, Repr

/-- An event says how the worker of a run has ended. -/
def EndsRun (runId : String) (event : WorkerEvent) : Prop :=
  event.eventType.isTerminal = true ∧ event.runId = some runId

/-- An event says that the worker of a run has been started. -/
def StartsRun (runId : String) (event : WorkerEvent) : Prop :=
  event.eventType = .started ∧ event.runId = some runId

/-! ### The outside -/

/-- A value from Redis: bytes, or a text when the connection decodes them. -/
inductive RedisValue where
  | bytes (value : ByteArray)
  | text (value : String)

/-- What `subprocess.run` comes to: the process has ended, it has not ended in time, or an exception
is raised. -/
inductive Launch where
  | completed (returncode : ℤ) (stdout stderr : String)
  | timeoutExpired (stdout stderr : Option ByteArray)
  | raised (error : Raised)

/-- What answers the Docker runtime. -/
structure DockerHost where
  library : RuntimeLibrary
  environ : ProcessEnvironment
  /-- the exception behind an error of the library -/
  exception : String → Raised
  /-- an event bus is configured -/
  eventBus : Bool
  /-- the image for a kind, or the message of a `WorkerConfigError` -/
  workerImage : String → Except String String
  /-- `Path.mkdir` with its parents -/
  makeDirectory : Path → Except Raised Unit
  /-- `Path.write_text` -/
  writeText : Path → String → Except Raised Unit
  /-- `GoblinContext.model_dump_json` -/
  contextJson : GoblinContext → Except Raised String
  /-- `subprocess.run` with a timeout -/
  launch : List String → Option ℤ → Launch
  /-- the heartbeats under a key -/
  lrange : String → Except Raised (List RedisValue)
  expire : String → Except Raised Unit
  /-- the decoding and the validation of a heartbeat -/
  readHeartbeat : RedisValue → Except Raised Unit
  /-- the value under a key -/
  get : String → Except Raised (Option RedisValue)
  pathExists : Path → Except Raised Bool
  readBytes : Path → Except Raised ByteArray
  isFile : Path → Except Raised Bool
  fileSize : Path → Except Raised ℕ
  /-- `GoblinResult.model_validate_json`, or the message of its `ValueError` -/
  modelValidateJson : String → Except String WorkerResult
  /-- the message about bytes that are no UTF-8 -/
  decodeError : ByteArray → String
  /-- `bytes.decode` with replacements -/
  decodeReplacing : ByteArray → String
  /-- `str` of a value from Redis -/
  reprText : RedisValue → String
  /-- `str.strip` -/
  strip : String → String

variable (host : DockerHost)

/-- `Path.resolve` with its exceptions. -/
def DockerHost.resolve (path : Path) : Except Raised Path :=
  (host.library.resolve path).mapError host.exception

/-- Emit an event when an event bus is configured. -/
def emitEvent (event : WorkerEvent) : Emission WorkerEvent Raised Unit :=
  if host.eventBus then Emission.emit event else pure ()

/-- Emit a runtime/worker lifecycle event when an event bus is configured. -/
def emitWorkerEvent (eventType : WorkerEventType) (context : GoblinContext) (workerId : String)
    (payload : List (String × JsonScalar)) : Emission WorkerEvent Raised Unit :=
  emitEvent host {
    eventType := eventType
    projectId := context.projectId
    jobId := context.jobId
    runId := some context.runId
    workerId := some workerId
    payload := payload }

/-! ### Heartbeats -/

/-- The exceptions of a malformed heartbeat. -/
def Raised.isMalformed (error : Raised) : Bool :=
  error.isValueError || error.kind = .typeError

/-- Persist one worker heartbeat payload, recording malformed data as an event. -/
def recordWorkerHeartbeatPayload (payload : RedisValue) : Emission WorkerEvent Raised Unit :=
  (Emission.ofExcept (host.readHeartbeat payload)).catching Raised.isMalformed (fun error =>
    emitEvent host {
      eventType := .heartbeatInvalid
      payload := [("error", .text error.message), ("raw", .text (host.reprText payload))] })

/-- Persist heartbeat payloads one after the other. -/
def recordWorkerHeartbeatPayloads : List RedisValue → Emission WorkerEvent Raised Unit
  | [] => pure ()
  | payload :: payloads => do
      recordWorkerHeartbeatPayload host payload
      recordWorkerHeartbeatPayloads payloads

/-- Read heartbeat payloads left by a worker in Redis and persist them. -/
def recordWorkerHeartbeats (context : GoblinContext) : Emission WorkerEvent Raised Unit :=
  if host.eventBus then
    Emission.catching
      (do
        let payloads ← Emission.ofExcept (host.lrange (workerHeartbeatKey context.runId))
        recordWorkerHeartbeatPayloads host payloads
        Emission.ofExcept (host.expire (workerHeartbeatKey context.runId)))
      (fun error => error.kind = .redisError)
      (fun error =>
        emitEvent host {
          eventType := .heartbeatReadFailed
          jobId := context.jobId
          runId := some context.runId
          payload := [("error", .text error.message)] })
  else
    pure ()

/-! ### Output -/

/-- The output of a container: none, a text or bytes. -/
inductive Output where
  | none
  | text (value : String)
  | bytes (value : ByteArray)

/-- What `subprocess.TimeoutExpired` holds. -/
def Output.ofBytes : Option ByteArray → Output
  | Option.none => .none
  | some value => .bytes value

/-- Resolve the effective retained-log byte ceiling. -/
def logCaptureLimit (resourcePolicy : Option ResourcePolicy) : ℕ :=
  (resourcePolicy.bind ResourcePolicy.logsMaxBytes).getD (64 * 1024)

/-- Return a UTF-8-safe best-effort tail and its observed byte count. -/
def tailOfText (text : String) (maxBytes : ℕ) : String × Bool × ℕ :=
  let encoded := text.toUTF8
  if maxBytes = 0 then
    ("", decide (0 < encoded.size), encoded.size)
  else if encoded.size ≤ maxBytes then
    (text, false, encoded.size)
  else
    (host.decodeReplacing (encoded.extract (encoded.size - maxBytes) encoded.size), true,
      encoded.size)

/-- The tail of an output. -/
def tailText (value : Output) (maxBytes : ℕ) : String × Bool × ℕ :=
  match value with
  | .none => ("", false, 0)
  | .text text => tailOfText host text maxBytes
  | .bytes bytes => tailOfText host (host.decodeReplacing bytes) maxBytes

/-- Build the stable bounded payload shared by container runtimes. -/
def containerLogPayload (kind image containerName : String) (stdout stderr : Output)
    (exitCode : Option ℤ) (timedOut : Bool) (maxBytes : ℕ) : List (String × JsonScalar) :=
  let (stdoutTail, stdoutTruncated, stdoutBytes) := tailText host stdout ((maxBytes + 1) / 2)
  let (stderrTail, stderrTruncated, stderrBytes) := tailText host stderr (maxBytes / 2)
  [("kind", .text kind),
    ("image", .text image),
    ("container_name", .text containerName),
    ("exit_code", exitCode.elim .null .int),
    ("timed_out", .bool timedOut),
    ("stdout", .text stdoutTail),
    ("stderr", .text stderrTail),
    ("stdout_truncated", .bool stdoutTruncated),
    ("stderr_truncated", .bool stderrTruncated),
    ("truncated", .bool (stdoutTruncated || stderrTruncated)),
    ("max_bytes", .int maxBytes),
    ("stdout_bytes", .int stdoutBytes),
    ("stderr_bytes", .int stderrBytes)]

/-- A worker that is ready to be started. -/
structure PreparedRun where
  kind : String
  run : DockerRun
  command : List String
  resultPath : Path

/-- Persist a bounded copy of Docker wrapper output after a short-lived worker exits. -/
def emitContainerLogEvent (prepared : PreparedRun) (stdout stderr : Output) (exitCode : Option ℤ)
    (timedOut : Bool) : Emission WorkerEvent Raised Unit :=
  emitWorkerEvent host .containerLogs prepared.run.context prepared.run.workerId
    (containerLogPayload host prepared.kind prepared.run.image prepared.run.workerId stdout stderr
      exitCode timedOut (logCaptureLimit prepared.run.resourcePolicy))

/-! ### Results -/

/-- `bytes.decode` of UTF-8. -/
def decodeUtf8 (bytes : ByteArray) : Except Raised String :=
  match String.fromUTF8? bytes with
  | some text => .ok text
  | none => .error ⟨.valueError, host.decodeError bytes⟩

/-- The text of a value from Redis. -/
def redisText : RedisValue → Except Raised String
  | .bytes bytes => decodeUtf8 host bytes
  | .text text => .ok text

/-- Read all ends of lines as newlines. -/
def universalNewlines : List Char → List Char
  | [] => []
  | '\r' :: '\n' :: rest => '\n' :: universalNewlines rest
  | c :: rest => (if c = '\r' then '\n' else c) :: universalNewlines rest

/-- `Path.read_text` in UTF-8. -/
def readText (path : Path) : Except Raised String := do
  let bytes ← host.readBytes path
  let text ← decodeUtf8 host bytes
  .ok (String.ofList (universalNewlines text.toList))

/-- The text in a file, if the file exists. -/
def fileText (path : Path) : Except Raised (Option String) := do
  let found ← host.pathExists path
  if found then
    let text ← readText host path
    .ok (some text)
  else
    .ok none

/-- The Redis key with the result of a run. -/
def resultKey (runId : String) : String :=
  "goblin-king:results:" ++ runId

/-- The text of a result, from Redis first, then from the fallback result file. -/
def loadText (runId : String) (resultPath : Path) : Except Raised (Option String) :=
  match host.get (resultKey runId) with
  | .ok (some raw) => (redisText host raw).map some
  | .ok none => fileText host resultPath
  | .error error => if error.kind = .redisError then fileText host resultPath else .error error

/-- The result in a text. -/
def parseResult (text : String) : WorkerResult :=
  match host.modelValidateJson text with
  | .ok result => result
  | .error error => .failure ("worker produced invalid result JSON: " ++ error)

/-- Load a worker result from Redis first, then from the fallback result file. -/
def loadResult (runId : String) (resultPath : Path) : Except Raised (Option WorkerResult) := do
  let text ← loadText host runId resultPath
  .ok (text.map (parseResult host))

/-! ### Artifacts -/

/-- Where the file of an artifact is. -/
def artifactPath (artifactRoot : Path) (uri : String) : Path :=
  artifactRoot.join (Path.parse (if "file://".toList.isPrefixOf uri.toList then
    String.ofList (uri.toList.drop 7)
  else
    uri))

/-- The path of an artifact, unless it is outside of the artifact root. -/
def resolveArtifact (artifactRoot : Path) (uri : String) : Except Raised (Option Path) :=
  match (do
    let resolved ← host.resolve (artifactPath artifactRoot uri)
    let root ← host.resolve artifactRoot
    .ok ((relativeTo resolved root).map fun _ => resolved) : Except Raised (Option Path)) with
  | .ok resolved => .ok resolved
  | .error error => if error.isValueError then .ok none else .error error

/-- The size of a file, or zero when there is no such file. -/
def fileBytes (path : Path) : Except Raised ℤ := do
  let found ← host.isFile path
  if found then
    let size ← host.fileSize path
    .ok size
  else
    .ok 0

/-- The size of the file of an artifact, or zero when there is no such file. -/
def storedBytes (artifactRoot : Path) (uri : String) : Except Raised ℤ := do
  let resolved ← resolveArtifact host artifactRoot uri
  match resolved with
  | none => .ok 0
  | some path => fileBytes host path

/-- The size of an artifact: the number in its metric, or the size of its file. -/
def artifactBytes (artifactRoot : Path) (metrics : Metrics) (artifact : ArtifactRecord) :
    Except Raised ℤ :=
  match (metrics (bytesMetric artifact.name)).bind JsonScalar.toInt? with
  | some size => size
  | none => storedBytes host artifactRoot artifact.uri

/-- The message about artifacts with too many bytes. -/
def bytesMessage (total : ℤ) (maxBytes : ℕ) : Except Raised String := do
  let text ← strInt total
  .ok ("artifact bytes exceed policy: " ++ text ++ " > " ++ toString maxBytes)

/-- The message for artifacts that have more bytes than allowed. -/
def artifactBytesError (artifactRoot : Path) (result : WorkerResult) (maxBytes : ℕ) :
    Except Raised (Option String) := do
  let sizes ← result.artifacts.mapM (artifactBytes host artifactRoot result.metrics)
  if maxBytes < sizes.sum then
    (bytesMessage sizes.sum maxBytes).map some
  else
    .ok none

/-- More artifacts than a policy allows. -/
def exceedsMaxFiles (policy : ResourcePolicy) (result : WorkerResult) : Bool :=
  policy.filesystem.artifactMaxFiles.any (fun maxFiles => maxFiles < result.artifacts.length)

/-- Return an artifact policy violation message for result metadata, if any. -/
def artifactPolicyError (result : WorkerResult) (policy : Option ResourcePolicy)
    (artifactRoot : Path) : Except Raised (Option String) :=
  match policy with
  | none => .ok none
  | some policy =>
      if exceedsMaxFiles policy result then
        .ok (some ("artifact file count exceeds policy: " ++ toString result.artifacts.length
          ++ " > " ++ toString (policy.filesystem.artifactMaxFiles.getD 0)))
      else
        match policy.filesystem.artifactMaxBytes with
        | none => .ok none
        | some maxBytes => artifactBytesError host artifactRoot result maxBytes

/-! ### The run -/

/-- Return a result that the artifact policy allows, and a failure in place of another one. -/
def judgeResult (prepared : PreparedRun) (result : WorkerResult) :
    Emission WorkerEvent Raised WorkerResult := do
  let artifactError ← Emission.ofExcept (artifactPolicyError host result
    prepared.run.resourcePolicy (Path.parse prepared.run.context.artifactRoot))
  match artifactError with
  | some error => do
      emitWorkerEvent host .failed prepared.run.context prepared.run.workerId
        [("kind", .text prepared.kind), ("phase", .text "artifact_policy"), ("error", .text error)]
      pure (.failure error result.data)
  | none => do
      emitWorkerEvent host .completed prepared.run.context prepared.run.workerId
        [("kind", .text prepared.kind), ("status", .text (statusText result.status))]
      pure result

/-- The failure of a worker that has left no result. -/
def missingResult (prepared : PreparedRun) (returncode : ℤ) (stdout stderr : String) :
    Emission WorkerEvent Raised WorkerResult :=
  if returncode ≠ 0 then do
    emitWorkerEvent host .failed prepared.run.context prepared.run.workerId
      [("kind", .text prepared.kind), ("exit_code", .int returncode)]
    pure (.failure (prepared.kind ++ " Docker worker exited " ++ toString returncode ++ ": "
      ++ (if host.strip stderr = "" then host.strip stdout else host.strip stderr)))
  else do
    emitWorkerEvent host .noResult prepared.run.context prepared.run.workerId
      [("kind", .text prepared.kind)]
    pure (.failure (prepared.kind ++ " Docker worker produced no result"))

/-- What happens when the process of a worker has ended. -/
def finishWorker (prepared : PreparedRun) (returncode : ℤ) (stdout stderr : String) :
    Emission WorkerEvent Raised WorkerResult := do
  recordWorkerHeartbeats host prepared.run.context
  emitContainerLogEvent host prepared (.text stdout) (.text stderr) (some returncode) false
  let result ← Emission.ofExcept (loadResult host prepared.run.context.runId prepared.resultPath)
  match result with
  | some result => judgeResult host prepared result
  | none => missingResult host prepared returncode stdout stderr

/-- `None` or the decimal digits of a number of seconds. -/
def secondsText : Option ℤ → String
  | none => "None"
  | some seconds => toString seconds

/-- What happens when a worker has not ended in time. -/
def expireWorker (prepared : PreparedRun) (stdout stderr : Option ByteArray) :
    Emission WorkerEvent Raised WorkerResult := do
  recordWorkerHeartbeats host prepared.run.context
  emitContainerLogEvent host prepared (.ofBytes stdout) (.ofBytes stderr) none true
  emitWorkerEvent host .timedOut prepared.run.context prepared.run.workerId
    [("kind", .text prepared.kind),
      ("timeout_seconds", prepared.run.timeoutSeconds.elim .null .int)]
  pure (.failure (prepared.kind ++ " exceeded timeout_seconds="
    ++ secondsText prepared.run.timeoutSeconds))

/-- What happens when the launch of a worker raises an exception. -/
def failLaunch (prepared : PreparedRun) (error : Raised) :
    Emission WorkerEvent Raised WorkerResult :=
  if error.kind = .osError then do
    emitWorkerEvent host .failed prepared.run.context prepared.run.workerId
      [("kind", .text prepared.kind), ("phase", .text "launch"), ("error", .text error.message)]
    pure (.failure (prepared.kind ++ " Docker runtime launch failed: " ++ error.message))
  else
    Emission.ofExcept (.error error)

/-- Launch a worker and wait for it. -/
def superviseWorker (prepared : PreparedRun) : Emission WorkerEvent Raised WorkerResult :=
  match host.launch prepared.command prepared.run.timeoutSeconds with
  | .completed returncode stdout stderr => finishWorker host prepared returncode stdout stderr
  | .timeoutExpired stdout stderr => expireWorker host prepared stdout stderr
  | .raised error => failLaunch host prepared error

/-- What ends a run before its worker is started: a failure that is returned, or an exception. -/
inductive SetupFailure where
  | reported (error : String)
  | raised (error : Raised)

/-- A failure of the setup, when its exception is caught. -/
def setupFailure (kind : String) (caught : List ErrorKind) (error : Raised) : SetupFailure :=
  if error.kind ∈ caught then
    .reported (kind ++ " Docker runtime setup failed: " ++ error.message)
  else
    .raised error

variable (runtime : DockerRuntime) (kind : String) (metadata : WorkerMetadata) (input : JsonDict)
  (context : GoblinContext) (timeoutSeconds : Option ℤ) (resourcePolicy : Option ResourcePolicy)

/-- Write worker input/context files and create artifact/result directories. -/
def prepareRunDir (context : GoblinContext) : Except Raised Path := do
  let runDir ← host.resolve (runtime.runRoot.join (Path.parse context.runId))
  let artifactRoot ← (resolveDockerArtifactRoot host.library runtime.runRoot
    context.artifactRoot).mapError host.exception
  host.makeDirectory runDir
  host.makeDirectory artifactRoot
  host.writeText (runDir.join ⟨false, ["input.json"]⟩) input.text
  let text ← host.contextJson context
  host.writeText (runDir.join ⟨false, ["context.json"]⟩) text
  .ok runDir

/-- The context of a run with its resolved artifact root, and the directory of the run. -/
def setUpRun : Except Raised (GoblinContext × Path) := do
  let artifactRoot ← (resolveDockerArtifactRoot host.library runtime.runRoot
    context.artifactRoot).mapError host.exception
  let resolved : GoblinContext := { context with artifactRoot := asPosix artifactRoot }
  let runDir ← prepareRunDir host runtime input resolved
  .ok (resolved, runDir)

/-- Prepare a worker up to its command. -/
def prepareWorker : Except SetupFailure PreparedRun := do
  let image ← (host.workerImage kind).mapError SetupFailure.reported
  let (resolved, runDir) ← (setUpRun host runtime input context).mapError
    (setupFailure kind [.dockerRuntimePathError, .osError])
  let run : DockerRun := {
    image := image
    runDir := runDir
    context := resolved
    workerId := "worker-" ++ resolved.runId
    timeoutSeconds := timeoutSeconds
    resourcePolicy := resourcePolicy
    workerEnv := literalWorkerEnvironment metadata.env
    secretRefs := workerSecretRefs metadata.secretRefs }
  let command ← (dockerRunCommand host.library host.environ runtime run).mapError
    (fun error => setupFailure kind [.dockerRuntimePathError] (host.exception error))
  .ok ⟨kind, run, command, runDir.join ⟨false, ["result.json"]⟩⟩

/-- Run one Docker worker and normalize the result transported through Redis or file. -/
def dockerRuntimeRun : Emission WorkerEvent Raised WorkerResult :=
  match prepareWorker host runtime kind metadata input context timeoutSeconds resourcePolicy with
  | .error (.reported error) => pure (.failure error)
  | .error (.raised error) => Emission.ofExcept (.error error)
  | .ok prepared => do
      emitWorkerEvent host .started prepared.run.context prepared.run.workerId
        [("kind", .text prepared.kind)]
      superviseWorker host prepared

end GoblinKing
