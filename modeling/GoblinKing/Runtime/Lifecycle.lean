import GoblinKing.Runtime.DockerWorker

/-!
# The lifecycle of a Docker worker

Behind the start of a worker, the Docker runtime returns a result and emits one terminal event, the
last one of all, unless something raises an exception that it does not catch: the launch, the
connection to Redis, the file of the result, bytes that are no text, or the measuring of the
artifacts.
-/

namespace GoblinKing

open Posix Emission

/-- The events of a run and its end fit together: the run returns a result, its first event says
that the worker has been started, and its last event and no other one says how the worker has
ended. -/
def LifecycleWellFormed (runId : String) (run : Emission WorkerEvent Raised WorkerResult) : Prop :=
  (∃ result, run.outcome = .ok result) ∧
    ∃ started during ended, run.events = started :: (during ++ [ended]) ∧
      StartsRun runId started ∧ EndsRun runId ended ∧
      ∀ event ∈ during, ¬ EndsRun runId event

variable (host : DockerHost)

/-! ### Silence before the end -/

section

variable {host} {runId : String}

/-- Emitting an event does not raise. -/
theorem outcome_emitEvent (event : WorkerEvent) : (emitEvent host event).outcome = .ok ()
  := by
  unfold emitEvent
  split <;> rfl

/-- An event that is not terminal does not say how a worker has ended. -/
theorem silent_emitEvent {event : WorkerEvent} (h : event.eventType.isTerminal = false) :
  (emitEvent host event).Silent (EndsRun runId)
  := by
  unfold emitEvent
  split
  · apply silent_emit
    rintro ⟨hterminal, -⟩
    rw [h] at hterminal
    cases hterminal
  · apply silent_pure

/-- Recording a heartbeat does not say how a worker has ended. -/
theorem silent_recordWorkerHeartbeatPayload (payload : RedisValue) :
  (recordWorkerHeartbeatPayload host payload).Silent (EndsRun runId)
  := by
  apply silent_ofExcept.catching
  intro error
  apply silent_emitEvent
  rfl

/-- Recording heartbeats does not say how a worker has ended. -/
theorem silent_recordWorkerHeartbeatPayloads (payloads : List RedisValue) :
  (recordWorkerHeartbeatPayloads host payloads).Silent (EndsRun runId)
  := by
  induction payloads with
  | nil => apply silent_pure
  | cons payload payloads ih =>
      apply (silent_recordWorkerHeartbeatPayload payload).bind
      intro _
      exact ih

/-- Reading the heartbeats does not say how a worker has ended. -/
theorem silent_recordWorkerHeartbeats (context : GoblinContext) :
  (recordWorkerHeartbeats host context).Silent (EndsRun runId)
  := by
  unfold recordWorkerHeartbeats
  split
  · apply Silent.catching
    · apply silent_ofExcept.bind
      intro payloads
      apply (silent_recordWorkerHeartbeatPayloads payloads).bind
      intro _
      apply silent_ofExcept
    · intro error
      apply silent_emitEvent
      rfl
  · apply silent_pure

/-- The output of a container does not say how a worker has ended. -/
theorem silent_emitContainerLogEvent (prepared : PreparedRun) (stdout stderr : Output)
    (exitCode : Option ℤ) (timedOut : Bool) :
  (emitContainerLogEvent host prepared stdout stderr exitCode timedOut).Silent (EndsRun runId)
  := by
  apply silent_emitEvent
  rfl

end

/-! ### Heartbeats -/

/-- The exception that a heartbeat raises, unless it is malformed. -/
def payloadFault (payload : RedisValue) : Option Raised :=
  (errorOf (host.readHeartbeat payload)).filter (fun error => !error.isMalformed)

/-- The first exception that the heartbeats of a run raise. -/
def heartbeatFault (runId : String) : Option Raised :=
  match host.lrange (workerHeartbeatKey runId) with
  | .error error => some error
  | .ok payloads =>
      (payloads.findSome? (payloadFault host)).or (errorOf (host.expire (workerHeartbeatKey runId)))

/-- The heartbeats of a run raise nothing but an error of Redis. -/
def HeartbeatsReadable (runId : String) : Prop :=
  ∀ error, heartbeatFault host runId = some error → error.kind = .redisError

section

variable {host}

/-- Emitting an event does not raise. -/
theorem fault_emitEvent (event : WorkerEvent) : (emitEvent host event).fault = none
  := fault_eq_none.mpr ⟨(), outcome_emitEvent event⟩

/-- Recording heartbeats raises the first exception of one that is not malformed. -/
theorem fault_recordWorkerHeartbeatPayloads (payloads : List RedisValue) :
  (recordWorkerHeartbeatPayloads host payloads).fault = payloads.findSome? (payloadFault host)
  := by
  induction payloads with
  | nil => rfl
  | cons payload payloads ih =>
      have hfirst : (recordWorkerHeartbeatPayload host payload).fault = payloadFault host payload :=
        fault_catching (fun error => fault_emitEvent _)
      rw [recordWorkerHeartbeatPayloads, fault_bind_unit, hfirst, ih, List.findSome?_cons]
      cases payloadFault host payload <;> rfl

/-- Reading the heartbeats succeeds when they raise nothing but an error of Redis. -/
theorem recordWorkerHeartbeats_ok (hbus : host.eventBus = true) (context : GoblinContext) :
  (∃ done, (recordWorkerHeartbeats host context).outcome = .ok done) ↔
    HeartbeatsReadable host context.runId
  := by
  have hfault : (recordWorkerHeartbeats host context).fault
      = (heartbeatFault host context.runId).filter (fun error => !(error.kind = .redisError)) := by
    rw [recordWorkerHeartbeats, if_pos hbus, fault_catching (fun error => fault_emitEvent _),
      heartbeatFault]
    congr 1
    cases h : host.lrange (workerHeartbeatKey context.runId) with
    | error error => rw [bind_of_error rfl, fault, errorOf]
    | ok payloads =>
        rw [bind_of_ok rfl]
        change (recordWorkerHeartbeatPayloads host payloads >>= fun _ => _).fault = _
        rw [fault_bind_unit, fault_recordWorkerHeartbeatPayloads]
        rfl
  rw [← fault_eq_none, hfault, Option.filter_eq_none_iff]
  simp [HeartbeatsReadable]

end

/-! ### Results -/

/-- A value from Redis is a text, or bytes that are one in UTF-8. -/
def RedisValue.IsText : RedisValue → Prop
  | .bytes value => value.IsValidUTF8
  | .text _ => True

/-- There is no file under a path, or it can be read as UTF-8. -/
def FileReadable (path : Path) : Prop :=
  match host.pathExists path with
  | .error _ => False
  | .ok false => True
  | .ok true => ∃ bytes, host.readBytes path = .ok bytes ∧ bytes.IsValidUTF8

/-- The result of a run is a text under its key or else in its file, if it is anywhere. -/
def ResultReadable (runId : String) (resultPath : Path) : Prop :=
  match host.get (resultKey runId) with
  | .ok (some value) => value.IsText
  | .ok none => FileReadable host resultPath
  | .error error => error.kind = .redisError ∧ FileReadable host resultPath

section

variable {host}

/-- Bytes are decoded exactly when they are UTF-8. -/
theorem exists_decodeUtf8 {bytes : ByteArray} :
  (∃ text, decodeUtf8 host bytes = .ok text) ↔ bytes.IsValidUTF8
  := by
  unfold decodeUtf8 String.fromUTF8?
  by_cases h : bytes.IsValidUTF8
  · simp [h]
  · simp [h]

/-- A value from Redis is decoded exactly when it is a text. -/
theorem exists_redisText {value : RedisValue} :
  (∃ text, redisText host value = .ok text) ↔ value.IsText
  := by
  cases value with
  | bytes bytes => exact exists_decodeUtf8
  | text text => exact ⟨fun _ => trivial, fun _ => ⟨text, rfl⟩⟩

/-- A file is read exactly when it is readable or not there. -/
theorem exists_fileText {path : Path} :
  (∃ text, fileText host path = .ok text) ↔ FileReadable host path
  := by
  unfold FileReadable fileText
  cases host.pathExists path with
  | error error => simp [bind, Except.bind]
  | ok found =>
      cases found with
      | false => exact ⟨fun _ => trivial, fun _ => ⟨none, rfl⟩⟩
      | true =>
          constructor
          · rintro ⟨text, h⟩
            simp only [Except.bind_eq_ok, readText, Except.ok.injEq, exists_eq_left', if_true] at h
            obtain ⟨_, ⟨bytes, hbytes, decoded, hdecoded, -⟩, -⟩ := h
            exact ⟨bytes, hbytes, exists_decodeUtf8.mp ⟨decoded, hdecoded⟩⟩
          · rintro ⟨bytes, hbytes, hvalid⟩
            obtain ⟨decoded, hdecoded⟩ := exists_decodeUtf8.mpr hvalid
            use some (String.ofList (universalNewlines decoded.toList))
            simp only [Except.bind_eq_ok, readText, Except.ok.injEq, exists_eq_left', if_true]
            exact ⟨_, ⟨bytes, hbytes, decoded, hdecoded, rfl⟩, rfl⟩

/-- The text of a result is read exactly when it is readable. -/
theorem exists_loadText {runId : String} {resultPath : Path} :
  (∃ text, loadText host runId resultPath = .ok text) ↔ ResultReadable host runId resultPath
  := by
  unfold loadText ResultReadable
  cases host.get (resultKey runId) with
  | error error =>
      by_cases hredis : error.kind = .redisError
      · simp [hredis, exists_fileText]
      · simp [hredis]
  | ok found =>
      cases found with
      | none => exact exists_fileText
      | some value =>
          dsimp only
          rw [← @exists_redisText host]
          cases redisText host value <;> simp [Except.map]

end

/-! ### Artifacts -/

/-- Looking for a file and for its size raises nothing. -/
def StatReadable (path : Path) : Prop :=
  match host.isFile path with
  | .error _ => False
  | .ok false => True
  | .ok true => ∃ size, host.fileSize path = .ok size

/-- Looking for the file of an artifact inside of the artifact root raises nothing but an invalid
path. -/
def FileMeasurable (artifactRoot : Path) (uri : String) : Prop :=
  match host.resolve (artifactPath artifactRoot uri), host.resolve artifactRoot with
  | .ok resolved, .ok root => (relativeTo resolved root).isSome → StatReadable host resolved
  | .ok _, .error error => error.isValueError = true
  | .error error, _ => error.isValueError = true

/-- The metric of an artifact is an integer or a finite float, or it is no number and the file of
the artifact can be measured. -/
def SizeKnown (artifactRoot : Path) (metrics : Metrics) (artifact : ArtifactRecord) : Prop :=
  match metrics (bytesMetric artifact.name) with
  | some (.int _) | some (.bool _) => True
  | some (.float value) => value.IsFinite
  | some .null | some (.text _) | none => FileMeasurable host artifactRoot artifact.uri

/-- The sizes of all artifacts are known, and a sum above the limit can be written down. -/
def ArtifactsMeasurable (artifactRoot : Path) (result : WorkerResult) (maxBytes : ℕ) : Prop :=
  (∀ artifact ∈ result.artifacts, SizeKnown host artifactRoot result.metrics artifact) ∧
    ∀ sizes : List ℤ,
      List.Forall₂ (fun artifact size =>
        artifactBytes host artifactRoot result.metrics artifact = .ok size) result.artifacts sizes →
      maxBytes < sizes.sum → Printable sizes.sum

/-- Where a policy limits the bytes of artifacts and does not have too many of them, they can be
measured. -/
def PolicyApplicable (result : WorkerResult) (policy : Option ResourcePolicy)
    (artifactRoot : Path) : Prop :=
  ∀ limits ∈ policy, exceedsMaxFiles limits result = false →
    ∀ maxBytes ∈ limits.filesystem.artifactMaxBytes,
      ArtifactsMeasurable host artifactRoot result maxBytes

section

variable {host}

/-- The size of a file is found exactly when looking for it raises nothing. -/
theorem exists_fileBytes {path : Path} :
  (∃ size, fileBytes host path = .ok size) ↔ StatReadable host path
  := by
  unfold fileBytes StatReadable
  cases host.isFile path with
  | error error => simp [bind, Except.bind]
  | ok found =>
      cases found with
      | false => simp [bind, Except.bind]
      | true => simp [Except.bind_eq_ok]

/-- The size of the file of an artifact is found exactly when it can be measured. -/
theorem exists_storedBytes {artifactRoot : Path} {uri : String} :
  (∃ size, storedBytes host artifactRoot uri = .ok size) ↔ FileMeasurable host artifactRoot uri
  := by
  unfold FileMeasurable storedBytes resolveArtifact
  cases host.resolve (artifactPath artifactRoot uri) with
  | error error => cases hvalue : error.isValueError <;> simp [bind, Except.bind, hvalue]
  | ok resolved =>
      cases host.resolve artifactRoot with
      | error error => cases hvalue : error.isValueError <;> simp [bind, Except.bind, hvalue]
      | ok root =>
          simp only [bind, Except.bind]
          cases relativeTo resolved root with
          | none => simp
          | some relative => simpa using exists_fileBytes

/-- The size of an artifact is found exactly when it is known. -/
theorem exists_artifactBytes {artifactRoot : Path} {metrics : Metrics} {artifact : ArtifactRecord} :
  (∃ size, artifactBytes host artifactRoot metrics artifact = .ok size) ↔
    SizeKnown host artifactRoot metrics artifact
  := by
  unfold artifactBytes SizeKnown
  cases metrics (bytesMetric artifact.name) with
  | none => exact exists_storedBytes
  | some scalar =>
      cases scalar with
      | null => exact exists_storedBytes
      | text value => exact exists_storedBytes
      | bool value => exact ⟨fun _ => trivial, fun _ => ⟨_, rfl⟩⟩
      | int value => exact ⟨fun _ => trivial, fun _ => ⟨_, rfl⟩⟩
      | float value => exact FloatValue.exists_toInt

/-- A message is written exactly when its number can be written down. -/
theorem exists_bytesMessage {total : ℤ} {maxBytes : ℕ} :
  (∃ message, bytesMessage total maxBytes = .ok message) ↔ Printable total
  := by
  rw [← exists_strInt, bytesMessage]
  cases strInt total <;> simp [bind, Except.bind]

/-- The bytes of the artifacts are compared with the limit exactly when they can be measured. -/
theorem exists_artifactBytesError {artifactRoot : Path} {result : WorkerResult} {maxBytes : ℕ} :
  (∃ error, artifactBytesError host artifactRoot result maxBytes = .ok error) ↔
    ArtifactsMeasurable host artifactRoot result maxBytes
  := by
  simp only [ArtifactsMeasurable, ← exists_artifactBytes, ← Except.exists_mapM_eq_ok,
    ← Except.mapM_eq_ok]
  unfold artifactBytesError
  cases h : result.artifacts.mapM (artifactBytes host artifactRoot result.metrics) with
  | error error => simp [bind, Except.bind]
  | ok sizes =>
      change (∃ error, (if maxBytes < sizes.sum then
        (bytesMessage sizes.sum maxBytes).map some
      else
        .ok none) = .ok error) ↔ _
      simp only [Except.ok.injEq, exists_eq', forall_eq', true_and]
      split
      case isTrue hsum =>
        simp only [hsum, forall_const]
        rw [← @exists_bytesMessage _ maxBytes]
        cases bytesMessage sizes.sum maxBytes <;> simp [Except.map]
      case isFalse hsum => simp [hsum]

/-- The policy for artifacts is applied exactly when it is applicable. -/
theorem exists_artifactPolicyError {result : WorkerResult} {policy : Option ResourcePolicy}
    {artifactRoot : Path} :
  (∃ error, artifactPolicyError host result policy artifactRoot = .ok error) ↔
    PolicyApplicable host result policy artifactRoot
  := by
  unfold artifactPolicyError PolicyApplicable
  cases policy with
  | none => simp
  | some limits =>
      cases hfiles : exceedsMaxFiles limits result with
      | true => simp [hfiles]
      | false =>
          cases hbytes : limits.filesystem.artifactMaxBytes with
          | none => simp [hfiles, hbytes]
          | some maxBytes => simp [hfiles, hbytes, exists_artifactBytesError]

end

/-! ### The end of a worker -/

/-- A prepared worker is for the run that it has been prepared for, with the policy of that run. -/
theorem prepareWorker_spec {host : DockerHost} {runtime : DockerRuntime} {kind : String}
    {metadata : WorkerMetadata} {input : JsonDict} {context : GoblinContext}
    {timeoutSeconds : Option ℤ} {resourcePolicy : Option ResourcePolicy} {prepared : PreparedRun}
    (h : prepareWorker host runtime kind metadata input context timeoutSeconds resourcePolicy
      = .ok prepared) :
  prepared.run.context.runId = context.runId ∧ prepared.run.resourcePolicy = resourcePolicy
  := by
  simp only [prepareWorker, Except.bind_eq_ok, Except.mapError_eq_ok] at h
  obtain ⟨image, -, ⟨resolved, runDir⟩, hsetUp, command, -, h⟩ := h
  simp only [setUpRun, Except.bind_eq_ok] at hsetUp
  obtain ⟨artifactRoot, -, directory, -, hsetUp⟩ := hsetUp
  cases hsetUp
  cases h
  exact ⟨rfl, rfl⟩

/-- Where a result is there, the policy for its artifacts can be applied. -/
def ResultJudgeable (prepared : PreparedRun) : Prop :=
  ∀ text, loadText host prepared.run.context.runId prepared.resultPath = .ok (some text) →
    PolicyApplicable host (parseResult host text) prepared.run.resourcePolicy
      (Path.parse prepared.run.context.artifactRoot)

/-- What answers the Docker runtime about a worker raises no exception that it does not catch. -/
def WorkerContained (prepared : PreparedRun) : Prop :=
  match host.launch prepared.command prepared.run.timeoutSeconds with
  | .raised error => error.kind = .osError
  | .timeoutExpired _ _ => HeartbeatsReadable host prepared.run.context.runId
  | .completed _ _ _ =>
      HeartbeatsReadable host prepared.run.context.runId ∧
        ResultReadable host prepared.run.context.runId prepared.resultPath ∧
        ResultJudgeable host prepared

section

variable {host} (hbus : host.eventBus = true) {prepared : PreparedRun}
include hbus

/-- A terminal event and a result behind it conclude a run. -/
theorem concluded_emitWorkerEvent {eventType : WorkerEventType}
    (hterminal : eventType.isTerminal = true) (context : GoblinContext) (workerId : String)
    (payload : List (String × JsonScalar)) (result : WorkerResult) :
  Concluded (EndsRun context.runId) (do
    emitWorkerEvent host eventType context workerId payload
    pure result)
  := by
  rw [emitWorkerEvent, emitEvent, if_pos hbus]
  apply concluded_emit
  exact ⟨hterminal, rfl⟩

/-- Judging a result concludes the run when the policy is applicable. -/
theorem concluded_judgeResult {result : WorkerResult} :
  Concluded (EndsRun prepared.run.context.runId) (judgeResult host prepared result) ↔
    PolicyApplicable host result prepared.run.resourcePolicy
      (Path.parse prepared.run.context.artifactRoot)
  := by
  rw [judgeResult, silent_ofExcept.concluded_bind, ← exists_artifactPolicyError]
  apply exists_congr
  intro error
  apply and_iff_left
  cases error with
  | none => exact concluded_emitWorkerEvent hbus rfl _ _ _ _
  | some error => exact concluded_emitWorkerEvent hbus rfl _ _ _ _

/-- A worker without a result concludes its run. -/
theorem concluded_missingResult (returncode : ℤ) (stdout stderr : String) :
  Concluded (EndsRun prepared.run.context.runId)
    (missingResult host prepared returncode stdout stderr)
  := by
  unfold missingResult
  split
  · exact concluded_emitWorkerEvent hbus rfl _ _ _ _
  · exact concluded_emitWorkerEvent hbus rfl _ _ _ _

/-- Behind heartbeats that can be read and the output, what follows concludes the run. -/
theorem concluded_afterOutput {stdout stderr : Output} {exitCode : Option ℤ} {timedOut : Bool}
    {rest : Emission WorkerEvent Raised WorkerResult} :
  Concluded (EndsRun prepared.run.context.runId) (do
      recordWorkerHeartbeats host prepared.run.context
      emitContainerLogEvent host prepared stdout stderr exitCode timedOut
      rest) ↔
    HeartbeatsReadable host prepared.run.context.runId ∧
      Concluded (EndsRun prepared.run.context.runId) rest
  := by
  rw [(silent_recordWorkerHeartbeats _).concluded_bind, ← recordWorkerHeartbeats_ok hbus]
  have houtput : Concluded (EndsRun prepared.run.context.runId) (do
      emitContainerLogEvent host prepared stdout stderr exitCode timedOut
      rest) ↔ Concluded (EndsRun prepared.run.context.runId) rest := by
    rw [(silent_emitContainerLogEvent prepared stdout stderr exitCode timedOut).concluded_bind]
    constructor
    · rintro ⟨_, -, hrest⟩
      exact hrest
    · intro hrest
      exact ⟨(), outcome_emitEvent _, hrest⟩
  simp only [houtput, exists_and_right]

/-- A worker concludes its run exactly when nothing is raised that is not caught. -/
theorem concluded_superviseWorker :
  Concluded (EndsRun prepared.run.context.runId) (superviseWorker host prepared) ↔
    WorkerContained host prepared
  := by
  unfold superviseWorker WorkerContained
  cases host.launch prepared.command prepared.run.timeoutSeconds with
  | raised error =>
      dsimp only
      unfold failLaunch
      split
      case isTrue hos =>
        constructor
        · exact fun _ => hos
        · exact fun _ => concluded_emitWorkerEvent hbus rfl _ _ _ _
      case isFalse hos =>
        constructor
        · rintro ⟨⟨_, hresult⟩, -⟩
          cases hresult
        · intro hos'
          cases hos hos'
  | timeoutExpired stdout stderr =>
      dsimp only
      rw [expireWorker, concluded_afterOutput hbus]
      apply and_iff_left
      exact concluded_emitWorkerEvent hbus rfl _ _ _ _
  | completed returncode stdout stderr =>
      dsimp only
      rw [finishWorker, concluded_afterOutput hbus, silent_ofExcept.concluded_bind,
        ← exists_loadText, ResultJudgeable]
      apply and_congr_right
      intro _
      unfold loadResult
      cases loadText host prepared.run.context.runId prepared.resultPath with
      | error error => simp [Emission.ofExcept, bind, Except.bind]
      | ok text =>
          cases text with
          | none =>
              simpa [Emission.ofExcept, bind, Except.bind]
                using concluded_missingResult hbus returncode stdout stderr
          | some text =>
              simpa [Emission.ofExcept, bind, Except.bind] using concluded_judgeResult hbus

/-- A prepared worker is started, and its lifecycle is well formed exactly when the run is concluded
behind the start. -/
theorem lifecycleWellFormed_iff_concluded {runtime : DockerRuntime} {kind : String}
    {metadata : WorkerMetadata} {input : JsonDict} {context : GoblinContext}
    {timeoutSeconds : Option ℤ} {resourcePolicy : Option ResourcePolicy}
    (hprepared : prepareWorker host runtime kind metadata input context timeoutSeconds
      resourcePolicy = .ok prepared) :
  (∃ event ∈ (dockerRuntimeRun host runtime kind metadata input context timeoutSeconds
      resourcePolicy).events, StartsRun context.runId event) ∧
    (LifecycleWellFormed context.runId (dockerRuntimeRun host runtime kind metadata input context
        timeoutSeconds resourcePolicy) ↔
      Concluded (EndsRun prepared.run.context.runId) (superviseWorker host prepared))
  := by
  obtain ⟨started, hstarts, hevents, houtcome⟩ : ∃ started, StartsRun context.runId started ∧
      (dockerRuntimeRun host runtime kind metadata input context timeoutSeconds
        resourcePolicy).events = started :: (superviseWorker host prepared).events ∧
      (dockerRuntimeRun host runtime kind metadata input context timeoutSeconds
        resourcePolicy).outcome = (superviseWorker host prepared).outcome := by
    rw [dockerRuntimeRun, hprepared]
    dsimp only
    rw [emitWorkerEvent, emitEvent, if_pos hbus, bind_of_ok rfl]
    exact ⟨_, ⟨rfl, congrArg some (prepareWorker_spec hprepared).1⟩, rfl, rfl⟩
  rw [hevents, (prepareWorker_spec hprepared).1]
  use ⟨started, List.mem_cons_self, hstarts⟩
  rw [LifecycleWellFormed, Concluded, hevents, houtcome]
  apply and_congr_right
  intro _
  constructor
  · rintro ⟨first, during, ended, heq, -, hended, hduring⟩
    obtain ⟨-, heq⟩ := List.cons.inj heq
    exact ⟨during, ended, heq, hended, hduring⟩
  · rintro ⟨during, ended, heq, hended, hduring⟩
    exact ⟨started, during, ended, congrArg _ heq, hstarts, hended, hduring⟩

end

/-- Behind the start of a worker, the run returns a result and emits one terminal event as its last
one, exactly when what answers the runtime raises no exception that it does not catch. -/
theorem dockerRuntimeRun_lifecycle (runtime : DockerRuntime) (kind : String)
    (metadata : WorkerMetadata) (input : JsonDict) (context : GoblinContext)
    (timeoutSeconds : Option ℤ) (resourcePolicy : Option ResourcePolicy) {prepared : PreparedRun}
    (hbus : host.eventBus = true)
    (hprepared : prepareWorker host runtime kind metadata input context timeoutSeconds
      resourcePolicy = .ok prepared) :
  (∃ event ∈ (dockerRuntimeRun host runtime kind metadata input context timeoutSeconds
      resourcePolicy).events, StartsRun context.runId event) ∧
    (LifecycleWellFormed context.runId (dockerRuntimeRun host runtime kind metadata input context
        timeoutSeconds resourcePolicy) ↔
      WorkerContained host prepared)
  := by
  obtain ⟨hstarted, hiff⟩ := lifecycleWellFormed_iff_concluded hbus hprepared
  use hstarted
  rw [hiff, concluded_superviseWorker hbus]

/-- The text of a result that is a success. -/
def successText : String :=
  "\x7b\"status\": \"success\"\x7d"

/-- A host whose Redis has a value under every key of a result. -/
def respondingHost (value : ByteArray) : DockerHost where
  library := plainHost
  environ := secretEnvironment
  exception message := ⟨.other, message⟩
  eventBus := true
  workerImage _ := .ok "worker"
  makeDirectory _ := .ok ()
  writeText _ _ := .ok ()
  contextJson _ := .ok "\x7b\x7d"
  launch _ _ := .completed 0 "" ""
  lrange _ := .ok []
  expire _ := .ok ()
  readHeartbeat _ := .ok ()
  get _ := .ok (some (.bytes value))
  pathExists _ := .ok false
  readBytes _ := .error ⟨.osError, "No such file or directory"⟩
  isFile _ := .ok false
  fileSize _ := .error ⟨.osError, "No such file or directory"⟩
  modelValidateJson text :=
    if text = successText then .ok { status := .success } else .error "Invalid JSON"
  decodeError _ := "invalid start byte"
  decodeReplacing _ := "\ufffd"
  reprText _ := "b''"
  strip text := text

/-- The context of a report. -/
def reportContext : GoblinContext where
  runId := "run-1"
  artifactRoot := "/data/artifacts"

/-- A report is prepared on such a host. -/
theorem exists_preparedReport (value : ByteArray) :
  ∃ prepared, prepareWorker (respondingHost value) localRuntime "report" ⟨none, none⟩ .empty
    reportContext none none = .ok prepared
  := by
  have hroot : resolveDockerArtifactRoot plainHost localRuntime.runRoot "/data/artifacts"
      = .ok ⟨true, ["data", "artifacts"]⟩ := by
    decide +kernel
  have hposix : asPosix ⟨true, ["data", "artifacts"]⟩ = "/data/artifacts" := by
    decide +kernel
  have hvolume : dataVolume secretEnvironment = none := by
    simp [dataVolume, ProcessEnvironment.nonempty, secretEnvironment]
  simp only [prepareWorker, setUpRun, prepareRunDir, dockerRunCommand, dataPaths, hvolume,
    reportContext, respondingHost, hroot, hposix, bind, Except.bind, Except.mapError]
  exact ⟨_, rfl⟩

/-- A report whose result is a text is concluded. -/
theorem report_lifecycle :
  LifecycleWellFormed "run-1" (dockerRuntimeRun (respondingHost successText.toUTF8) localRuntime
    "report" ⟨none, none⟩ .empty reportContext none none)
  := by
  obtain ⟨prepared, hprepared⟩ := exists_preparedReport successText.toUTF8
  apply (dockerRuntimeRun_lifecycle (respondingHost successText.toUTF8) localRuntime "report"
    ⟨none, none⟩ .empty reportContext none none rfl hprepared).2.mpr
  refine ⟨?_, ?_, ?_⟩
  · intro error herror
    cases herror
  · exact successText.isValidUTF8
  · intro text htext limits hlimits
    rw [(prepareWorker_spec hprepared).2] at hlimits
    cases hlimits

/-- A report whose result is the byte 255 has been started and is not concluded. -/
theorem undecodableReport_lifecycle :
  (∃ event ∈ (dockerRuntimeRun (respondingHost ⟨#[255]⟩) localRuntime "report" ⟨none, none⟩ .empty
      reportContext none none).events, StartsRun "run-1" event) ∧
    ¬ LifecycleWellFormed "run-1" (dockerRuntimeRun (respondingHost ⟨#[255]⟩) localRuntime "report"
      ⟨none, none⟩ .empty reportContext none none)
  := by
  obtain ⟨prepared, hprepared⟩ := exists_preparedReport ⟨#[255]⟩
  obtain ⟨hstarted, hiff⟩ := lifecycleWellFormed_iff_concluded rfl hprepared
  use hstarted
  rw [show "run-1" = reportContext.runId by rfl, hiff, concluded_superviseWorker rfl]
  rintro ⟨-, hvalid, -⟩
  exact absurd hvalid (show ¬ ByteArray.IsValidUTF8 ⟨#[255]⟩ by decide +kernel)

end GoblinKing
