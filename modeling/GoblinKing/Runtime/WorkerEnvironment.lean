import GoblinKing.Library.Definitions
import GoblinKing.ResourcePolicies
import Mathlib.Data.List.Sort

/-!
# The environment of a worker

The environment variables of a worker container. The container contract assigns variables to
every run, and a project adds literal variables of its own and the names of variables that hold
secrets. Both runtimes compose the environment as a list of definitions of which the last one for
a name wins.
-/

namespace GoblinKing

open Definitions

/-! ### The contract -/

/-- The variables of the container contract. -/
inductive ContractVariable where
  | contractVersion
  | runId
  | jobId
  | workerId
  | inputPath
  | contextPath
  | resultPath
  | artifactRoot
  | redisUrl
  | heartbeatRedisUrl
  | heartbeatChannel
  | heartbeatKey
  | heartbeatIntervalSeconds
  | runEventContractVersion
  | runEventRedisUrl
  | runEventStream
  | runEventSequenceKey
  | runEventRateKey
  | runEventMaxEvents
  | runEventMaxPayloadBytes
  | runEventMinIntervalMs
  | runEventTtlSeconds
  | effectiveResourcePolicyJson
  deriving DecidableEq

/-- The name of a contract variable. -/
def ContractVariable.name : ContractVariable → String
  | .contractVersion => "GOBLIN_CONTRACT_VERSION"
  | .runId => "GOBLIN_RUN_ID"
  | .jobId => "GOBLIN_JOB_ID"
  | .workerId => "GOBLIN_WORKER_ID"
  | .inputPath => "GOBLIN_INPUT_PATH"
  | .contextPath => "GOBLIN_CONTEXT_PATH"
  | .resultPath => "GOBLIN_RESULT_PATH"
  | .artifactRoot => "GOBLIN_ARTIFACT_ROOT"
  | .redisUrl => "GOBLIN_REDIS_URL"
  | .heartbeatRedisUrl => "GOBLIN_HEARTBEAT_REDIS_URL"
  | .heartbeatChannel => "GOBLIN_HEARTBEAT_CHANNEL"
  | .heartbeatKey => "GOBLIN_HEARTBEAT_KEY"
  | .heartbeatIntervalSeconds => "GOBLIN_HEARTBEAT_INTERVAL_SECONDS"
  | .runEventContractVersion => "GOBLIN_RUN_EVENT_CONTRACT_VERSION"
  | .runEventRedisUrl => "GOBLIN_RUN_EVENT_REDIS_URL"
  | .runEventStream => "GOBLIN_RUN_EVENT_STREAM"
  | .runEventSequenceKey => "GOBLIN_RUN_EVENT_SEQUENCE_KEY"
  | .runEventRateKey => "GOBLIN_RUN_EVENT_RATE_KEY"
  | .runEventMaxEvents => "GOBLIN_RUN_EVENT_MAX_EVENTS"
  | .runEventMaxPayloadBytes => "GOBLIN_RUN_EVENT_MAX_PAYLOAD_BYTES"
  | .runEventMinIntervalMs => "GOBLIN_RUN_EVENT_MIN_INTERVAL_MS"
  | .runEventTtlSeconds => "GOBLIN_RUN_EVENT_TTL_SECONDS"
  | .effectiveResourcePolicyJson => "GOBLIN_EFFECTIVE_RESOURCE_POLICY_JSON"

/-- Contract variables have different names. -/
theorem ContractVariable.name_injective : Function.Injective ContractVariable.name
  := by
  intro var other h
  cases var <;> cases other <;> first
    | rfl
    | simp [name] at h

/-- The name of a contract variable has no equals sign. -/
theorem ContractVariable.equals_notMem_name (var : ContractVariable) :
  '=' ∉ var.name.toList
  := by
  cases var <;> simp [name]

/-- A placement declaration: the labels a node must have, and those it should have. A value is
`none` where it is not a text. -/
structure PlacementDeclaration where
  required : List (String × Option String) := []
  preferred : List (String × Option String) := []
  deriving DecidableEq

/-- The context of one run, with the texts that are read from its metadata: the identifiers of job
and project and the kind, empty when there are none, and the placement declarations in the
definition of the goblin and in the metadata itself. -/
structure GoblinContext where
  runId : String
  jobId : String := ""
  projectId : String := ""
  kind : String := ""
  artifactRoot : String
  definitionPlacement : Option PlacementDeclaration := none
  placement : Option PlacementDeclaration := none
  deriving DecidableEq

/-- Where a worker finds its input and leaves its output. -/
structure WorkerPaths where
  input : String
  context : String
  result : String
  artifactRoot : String
  deriving DecidableEq

/-- What a runtime computes for the contract with a worker. -/
structure WorkerContract where
  context : GoblinContext
  workerId : String
  paths : WorkerPaths
  redisUrl : String
  heartbeatIntervalSeconds : ℤ
  /-- the effective resource policy as JSON, if there is one -/
  policyJson : Option String

/-- `worker_heartbeat_key` -/
def workerHeartbeatKey (runId : String) : String :=
  "goblin-king:heartbeats:" ++ runId

/-- `run_event_stream_key` -/
def runEventStreamKey (runId : String) : String :=
  "goblin-king:run-events:" ++ runId

/-- `run_event_sequence_key` -/
def runEventSequenceKey (runId : String) : String :=
  "goblin-king:run-events:" ++ runId ++ ":sequence"

/-- `run_event_rate_key` -/
def runEventRateKey (runId : String) : String :=
  "goblin-king:run-events:" ++ runId ++ ":rate"

/-- The value that the contract assigns to a variable. -/
def WorkerContract.value (contract : WorkerContract) : ContractVariable → Option String
  | .contractVersion => some "goblin-king/v1alpha1"
  | .runId => some contract.context.runId
  | .jobId => some contract.context.jobId
  | .workerId => some contract.workerId
  | .inputPath => some contract.paths.input
  | .contextPath => some contract.paths.context
  | .resultPath => some contract.paths.result
  | .artifactRoot => some contract.paths.artifactRoot
  | .redisUrl => some contract.redisUrl
  | .heartbeatRedisUrl => some contract.redisUrl
  | .heartbeatChannel => some "goblin-king:heartbeats"
  | .heartbeatKey => some (workerHeartbeatKey contract.context.runId)
  | .heartbeatIntervalSeconds => some (toString contract.heartbeatIntervalSeconds)
  | .runEventContractVersion => some "goblin-king/v1alpha1"
  | .runEventRedisUrl => some contract.redisUrl
  | .runEventStream => some (runEventStreamKey contract.context.runId)
  | .runEventSequenceKey => some (runEventSequenceKey contract.context.runId)
  | .runEventRateKey => some (runEventRateKey contract.context.runId)
  | .runEventMaxEvents => some "256"
  | .runEventMaxPayloadBytes => some "4096"
  | .runEventMinIntervalMs => some "50"
  | .runEventTtlSeconds => some "3600"
  | .effectiveResourcePolicyJson => contract.policyJson

/-- The first definitions of the environment, which both runtimes make in the same order. -/
def contractDefinitions (context : GoblinContext) (workerId : String) (paths : WorkerPaths)
    (redisUrl : String) (heartbeatIntervalSeconds : ℤ) : List (ContractVariable × String) :=
  [(.contractVersion, "goblin-king/v1alpha1"),
    (.runId, context.runId),
    (.jobId, context.jobId),
    (.workerId, workerId),
    (.inputPath, paths.input),
    (.contextPath, paths.context),
    (.resultPath, paths.result),
    (.artifactRoot, paths.artifactRoot),
    (.redisUrl, redisUrl),
    (.heartbeatRedisUrl, redisUrl),
    (.heartbeatChannel, "goblin-king:heartbeats"),
    (.heartbeatKey, workerHeartbeatKey context.runId),
    (.heartbeatIntervalSeconds, toString heartbeatIntervalSeconds)]

/-- `worker_run_event_environment` -/
def workerRunEventEnvironment (runId redisUrl : String) : List (ContractVariable × String) :=
  [(.runEventContractVersion, "goblin-king/v1alpha1"),
    (.runEventRedisUrl, redisUrl),
    (.runEventStream, runEventStreamKey runId),
    (.runEventSequenceKey, runEventSequenceKey runId),
    (.runEventRateKey, runEventRateKey runId),
    (.runEventMaxEvents, "256"),
    (.runEventMaxPayloadBytes, "4096"),
    (.runEventMinIntervalMs, "50"),
    (.runEventTtlSeconds, "3600")]

/-- The definition of the effective resource policy. -/
def policyDefinitions (policyJson : Option String) : List (ContractVariable × String) :=
  policyJson.toList.map (fun text => (.effectiveResourcePolicyJson, text))

/-- A definition under the name of its variable. -/
def named (definitions : List (ContractVariable × String)) : List (String × String) :=
  definitions.map (Prod.map ContractVariable.name id)

/-- The definitions of the paths that replace earlier ones. -/
def pathDefinitions (paths : Option WorkerPaths) : List (ContractVariable × String) :=
  match paths with
  | none => []
  | some paths =>
      [(.inputPath, paths.input),
        (.contextPath, paths.context),
        (.resultPath, paths.result),
        (.artifactRoot, paths.artifactRoot)]

/-- Without definitions of others in between, every variable has the value of the contract. -/
theorem effective_contract {contract : WorkerContract} {first : WorkerPaths}
    {paths : Option WorkerPaths} (hpaths : contract.paths = paths.getD first)
    (var : ContractVariable) :
  effective (contractDefinitions contract.context contract.workerId first contract.redisUrl
      contract.heartbeatIntervalSeconds
    ++ workerRunEventEnvironment contract.context.runId contract.redisUrl
    ++ (policyDefinitions contract.policyJson ++ pathDefinitions paths)) var
    = contract.value var
  := by
  obtain ⟨context, workerId, contractPaths, redisUrl, interval, policyJson⟩ := contract
  subst hpaths
  cases policyJson <;> cases paths <;> cases var <;> rfl

/-! ### Project variables -/

/-- The object under `env` in the metadata of a goblin: its keys, and its values as texts, `none`
for a null value. -/
structure MetadataObject where
  entries : List (String × Option String)
  distinct : (entries.map Prod.fst).Nodup

/-- `literal_worker_environment`, on the value under `env`, which is `none` where it is not an
object. -/
def literalWorkerEnvironment (metadataEnv : Option MetadataObject) : List (String × String) :=
  match metadataEnv with
  | none => []
  | some object =>
      object.entries.filterMap (fun (key, value) =>
        if key = "" then none else value.map (fun value => (key, value)))

/-- `_worker_secret_refs`, on the texts of the list under `secret_refs`, which is `none` where it
is not a list. -/
def workerSecretRefs (metadataSecretRefs : Option (List String)) : List String :=
  match metadataSecretRefs with
  | none => []
  | some names => names.filter (· ≠ "")

/-- Filtering definitions by their keys and values leaves some of the keys, in their order. -/
theorem keys_literalWorkerEnvironment (object : MetadataObject) :
  ((literalWorkerEnvironment (some object)).map Prod.fst).Sublist (object.entries.map Prod.fst)
  := by
  obtain ⟨entries, distinct⟩ := object
  simp only [literalWorkerEnvironment]
  clear distinct
  induction entries with
  | nil => apply List.Sublist.refl
  | cons entry entries ih =>
      obtain ⟨key, value⟩ := entry
      by_cases hkey : key = ""
      · simpa [hkey] using ih.trans (List.sublist_cons_self "" _)
      · cases value with
        | none => simpa [hkey] using ih.trans (List.sublist_cons_self key _)
        | some value => simpa [hkey] using ih

/-- A literal environment has one value for each of its keys. -/
theorem nodup_literalWorkerEnvironment (metadataEnv : Option MetadataObject) :
  ((literalWorkerEnvironment metadataEnv).map Prod.fst).Nodup
  := by
  cases metadataEnv with
  | none => apply List.nodup_nil
  | some object => apply object.distinct.sublist (keys_literalWorkerEnvironment object)

/-- The literal variables in the order of their keys. -/
def sortedEnvironment (workerEnv : List (String × String)) : List (String × String) :=
  workerEnv.insertionSort (fun first second => first.1 ≤ second.1)

/-- Sorting does not change what a literal environment sets. -/
theorem effective_sortedEnvironment {workerEnv : List (String × String)}
    (hdistinct : (workerEnv.map Prod.fst).Nodup) (name : String) :
  effective (sortedEnvironment workerEnv) name = effective workerEnv name
  := by
  have hperm : (sortedEnvironment workerEnv).Perm workerEnv := List.perm_insertionSort _ _
  rw [effective_perm hperm.symm hdistinct]

end GoblinKing
