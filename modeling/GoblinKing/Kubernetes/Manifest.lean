import GoblinKing.Runtime.WorkerEnvironment
import Mathlib.Algebra.Order.Ring.Rat
import Mathlib.Data.PNat.Basic

/-!
# The manifest of a worker Job

The Job that runs one worker in Kubernetes. It is put together from the container of the worker
with its resource policy, the container that forwards the result, volumes for temporary files and
for retained artifacts, the restricted security profile, and the placement. The source puts the
containers into the specification of the Pod and completes them in place; here they are completed
first.
-/

namespace GoblinKing

/-- Functions outside of the repository, and the script of the forwarder of earlier images. -/
structure KubernetesLibrary where
  /-- `parse_quantity`, `none` where it raises -/
  parseQuantity : String → Option ℚ
  /-- `str.strip` -/
  strip : String → String
  /-- `json.dumps` of a policy without its unset fields -/
  policyJson : ResourcePolicy → String
  resultForwarderScript : String

/-! ### Fragments of a Pod -/

/-- Requests or limits of a container. -/
structure ResourceList where
  cpu : Option String := none
  memory : Option String := none
  deriving DecidableEq

/-- The resources of a container. -/
structure Resources where
  requests : ResourceList := {}
  limits : ResourceList := {}
  deriving DecidableEq

/-- The security context of a container. -/
structure ContainerSecurityContext where
  allowPrivilegeEscalation : Option Bool := none
  capabilitiesDrop : List String := []
  privileged : Option Bool := none
  readOnlyRootFilesystem : Option Bool := none
  runAsNonRoot : Option Bool := none
  runAsUser : Option ℕ := none
  runAsGroup : Option ℕ := none
  seccompProfile : Option String := none
  deriving DecidableEq

/-- The security context of a Pod. -/
structure PodSecurityContext where
  runAsNonRoot : Bool
  runAsUser : ℕ
  runAsGroup : ℕ
  fsGroup : ℕ
  fsGroupChangePolicy : String
  seccompProfile : String
  deriving DecidableEq

/-- The source of a volume. -/
inductive VolumeSource where
  | configMap (name : String)
  | emptyDir (medium sizeLimit : Option String)
  | persistentVolumeClaim (claimName : String)
  /-- a token of the service account, the certificate of the cluster and the namespace -/
  | projected (defaultMode expirationSeconds : ℕ)
  deriving DecidableEq

/-- A volume of a Pod. -/
structure Volume where
  name : String
  source : VolumeSource
  deriving DecidableEq

/-- A volume in a container. -/
structure VolumeMount where
  name : String
  mountPath : String
  readOnly : Bool := false
  subPath : Option String := none
  deriving DecidableEq

/-- A container of a Pod. -/
structure Container where
  name : String
  image : String
  imagePullPolicy : String
  command : List String := []
  env : List (String × String)
  volumeMounts : List VolumeMount
  resources : Option Resources := none
  securityContext : Option ContainerSecurityContext := none
  deriving DecidableEq

/-- The specification of a Pod. -/
structure PodSpec where
  restartPolicy : String
  containers : List Container
  volumes : List Volume
  imagePullSecrets : List String := []
  automountServiceAccountToken : Option Bool := none
  serviceAccountName : Option String := none
  securityContext : Option PodSecurityContext := none
  nodeSelector : List (String × String) := []
  preferredNodes : List (String × String) := []
  deriving DecidableEq

/-- The manifest of a Job. -/
structure JobManifest where
  name : String
  labels : List (String × String)
  backoffLimit : ℕ
  activeDeadlineSeconds : Option ℤ
  podSpec : PodSpec
  deriving DecidableEq

/-! ### Settings -/

/-- A quantity that the settings accept. -/
structure KubernetesQuantity (library : KubernetesLibrary) where
  text : String
  number : ℚ
  parsed : library.parseQuantity text = some number
  positive : 0 < number

/-- `validate_quantity`, after the blanks around the text are removed. -/
def validateQuantity (library : KubernetesLibrary) (value : String) :
    Except String (KubernetesQuantity library) :=
  if library.strip value = "" then
    .error "String should have at least 1 character"
  else
    match h : library.parseQuantity (library.strip value) with
    | none => .error ("invalid Kubernetes resource quantity: " ++ library.strip value)
    | some parsed =>
        if positive : 0 < parsed then
          .ok ⟨library.strip value, parsed, h, positive⟩
        else
          .error "Kubernetes resource quantities must be greater than zero"

/-- Complete CPU and memory bounds for one restricted workload container. -/
structure KubernetesContainerResources (library : KubernetesLibrary) where
  cpuRequest : KubernetesQuantity library
  cpuLimit : KubernetesQuantity library
  memoryRequest : KubernetesQuantity library
  memoryLimit : KubernetesQuantity library
  cpuWithin : cpuRequest.number ≤ cpuLimit.number
  memoryWithin : memoryRequest.number ≤ memoryLimit.number

/-- The constructor of `KubernetesContainerResources` with its validators. -/
def kubernetesContainerResources (library : KubernetesLibrary)
    (cpuRequest cpuLimit memoryRequest memoryLimit : String) :
    Except String (KubernetesContainerResources library) := do
  let cpuRequest ← validateQuantity library cpuRequest
  let cpuLimit ← validateQuantity library cpuLimit
  let memoryRequest ← validateQuantity library memoryRequest
  let memoryLimit ← validateQuantity library memoryLimit
  if cpuWithin : cpuRequest.number ≤ cpuLimit.number then
    if memoryWithin : memoryRequest.number ≤ memoryLimit.number then
      .ok ⟨cpuRequest, cpuLimit, memoryRequest, memoryLimit, cpuWithin, memoryWithin⟩
    else
      .error "memory request must not exceed memory limit"
  else
    .error "CPU request must not exceed CPU limit"

/-- The resources fragment for one container. -/
def KubernetesContainerResources.manifest {library : KubernetesLibrary}
    (resources : KubernetesContainerResources library) : Resources where
  requests := ⟨some resources.cpuRequest.text, some resources.memoryRequest.text⟩
  limits := ⟨some resources.cpuLimit.text, some resources.memoryLimit.text⟩

/-- Versioned restricted profile inputs without arbitrary Pod fragments. -/
structure KubernetesRestrictedWorkloadSettings (library : KubernetesLibrary) where
  runAsUser : ℕ+ := 65532
  runAsGroup : ℕ+ := 65532
  fsGroup : ℕ+ := 65532
  workerResources : KubernetesContainerResources library
  resultForwarderResources : KubernetesContainerResources library
  workerServiceAccountNames : List (String × String) := []

/-- `service_account_for` -/
def KubernetesRestrictedWorkloadSettings.serviceAccountFor {library : KubernetesLibrary}
    (settings : KubernetesRestrictedWorkloadSettings library) (kind : Option String) :
    Option String :=
  kind.bind (fun kind => settings.workerServiceAccountNames.lookup kind)

/-- `pod_security_context` -/
def KubernetesRestrictedWorkloadSettings.podSecurityContext {library : KubernetesLibrary}
    (settings : KubernetesRestrictedWorkloadSettings library) : PodSecurityContext where
  runAsNonRoot := true
  runAsUser := settings.runAsUser
  runAsGroup := settings.runAsGroup
  fsGroup := settings.fsGroup
  fsGroupChangePolicy := "OnRootMismatch"
  seccompProfile := "RuntimeDefault"

/-- `container_security_context` -/
def KubernetesRestrictedWorkloadSettings.containerSecurityContext {library : KubernetesLibrary}
    (settings : KubernetesRestrictedWorkloadSettings library) : ContainerSecurityContext where
  allowPrivilegeEscalation := some false
  capabilitiesDrop := ["ALL"]
  privileged := some false
  readOnlyRootFilesystem := some true
  runAsNonRoot := some true
  runAsUser := some settings.runAsUser
  runAsGroup := some settings.runAsGroup
  seccompProfile := some "RuntimeDefault"

/-- The operator-owned PVC projection used by result forwarders. -/
structure KubernetesArtifactRetention where
  claimName : String
  volumeSubdirectory : String := "artifacts"
  uriRoot : String := "/data/artifacts"
  volumeMountPath : String := "/goblin-retained-artifacts"

/-- `KubernetesWorkloadSecurityProfile` -/
inductive WorkloadSecurityProfile where
  | legacy
  | restrictedV1
  deriving DecidableEq

/-- Operator settings for generated Kubernetes worker Pods. -/
structure KubernetesRuntimeSettings (library : KubernetesLibrary) where
  resultForwarderImage : String := "goblin-king:local"
  workerImagePullPolicy : String := "IfNotPresent"
  resultForwarderImagePullPolicy : String := "IfNotPresent"
  workloadImagePullSecretNames : List String := []
  workloadSecurityProfile : WorkloadSecurityProfile := .legacy
  restrictedWorkload : KubernetesRestrictedWorkloadSettings library
  artifactRetention : Option KubernetesArtifactRetention := none

/-! ### Containers -/

/-- `kubernetes_policy_fields`: the resources and the security context of a policy. -/
def kubernetesPolicyFields (policy : ResourcePolicy) :
    Option Resources × Option ContainerSecurityContext :=
  let requests : ResourceList :=
    ⟨policy.cpu.request.filter (· ≠ ""), policy.memory.request.filter (· ≠ "")⟩
  let limits : ResourceList :=
    ⟨policy.cpu.limit.filter (· ≠ ""), policy.memory.limit.filter (· ≠ "")⟩
  (if requests = {} ∧ limits = {} then none else some ⟨requests, limits⟩,
    if policy.filesystem.readOnlyRoot = some true then
      some { readOnlyRootFilesystem := some true }
    else
      none)

/-- The paths in a worker container. -/
def kubernetesPaths : WorkerPaths where
  input := "/goblin-config/input.json"
  context := "/goblin-config/context.json"
  result := "/goblin-result/result.json"
  artifactRoot := "/artifacts"

/-- The labels of a placement. -/
structure Placement where
  required : List (String × String) := []
  preferred : List (String × String) := []
  deriving DecidableEq

/-- The worker that a Job runs. -/
structure WorkerJob where
  name : String
  configName : String
  image : String
  context : GoblinContext
  workerId : String
  timeoutSeconds : Option ℤ := none
  redisUrl : String
  heartbeatIntervalSeconds : ℤ := 5
  resourcePolicy : Option ResourcePolicy := none
  placement : Option Placement := none
  kind : Option String := none
  workerEnv : List (String × String) := []

variable {library : KubernetesLibrary}

/-- The environment of a worker container. -/
def workerContainerEnv (library : KubernetesLibrary) (job : WorkerJob) :
    List (String × String) :=
  named (contractDefinitions job.context job.workerId kubernetesPaths job.redisUrl
      job.heartbeatIntervalSeconds)
    ++ named (workerRunEventEnvironment job.context.runId job.redisUrl)
    ++ sortedEnvironment job.workerEnv
    ++ named (policyDefinitions (job.resourcePolicy.map library.policyJson))

/-- `_worker_container` -/
def workerContainer (settings : KubernetesRuntimeSettings library) (job : WorkerJob) :
    Container where
  name := "worker"
  image := job.image
  imagePullPolicy := settings.workerImagePullPolicy
  env := workerContainerEnv library job
  volumeMounts :=
    [{ name := "input", mountPath := "/goblin-config", readOnly := true },
      { name := "result", mountPath := "/goblin-result" },
      { name := "artifacts", mountPath := "/artifacts" }]
  resources := (job.resourcePolicy.map kubernetesPolicyFields).bind Prod.fst
  securityContext := (job.resourcePolicy.map kubernetesPolicyFields).bind Prod.snd

/-- The variables that both kinds of forwarders have. -/
def forwarderEnv (job : WorkerJob) : List (String × String) :=
  let timeout := (job.timeoutSeconds.filter (· ≠ 0)).getD 300
  [("GOBLIN_RUN_ID", job.context.runId),
    ("GOBLIN_REDIS_URL", job.redisUrl),
    ("GOBLIN_RESULT_PATH", "/goblin-result/result.json"),
    ("GOBLIN_RESULT_WAIT_SECONDS", toString (timeout + 15))]

/-- The container that forwards the result where no artifacts are retained. -/
def legacyResultForwarderContainer (settings : KubernetesRuntimeSettings library)
    (job : WorkerJob) : Container where
  name := "result-forwarder"
  image := settings.resultForwarderImage
  imagePullPolicy := settings.resultForwarderImagePullPolicy
  command := ["python", "-c", library.resultForwarderScript]
  env := forwarderEnv job
  volumeMounts := [{ name := "result", mountPath := "/goblin-result" }]

/-- The container that forwards the result. -/
def resultForwarderContainer (settings : KubernetesRuntimeSettings library)
    (job : WorkerJob) : Container :=
  match settings.artifactRetention with
  | none => legacyResultForwarderContainer settings job
  | some retention =>
      let maxFiles := (job.resourcePolicy.bind (·.filesystem.artifactMaxFiles)).getD 100
      let maxBytes := (job.resourcePolicy.bind (·.filesystem.artifactMaxBytes)).getD 104857600
      { name := "result-forwarder"
        image := settings.resultForwarderImage
        imagePullPolicy := settings.resultForwarderImagePullPolicy
        command := ["python", "-m", "goblin_king.kubernetes_result_forwarder"]
        env := forwarderEnv job ++
          [("GOBLIN_ARTIFACT_SOURCE_ROOT", "/artifacts"),
            ("GOBLIN_ARTIFACT_PROJECT_ID", job.context.projectId),
            ("GOBLIN_ARTIFACT_MAX_FILES", toString maxFiles),
            ("GOBLIN_ARTIFACT_MAX_BYTES", toString maxBytes),
            ("GOBLIN_ARTIFACT_DESTINATION_ROOT", retention.volumeMountPath),
            ("GOBLIN_KING_K8S_ARTIFACT_URI_ROOT", retention.uriRoot)]
        volumeMounts :=
          [{ name := "result", mountPath := "/goblin-result" },
            { name := "artifacts", mountPath := "/artifacts", readOnly := true },
            { name := "retained-artifacts"
              mountPath := retention.volumeMountPath
              subPath := some retention.volumeSubdirectory }] }

/-! ### Temporary files -/

/-- A digit of a size. -/
def isSizeDigit (c : Char) : Bool :=
  '0' ≤ c && c ≤ '9'

/-- The unit of a Docker size in the words of Kubernetes. A letter is compared without regard to
case, and the Kelvin sign is a letter k. -/
def tmpfsUnit : List Char → Option String
  | [] | ['b'] | ['B'] => some ""
  | c :: rest =>
      if rest ≠ [] ∧ rest ≠ ['b'] ∧ rest ≠ ['B'] then
        none
      else if c = 'k' ∨ c = 'K' ∨ c = '\u212A' then
        some "Ki"
      else if c = 'm' ∨ c = 'M' then
        some "Mi"
      else if c = 'g' ∨ c = 'G' then
        some "Gi"
      else if c = 't' ∨ c = 'T' then
        some "Ti"
      else
        none

/-- A size that `_KUBERNETES_TMPFS_SIZE_PATTERN` or `_TMPFS_SIZE_PATTERN` matches, in the words of
Kubernetes. -/
def tmpfsSize (size : String) : Option String :=
  let amount := size.toList.takeWhile isSizeDigit
  let unit := size.toList.dropWhile isSizeDigit
  if amount.head?.all (· = '0') then
    none
  else if ["Ki", "Mi", "Gi", "Ti"].contains (String.ofList unit) then
    some size
  else
    (tmpfsUnit unit).map (fun unit => String.ofList amount ++ unit)

/-- One absolute mount path and an optional size from a declaration of temporary files. -/
def parseTmpfsDeclaration (library : KubernetesLibrary) (declaration : String) :
    Except String (String × Option String) := do
  let raw := (library.strip declaration).toList
  let mountPath := raw.takeWhile (· ≠ ':')
  let parts := (mountPath.splitOn '/').drop 1
  raiseIf (decide (mountPath.head? ≠ some '/' ∨ mountPath.getLast? = some '/'))
    ("tmpfs mount path must be a normalized absolute path: " ++ declaration)
  raiseIf (parts.any (fun part => decide (part = [] ∨ part = ['.'] ∨ part = ['.', '.'])))
    ("tmpfs mount path must be normalized: " ++ declaration)
  if ':' ∉ raw then
    .ok (String.ofList mountPath, none)
  else
    let options := (((raw.dropWhile (· ≠ ':')).drop 1).splitOn ',').map
      (fun option => library.strip (String.ofList option))
    match options.filter (· ≠ "") with
    | [option] =>
        if "size=".toList.isPrefixOf option.toList then
          let size := String.ofList (option.toList.drop 5)
          match tmpfsSize size with
          | some size => .ok (String.ofList mountPath, some size)
          | none => .error ("unsupported tmpfs size quantity: " ++ size)
        else
          .error "Kubernetes tmpfs declarations support only one optional size=<quantity> option"
    | _ =>
        .error "Kubernetes tmpfs declarations support only one optional size=<quantity> option"

/-- `_RESERVED_WORKER_MOUNT_PATHS` -/
def reservedWorkerMountPaths : List String :=
  ["/", "/artifacts", "/goblin-config", "/goblin-result"]

/-- Translate declarations of temporary files, counted from an index, into memory-backed volumes
and their mounts behind the ones that are there. -/
def attachTmpfsVolumes (library : KubernetesLibrary) (volumes : List Volume)
    (mounts : List VolumeMount) : ℕ → List String → Except String (List Volume × List VolumeMount)
  | _, [] => .ok (volumes, mounts)
  | index, declaration :: declarations => do
      let (mountPath, sizeLimit) ← parseTmpfsDeclaration library declaration
      raiseIf (reservedWorkerMountPaths.contains mountPath
          || (mounts.map VolumeMount.mountPath).contains mountPath)
        ("tmpfs mount path conflicts with a runtime mount: " ++ mountPath)
      let volumeName := "worker-tmpfs-" ++ toString index
      attachTmpfsVolumes library (volumes ++ [⟨volumeName, .emptyDir (some "Memory") sizeLimit⟩])
        (mounts ++ [{ name := volumeName, mountPath := mountPath }]) (index + 1) declarations

/-- `_attach_worker_tmpfs_volumes` -/
def attachWorkerTmpfsVolumes (library : KubernetesLibrary) (volumes : List Volume)
    (worker : Container) (resourcePolicy : Option ResourcePolicy) :
    Except String (List Volume × Container) :=
  match resourcePolicy with
  | none => .ok (volumes, worker)
  | some policy => do
      let (volumes, mounts) ← attachTmpfsVolumes library volumes worker.volumeMounts 0
        policy.filesystem.tmpfs
      .ok (volumes, { worker with volumeMounts := mounts })

/-! ### The restricted profile -/

/-- The bounds of a worker with the fields of its policy in the place of the defaults. -/
def validatedMergedResources (defaults : KubernetesContainerResources library)
    (overrides : Option Resources) : Except String Resources :=
  match overrides with
  | none => .ok defaults.manifest
  | some overrides => do
      let merged ← kubernetesContainerResources library
        (overrides.requests.cpu.getD defaults.cpuRequest.text)
        (overrides.limits.cpu.getD defaults.cpuLimit.text)
        (overrides.requests.memory.getD defaults.memoryRequest.text)
        (overrides.limits.memory.getD defaults.memoryLimit.text)
      .ok merged.manifest

/-- The volume for the token of a worker. -/
def serviceAccountVolume : Volume where
  name := "worker-service-account-token"
  source := .projected 420 3600

/-- Where a worker finds its token. -/
def serviceAccountMount : VolumeMount where
  name := "worker-service-account-token"
  mountPath := "/var/run/secrets/kubernetes.io/serviceaccount"
  readOnly := true

/-- A Pod whose containers are still being completed. -/
structure PodDraft where
  spec : PodSpec
  worker : Container
  resultForwarder : Container

/-- `attach_worker_service_account_token` -/
def attachWorkerServiceAccountToken (draft : PodDraft) : PodDraft where
  spec := { draft.spec with volumes := draft.spec.volumes ++ [serviceAccountVolume] }
  worker := { draft.worker with
    volumeMounts := draft.worker.volumeMounts ++ [serviceAccountMount] }
  resultForwarder := draft.resultForwarder

/-- Apply the complete restricted-v1 contract after resource-policy translation. -/
def applyRestrictedWorkloadSecurity (draft : PodDraft)
    (settings : KubernetesRestrictedWorkloadSettings library) (kind : Option String)
    (resourcePolicyReadOnlyRoot : Option Bool) : Except String PodDraft := do
  raiseIf (resourcePolicyReadOnlyRoot = some false)
    "restricted-v1 rejects filesystem.read_only_root=false"
  let serviceAccountName := settings.serviceAccountFor kind
  let draft := if serviceAccountName.isSome then attachWorkerServiceAccountToken draft else draft
  let resources ← validatedMergedResources settings.workerResources draft.worker.resources
  .ok {
    spec := { draft.spec with
      automountServiceAccountToken := some false
      serviceAccountName := serviceAccountName
      securityContext := some settings.podSecurityContext }
    worker := { draft.worker with
      securityContext := some settings.containerSecurityContext
      resources := some resources }
    resultForwarder := { draft.resultForwarder with
      securityContext := some settings.containerSecurityContext
      resources := some settings.resultForwarderResources.manifest } }

/-! ### Placement -/

/-- The labels of a declaration whose keys and values are texts that are not empty, in the order of
their keys. -/
def placementLabelMap (labels : List (String × Option String)) : List (String × String) :=
  (labels.filterMap (fun (key, value) =>
    if key = "" then none else (value.filter (· ≠ "")).map (fun value => (key, value)))
  ).insertionSort (fun first second => first.1 ≤ second.1)

/-- `_normalize_placement` -/
def normalizePlacement (declaration : Option PlacementDeclaration) : Option Placement :=
  declaration.bind (fun declaration =>
    let placement : Placement :=
      ⟨placementLabelMap declaration.required, placementLabelMap declaration.preferred⟩
    if placement = {} then none else some placement)

/-- The first explicit placement of the context of a run. -/
def placementMetadata (context : GoblinContext) : Option Placement :=
  (normalizePlacement context.definitionPlacement).or (normalizePlacement context.placement)

/-- Map placement labels into node selector and affinity fields. The preferred labels have the
weight 50. -/
def applyKubernetesPlacement (spec : PodSpec) (placement : Placement) : PodSpec :=
  { spec with nodeSelector := placement.required, preferredNodes := placement.preferred }

/-! ### The manifest -/

/-- The Pod before its security profile and its placement. -/
def draftPod (settings : KubernetesRuntimeSettings library) (job : WorkerJob) :
    Except String PodDraft := do
  let (volumes, worker) ← attachWorkerTmpfsVolumes library
    [⟨"input", .configMap job.configName⟩,
      ⟨"result", .emptyDir none none⟩,
      ⟨"artifacts", .emptyDir none none⟩]
    (workerContainer settings job) job.resourcePolicy
  .ok {
    spec := {
      restartPolicy := "Never"
      containers := []
      volumes := volumes ++ settings.artifactRetention.toList.map (fun retention =>
        ⟨"retained-artifacts", .persistentVolumeClaim retention.claimName⟩)
      imagePullSecrets := settings.workloadImagePullSecretNames }
    worker := worker
    resultForwarder := resultForwarderContainer settings job }

/-- Apply the security profile of the settings. -/
def applyWorkloadSecurity (settings : KubernetesRuntimeSettings library) (job : WorkerJob)
    (draft : PodDraft) : Except String PodDraft :=
  match settings.workloadSecurityProfile with
  | .legacy => .ok draft
  | .restrictedV1 =>
      let kind := (job.kind.filter (· ≠ "")).or
        (if job.context.kind = "" then none else some job.context.kind)
      applyRestrictedWorkloadSecurity draft settings.restrictedWorkload kind
        (job.resourcePolicy.bind (·.filesystem.readOnlyRoot))

/-- Build a Job manifest without widening the typed runtime settings boundary. -/
def buildKubernetesJobManifest (settings : KubernetesRuntimeSettings library) (job : WorkerJob) :
    Except String JobManifest := do
  let draft ← draftPod settings job
  let draft ← applyWorkloadSecurity settings job draft
  let spec := { draft.spec with containers := [draft.worker, draft.resultForwarder] }
  let spec := match job.placement.or (placementMetadata job.context) with
    | none => spec
    | some placement => applyKubernetesPlacement spec placement
  .ok {
    name := job.name
    labels := [("goblin-king.worker", "true"),
      ("goblin-king.run-id", job.context.runId),
      ("goblin-king.job-id", job.context.jobId)]
    backoffLimit := 0
    activeDeadlineSeconds := job.timeoutSeconds
    podSpec := spec }

end GoblinKing
