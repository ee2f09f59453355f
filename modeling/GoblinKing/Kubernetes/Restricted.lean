import GoblinKing.Kubernetes.Manifest
import Mathlib.Tactic.NormNum.Basic
import Mathlib.Tactic.NormNum.Inv
import Mathlib.Tactic.NormNum.Ineq

/-!
# Restricted workloads

Under the restricted profile every manifest confines its containers: they run without privileges
and within checked bounds, and the worker writes to volumes only that are made for its Pod. The
fields of a resource policy replace defaults one by one, and the merged bounds are checked again.
-/

namespace GoblinKing

variable {library : KubernetesLibrary}

/-- A request is positive and not above its limit. -/
def Bounded (library : KubernetesLibrary) (request limit : Option String) : Prop :=
  ∃ requestText limitText requested limited, request = some requestText ∧ limit = some limitText ∧
    library.parseQuantity requestText = some requested ∧
    library.parseQuantity limitText = some limited ∧ 0 < requested ∧ requested ≤ limited

/-- A security context takes all privileges away. -/
structure ContainerSecurityContext.Unprivileged (context : ContainerSecurityContext) : Prop where
  escalation : context.allowPrivilegeEscalation = some false
  privileged : context.privileged = some false
  capabilities : context.capabilitiesDrop = ["ALL"]
  readOnlyRoot : context.readOnlyRootFilesystem = some true
  nonRoot : context.runAsNonRoot = some true
  user : ∃ user, context.runAsUser = some user ∧ user ≠ 0
  group : ∃ group, context.runAsGroup = some group ∧ group ≠ 0

/-- A container runs without privileges and within bounds. -/
structure Container.Restricted (library : KubernetesLibrary) (container : Container) : Prop where
  context : ∃ context, container.securityContext = some context ∧ context.Unprivileged
  resources : ∃ resources, container.resources = some resources ∧
    Bounded library resources.requests.cpu resources.limits.cpu ∧
    Bounded library resources.requests.memory resources.limits.memory

/-- A volume that is made for a Pod and goes with it. -/
def VolumeSource.IsEmptyDir (source : VolumeSource) : Prop :=
  ∃ medium sizeLimit, source = .emptyDir medium sizeLimit

/-- The volumes that a container can write to are made for its Pod. -/
def WritesToEmptyDirs (volumes : List Volume) (mounts : List VolumeMount) : Prop :=
  ∀ mount ∈ mounts, mount.readOnly = false →
    (∃ volume ∈ volumes, volume.name = mount.name) ∧
    ∀ volume ∈ volumes, volume.name = mount.name → volume.source.IsEmptyDir

/-- A Pod whose containers are confined. -/
structure PodSpec.Restricted (library : KubernetesLibrary) (spec : PodSpec) : Prop where
  containers : ∀ container ∈ spec.containers, container.Restricted library
  automount : spec.automountServiceAccountToken = some false
  volumes : ∀ container ∈ spec.containers, container.name = "worker" →
    WritesToEmptyDirs spec.volumes container.volumeMounts

/-! ### Volumes -/

/-- The names of the volumes that are not made for the Pod. -/
def outsideVolumes : List String :=
  ["input", "retained-artifacts", "worker-service-account-token"]

/-- The volumes of a Pod and the mounts of its worker: what comes from outside is under its own
names, and is mounted to be read only. -/
structure Confined (volumes : List Volume) (mounts : List VolumeMount) : Prop where
  made : ∀ volume ∈ volumes, volume.source.IsEmptyDir ∨ volume.name ∈ outsideVolumes
  readOnly : ∀ mount ∈ mounts, mount.readOnly = true ∨ mount.name ∉ outsideVolumes
  present : ∀ mount ∈ mounts, ∃ volume ∈ volumes, volume.name = mount.name

namespace Confined

variable {volumes : List Volume} {mounts : List VolumeMount}

/-- Confined mounts write to volumes that are made for the Pod. -/
theorem writesToEmptyDirs (h : Confined volumes mounts) :
  WritesToEmptyDirs volumes mounts
  := by
  intro mount hmount hwrite
  use h.present mount hmount
  intro volume hvolume hname
  rcases h.made volume hvolume with hempty | houtside
  · exact hempty
  · rcases h.readOnly mount hmount with hread | hname'
    · rw [hwrite] at hread
      cases hread
    · cases hname' (hname ▸ houtside)

/-- A volume may be added that is not mounted. -/
theorem add_volume (h : Confined volumes mounts) {volume : Volume}
    (hvolume : volume.source.IsEmptyDir ∨ volume.name ∈ outsideVolumes) :
  Confined (volumes ++ [volume]) mounts
  := by
  constructor
  · intro other hother
    rcases List.mem_append.mp hother with hother | hother
    · apply h.made other hother
    · rw [List.mem_singleton.mp hother]
      exact hvolume
  · exact h.readOnly
  · intro mount hmount
    obtain ⟨other, hother, hname⟩ := h.present mount hmount
    exact ⟨other, List.mem_append_left _ hother, hname⟩

/-- A mount may be added of a volume that is there. -/
theorem add_mount (h : Confined volumes mounts) {mount : VolumeMount}
    (hread : mount.readOnly = true ∨ mount.name ∉ outsideVolumes)
    (hpresent : ∃ volume ∈ volumes, volume.name = mount.name) :
  Confined volumes (mounts ++ [mount])
  := by
  constructor
  · exact h.made
  · intro other hother
    rcases List.mem_append.mp hother with hother | hother
    · apply h.readOnly other hother
    · rw [List.mem_singleton.mp hother]
      exact hread
  · intro other hother
    rcases List.mem_append.mp hother with hother | hother
    · apply h.present other hother
    · rw [List.mem_singleton.mp hother]
      exact hpresent

/-- A volume may be added together with its mount. -/
theorem add (h : Confined volumes mounts) {volume : Volume} {mount : VolumeMount}
    (hvolume : volume.source.IsEmptyDir ∨ volume.name ∈ outsideVolumes)
    (hread : mount.readOnly = true ∨ mount.name ∉ outsideVolumes)
    (hname : volume.name = mount.name) :
  Confined (volumes ++ [volume]) (mounts ++ [mount])
  := by
  apply (h.add_volume hvolume).add_mount hread
  use volume, List.mem_append_right _ List.mem_cons_self

end Confined

/-- The volumes for temporary files do not have the name of a volume from outside. -/
theorem tmpfsName_notMem (index : ℕ) :
  "worker-tmpfs-" ++ toString index ∉ outsideVolumes
  := by
  intro h
  simp only [outsideVolumes, List.mem_cons, List.not_mem_nil, or_false] at h
  have htake : ("worker-tmpfs-" ++ toString index).toList.take 8 = "worker-t".toList := by
    rw [String.toList_append]
    rfl
  rcases h with h | h | h <;>
  · rw [h] at htake
    revert htake
    decide

/-- Volumes for temporary files keep a worker confined. -/
theorem attachTmpfsVolumes_confined {volumes volumes' : List Volume}
    {mounts mounts' : List VolumeMount} {index : ℕ} {declarations : List String}
    (hconfined : Confined volumes mounts)
    (h : attachTmpfsVolumes library volumes mounts index declarations = .ok (volumes', mounts')) :
  Confined volumes' mounts'
  := by
  induction declarations generalizing volumes mounts index with
  | nil =>
      cases h
      exact hconfined
  | cons declaration declarations ih =>
      simp only [attachTmpfsVolumes, Except.bind_eq_ok] at h
      obtain ⟨⟨mountPath, sizeLimit⟩, -, -, -, h⟩ := h
      apply ih _ h
      apply hconfined.add (Or.inl ⟨some "Memory", sizeLimit, rfl⟩)
        (Or.inr (tmpfsName_notMem index)) rfl

/-- The volumes before the security profile: those of every worker, those for temporary files and
the claim for retained artifacts. -/
theorem draftPod_confined {settings : KubernetesRuntimeSettings library} {job : WorkerJob}
    {draft : PodDraft} (h : draftPod settings job = .ok draft) :
  Confined draft.spec.volumes draft.worker.volumeMounts
  := by
  have hbase : Confined
      [⟨"input", .configMap job.configName⟩, ⟨"result", .emptyDir none none⟩,
        ⟨"artifacts", .emptyDir none none⟩]
      (workerContainer settings job).volumeMounts := by
    constructor
    · intro volume hvolume
      simp only [List.mem_cons, List.not_mem_nil, or_false] at hvolume
      rcases hvolume with rfl | rfl | rfl
      · right
        simp [outsideVolumes]
      · exact Or.inl ⟨none, none, rfl⟩
      · exact Or.inl ⟨none, none, rfl⟩
    · intro mount hmount
      simp only [workerContainer, List.mem_cons, List.not_mem_nil, or_false] at hmount
      rcases hmount with rfl | rfl | rfl
      · exact Or.inl rfl
      · right
        simp [outsideVolumes]
      · right
        simp [outsideVolumes]
    · intro mount hmount
      simp only [workerContainer, List.mem_cons, List.not_mem_nil, or_false] at hmount
      rcases hmount with rfl | rfl | rfl <;> simp
  simp only [draftPod, Except.bind_eq_ok] at h
  obtain ⟨⟨volumes, worker⟩, hattach, h⟩ := h
  have hvolumes : Confined volumes worker.volumeMounts := by
    unfold attachWorkerTmpfsVolumes at hattach
    split at hattach
    case h_1 =>
      cases hattach
      exact hbase
    case h_2 policy =>
      obtain ⟨⟨volumes', mounts⟩, htmpfs, hattach⟩ := Except.bind_eq_ok.mp hattach
      cases hattach
      apply attachTmpfsVolumes_confined hbase htmpfs
  cases h
  cases settings.artifactRetention with
  | none => simpa using hvolumes
  | some retention =>
      apply hvolumes.add_volume
      right
      simp [outsideVolumes]

/-! ### Containers -/

/-- The context of a restricted container takes all privileges away. -/
theorem unprivileged_containerSecurityContext
    (settings : KubernetesRestrictedWorkloadSettings library) :
  settings.containerSecurityContext.Unprivileged
  where
  escalation := rfl
  privileged := rfl
  capabilities := rfl
  readOnlyRoot := rfl
  nonRoot := rfl
  user := ⟨settings.runAsUser, rfl, settings.runAsUser.ne_zero⟩
  group := ⟨settings.runAsGroup, rfl, settings.runAsGroup.ne_zero⟩

/-- Accepted bounds are bounds in the manifest. -/
theorem bounded_manifest (resources : KubernetesContainerResources library) :
  Bounded library resources.manifest.requests.cpu resources.manifest.limits.cpu ∧
    Bounded library resources.manifest.requests.memory resources.manifest.limits.memory
  := by
  constructor
  · exact ⟨_, _, _, _, rfl, rfl, resources.cpuRequest.parsed, resources.cpuLimit.parsed,
      resources.cpuRequest.positive, resources.cpuWithin⟩
  · exact ⟨_, _, _, _, rfl, rfl, resources.memoryRequest.parsed, resources.memoryLimit.parsed,
      resources.memoryRequest.positive, resources.memoryWithin⟩

/-- The bounds that are merged from defaults and a policy were accepted. -/
theorem exists_of_validatedMergedResources {defaults : KubernetesContainerResources library}
    {overrides : Option Resources} {resources : Resources}
    (h : validatedMergedResources defaults overrides = .ok resources) :
  ∃ accepted : KubernetesContainerResources library, resources = accepted.manifest
  := by
  unfold validatedMergedResources at h
  split at h
  case h_1 =>
    cases h
    use defaults
  case h_2 overrides =>
    obtain ⟨accepted, -, h⟩ := Except.bind_eq_ok.mp h
    cases h
    use accepted

/-- What the restricted profile makes of a Pod: both containers are restricted, and the worker
keeps its name and stays confined. -/
theorem applyRestrictedWorkloadSecurity_restricts {draft draft' : PodDraft}
    {settings : KubernetesRestrictedWorkloadSettings library} {kind : Option String}
    {readOnlyRoot : Option Bool}
    (hconfined : Confined draft.spec.volumes draft.worker.volumeMounts)
    (h : applyRestrictedWorkloadSecurity draft settings kind readOnlyRoot = .ok draft') :
  draft'.worker.Restricted library ∧ draft'.resultForwarder.Restricted library ∧
    draft'.resultForwarder.name = draft.resultForwarder.name ∧
    draft'.spec.automountServiceAccountToken = some false ∧
    Confined draft'.spec.volumes draft'.worker.volumeMounts
  := by
  simp only [applyRestrictedWorkloadSecurity, Except.bind_eq_ok] at h
  obtain ⟨-, -, resources, hresources, h⟩ := h
  obtain ⟨accepted, rfl⟩ := exists_of_validatedMergedResources hresources
  cases h
  refine ⟨?_, ?_, ?_, rfl, ?_⟩
  · exact ⟨⟨_, rfl, unprivileged_containerSecurityContext settings⟩,
      ⟨_, rfl, bounded_manifest accepted⟩⟩
  · exact ⟨⟨_, rfl, unprivileged_containerSecurityContext settings⟩,
      ⟨_, rfl, bounded_manifest settings.resultForwarderResources⟩⟩
  · split <;> rfl
  · split
    case isTrue =>
      apply hconfined.add _ (Or.inl rfl) rfl
      right
      simp [serviceAccountVolume, outsideVolumes]
    case isFalse => exact hconfined

/-- The container that forwards the result is not the worker. -/
theorem resultForwarderContainer_name (settings : KubernetesRuntimeSettings library)
    (job : WorkerJob) :
  (resultForwarderContainer settings job).name = "result-forwarder"
  := by
  unfold resultForwarderContainer
  split <;> rfl

/-! ### Manifests -/

/-- Under the restricted profile, a manifest that is built is one of a restricted Pod. -/
theorem buildKubernetesJobManifest_restricted
    {library : KubernetesLibrary} {settings : KubernetesRuntimeSettings library} {job : WorkerJob}
    {manifest : JobManifest} (hprofile : settings.workloadSecurityProfile = .restrictedV1)
    (h : buildKubernetesJobManifest settings job = .ok manifest) :
  manifest.podSpec.Restricted library
  := by
  simp only [buildKubernetesJobManifest, applyWorkloadSecurity, hprofile, Except.bind_eq_ok] at h
  obtain ⟨draft, hdraft, secured, hsecured, h⟩ := h
  obtain ⟨hworker, hforwarder, hname, hautomount, hconfined⟩ :=
    applyRestrictedWorkloadSecurity_restricts (draftPod_confined hdraft) hsecured
  have hname : secured.resultForwarder.name = "result-forwarder" := by
    simp only [draftPod, Except.bind_eq_ok] at hdraft
    obtain ⟨volumes, -, hdraft⟩ := hdraft
    cases hdraft
    rw [hname, resultForwarderContainer_name]
  have hspec : PodSpec.Restricted library
      { secured.spec with containers := [secured.worker, secured.resultForwarder] } := by
    constructor
    · intro container hcontainer
      simp only [List.mem_cons, List.not_mem_nil, or_false] at hcontainer
      rcases hcontainer with rfl | rfl
      · exact hworker
      · exact hforwarder
    · exact hautomount
    · intro container hcontainer hcontainerName
      simp only [List.mem_cons, List.not_mem_nil, or_false] at hcontainer
      rcases hcontainer with rfl | rfl
      · apply hconfined.writesToEmptyDirs
      · rw [hname] at hcontainerName
        simp at hcontainerName
  cases h
  split
  case h_1 => exact hspec
  case h_2 placement => exact ⟨hspec.containers, hspec.automount, hspec.volumes⟩

/-- A cluster that knows a few quantities. -/
def quantityCluster : KubernetesLibrary where
  parseQuantity text :=
    [("10m", 1 / 100), ("100m", 1 / 10), ("500m", 1 / 2), ("1", 1), ("64Mi", 67108864),
      ("128Mi", 134217728), ("512Mi", 536870912)].lookup text
  strip := id
  policyJson _ := "\x7b\x7d"
  resultForwarderScript := ""

/-- The default bounds of a worker. -/
def workerBounds : KubernetesContainerResources quantityCluster where
  cpuRequest := ⟨"100m", 1 / 10, rfl, by norm_num⟩
  cpuLimit := ⟨"1", 1, rfl, by norm_num⟩
  memoryRequest := ⟨"64Mi", 67108864, rfl, by norm_num⟩
  memoryLimit := ⟨"512Mi", 536870912, rfl, by norm_num⟩
  cpuWithin := by norm_num
  memoryWithin := by norm_num

/-- The default bounds of a forwarder. -/
def forwarderBounds : KubernetesContainerResources quantityCluster where
  cpuRequest := ⟨"10m", 1 / 100, rfl, by norm_num⟩
  cpuLimit := ⟨"100m", 1 / 10, rfl, by norm_num⟩
  memoryRequest := ⟨"64Mi", 67108864, rfl, by norm_num⟩
  memoryLimit := ⟨"128Mi", 134217728, rfl, by norm_num⟩
  cpuWithin := by norm_num
  memoryWithin := by norm_num

/-- Restricted settings with retained artifacts and an account for one kind. -/
def restrictedSettings : KubernetesRuntimeSettings quantityCluster where
  workloadSecurityProfile := .restrictedV1
  restrictedWorkload := {
    workerResources := workerBounds
    resultForwarderResources := forwarderBounds
    workerServiceAccountNames := [("report", "reports")] }
  artifactRetention := some { claimName := "artifacts" }

/-- A worker of that kind, whose policy has a limit and temporary files. -/
def reportJob : WorkerJob where
  name := "gk-report-run-1"
  configName := "gk-report-run-1-input"
  image := "report"
  context := { runId := "run-1", artifactRoot := "artifacts" }
  workerId := "k8s-worker-run-1"
  redisUrl := "redis://redis:6379/0"
  resourcePolicy := some {
    cpu := { limit := some "500m" }
    filesystem := { tmpfs := ["/tmp:size=64m"] } }
  kind := some "report"

/-- The Pod of that worker is restricted. -/
theorem reportJob_restricted :
  ∃ manifest, buildKubernetesJobManifest restrictedSettings reportJob = .ok manifest ∧
    manifest.podSpec.Restricted quantityCluster
  := by
  have hok : (buildKubernetesJobManifest restrictedSettings reportJob).isOk = true := by
    decide +kernel
  obtain ⟨manifest, h⟩ := Except.isOk_eq_true.mp hok
  use manifest, h
  apply buildKubernetesJobManifest_restricted rfl h

end GoblinKing
