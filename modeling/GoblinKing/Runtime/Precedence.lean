import GoblinKing.Runtime.DockerCommand
import GoblinKing.Kubernetes.Manifest

/-!
# Project variables beside the contract

The variables of a project stand between the definitions of the contract: a project can replace
the first ones, and not those that are made once more behind it. Apart from that both runtimes
give the variables of the contract the values of the contract, and those of the project the values
of the project; only Docker hands over secrets.
-/

namespace GoblinKing

open Definitions

/-- The metadata of a goblin that contribute to the environment of its workers. -/
structure WorkerMetadata where
  /-- the object under `env` -/
  env : Option MetadataObject
  /-- the texts of the list under `secret_refs` -/
  secretRefs : Option (List String)

/-- A worker container with the variables of a goblin. -/
def DockerRun.withMetadata (run : DockerRun) (metadata : WorkerMetadata) : DockerRun :=
  { run with
    workerEnv := literalWorkerEnvironment metadata.env
    secretRefs := workerSecretRefs metadata.secretRefs }

/-- A worker of a Job with the variables of a goblin. -/
def WorkerJob.withMetadata (job : WorkerJob) (metadata : WorkerMetadata) : WorkerJob :=
  { job with workerEnv := literalWorkerEnvironment metadata.env }

/-- What the contract with a worker in Kubernetes comes to. -/
def kubernetesContract (library : KubernetesLibrary) (job : WorkerJob) : WorkerContract where
  context := job.context
  workerId := job.workerId
  paths := kubernetesPaths
  redisUrl := job.redisUrl
  heartbeatIntervalSeconds := job.heartbeatIntervalSeconds
  policyJson := job.resourcePolicy.map library.policyJson

/-- A goblin sets a variable to a literal value. -/
def WorkerMetadata.Sets (metadata : WorkerMetadata) (name : String) : Prop :=
  ∃ key value, (key, value) ∈ literalWorkerEnvironment metadata.env ∧ variableName key = name

/-- A goblin names a secret that is set in the environment of the scheduler. -/
def WorkerMetadata.HandsOver (metadata : WorkerMetadata) (environ : ProcessEnvironment)
    (name : String) : Prop :=
  name ∈ workerSecretRefs metadata.secretRefs ∧ (environ.get name).isSome

instance decidableHandsOver (metadata : WorkerMetadata) (environ : ProcessEnvironment)
    (name : String) :
    Decidable (metadata.HandsOver environ name) :=
  inferInstanceAs (Decidable (_ ∧ _))

/-- The variables that the Docker runtime defines behind those of the project: the effective
policy, and the paths on a data volume. -/
def DockerRun.Redefines (run : DockerRun) (environ : ProcessEnvironment)
    (var : ContractVariable) : Prop :=
  (var = .effectiveResourcePolicyJson ∧ run.resourcePolicy.isSome) ∨
    (var ∈ [.inputPath, .contextPath, .resultPath, .artifactRoot] ∧ (dataVolume environ).isSome)

/-- The variable that the Kubernetes runtime defines behind those of the project: the effective
policy. -/
def WorkerJob.Redefines (job : WorkerJob) (var : ContractVariable) : Prop :=
  var = .effectiveResourcePolicyJson ∧ job.resourcePolicy.isSome

/-! ### Docker -/

/-- The literal variables as Docker reads them. -/
def literalDefinitions (environ : ProcessEnvironment) (workerEnv : List (String × String)) :
    List (String × Option String) :=
  (sortedEnvironment workerEnv).map (fun entry => environ.definition (entry.1 ++ "=" ++ entry.2))

/-- The secrets that are handed over. -/
def secretDefinitions (environ : ProcessEnvironment) (secretRefs : List String) :
    List (String × Option String) :=
  ((secretRefs.dedup.insertionSort (· ≤ ·)).filter (fun key => (environ.get key).isSome)).map
    (fun key => (key, environ.get key))

variable (environ : ProcessEnvironment) (workerEnv : List (String × String))
  (secretRefs : List String)

/-- The definitions of a project are its literal variables and its secrets. -/
theorem projectDefinitions_eq :
  projectDefinitions environ workerEnv secretRefs
    = literalDefinitions environ workerEnv ++ secretDefinitions environ secretRefs
  := by
  have hliteral : ((sortedEnvironment workerEnv).map RunOption.define).filterMap RunOption.env?
      = (sortedEnvironment workerEnv).map (fun entry => entry.1 ++ "=" ++ entry.2) := by
    rw [List.filterMap_map, ← List.filterMap_eq_map]
    rfl
  have hsecret : ∀ keys : List String, (keys.map RunOption.env).filterMap RunOption.env? = keys := by
    intro keys
    rw [List.filterMap_map]
    apply List.filterMap_some
  rw [projectDefinitions, dockerEnvArgs, List.filterMap_append, hliteral, hsecret, List.map_append,
    List.map_map]
  congr 1
  apply List.map_congr_left
  intro key hkey
  apply definition_of_isSome environ (List.mem_filter.mp hkey).2

/-- The names of the literal variables are those in front of the equals signs. -/
theorem defines_literalDefinitions {name : String} :
  Defines (literalDefinitions environ workerEnv) name ↔
    ∃ key value, (key, value) ∈ workerEnv ∧ variableName key = name
  := by
  constructor
  · rintro ⟨value, hmem⟩
    obtain ⟨⟨key, text⟩, hentry, heq⟩ := List.mem_map.mp hmem
    use key, text
    constructor
    · apply (List.perm_insertionSort _ _).mem_iff.mp hentry
    · rw [← definition_define environ key text, heq]
  · rintro ⟨key, text, hentry, hname⟩
    use (environ.definition (key ++ "=" ++ text)).2
    apply List.mem_map.mpr
    use (key, text)
    constructor
    · apply (List.perm_insertionSort _ _).mem_iff.mpr hentry
    · rw [← hname, ← definition_define environ key text]

/-- The secrets have the values of the process. -/
theorem effective_secretDefinitions (name : String) :
  effective (secretDefinitions environ secretRefs) name
    = if name ∈ secretRefs ∧ (environ.get name).isSome then some (environ.get name) else none
  := by
  have hmem : ∀ value, (name, value) ∈ secretDefinitions environ secretRefs ↔
      (name ∈ secretRefs ∧ (environ.get name).isSome) ∧ value = environ.get name := by
    intro value
    simp only [secretDefinitions, List.mem_map, List.mem_filter, Prod.mk.injEq,
      List.mem_insertionSort, List.mem_dedup]
    grind
  split
  case isTrue hname =>
    cases h : effective (secretDefinitions environ secretRefs) name with
    | none => cases effective_eq_none.mp h ⟨environ.get name, (hmem _).mpr ⟨hname, rfl⟩⟩
    | some value => rw [((hmem value).mp (mem_of_effective h)).2]
  case isFalse hname =>
    rw [effective_eq_none]
    rintro ⟨value, hvalue⟩
    apply hname ((hmem value).mp hvalue).1

/-- A literal variable has its literal value, unless the key of another one with an equals sign
stands for it. -/
theorem effective_literalDefinitions {workerEnv : List (String × String)} {name : String}
    (hdistinct : (workerEnv.map Prod.fst).Nodup) (hplain : '=' ∉ name.toList)
    (halone : ∀ key value, (key, value) ∈ workerEnv → variableName key = name → key = name) :
  effective (literalDefinitions environ workerEnv) name = (effective workerEnv name).map some
  := by
  have hperm : (sortedEnvironment workerEnv).Perm workerEnv := List.perm_insertionSort _ _
  have halone' : ∀ key value, (key, value) ∈ sortedEnvironment workerEnv →
      variableName key = name → key = name := by
    intro key value hmem
    apply halone key value (hperm.mem_iff.mp hmem)
  rw [← effective_sortedEnvironment hdistinct, literalDefinitions]
  generalize sortedEnvironment workerEnv = entries at halone'
  induction entries with
  | nil => rfl
  | cons entry entries ih =>
      obtain ⟨key, value⟩ := entry
      have hrest := ih (fun key value hmem => halone' key value (List.mem_cons_of_mem _ hmem))
      rw [List.map_cons, effective, hrest, effective, Option.map_or]
      by_cases hkey : key = name
      · subst hkey
        rw [definition_define_plain environ hplain]
        simp
      · have hother : variableName key ≠ name := by
          intro hname
          apply hkey (halone' key value List.mem_cons_self hname)
        rw [definition_define, if_neg hother, if_neg hkey]
        rfl

/-! ### Both runtimes -/

section

variable {library : RuntimeLibrary} {environ : ProcessEnvironment} {runtime : DockerRuntime}
  {run : DockerRun} {metadata : WorkerMetadata} {command : List String}

/-- A project names a variable of a Docker container exactly when it sets it to a literal value or
hands it over. -/
theorem defines_projectDefinitions {name : String} :
  Defines (projectDefinitions environ (literalWorkerEnvironment metadata.env)
      (workerSecretRefs metadata.secretRefs)) name ↔
    metadata.Sets name ∨ metadata.HandsOver environ name
  := by
  have hsecret : Defines (secretDefinitions environ (workerSecretRefs metadata.secretRefs)) name ↔
      metadata.HandsOver environ name := by
    rw [← not_iff_not, ← effective_eq_none, effective_secretDefinitions]
    unfold WorkerMetadata.HandsOver
    split
    case isTrue h => simp [h]
    case isFalse h => simp [h]
  rw [projectDefinitions_eq, WorkerMetadata.Sets, ← defines_literalDefinitions environ, ← hsecret]
  simp only [Defines, List.mem_append, exists_or]

/-- The variables that are defined behind those of the project. -/
theorem defines_again {policyJson : Option String} {paths : Option WorkerPaths}
    (var : ContractVariable) :
  Defines (assigned (policyDefinitions policyJson ++ pathDefinitions paths)) var.name ↔
    (var = .effectiveResourcePolicyJson ∧ policyJson.isSome) ∨
      (var ∈ [.inputPath, .contextPath, .resultPath, .artifactRoot] ∧ paths.isSome)
  := by
  have hname : Defines (assigned (policyDefinitions policyJson ++ pathDefinitions paths)) var.name ↔
      Defines (policyDefinitions policyJson ++ pathDefinitions paths) var := by
    rw [← not_iff_not, ← effective_eq_none, ← effective_eq_none, assigned,
      effective_map ContractVariable.name_injective, Option.map_eq_none_iff]
  rw [hname]
  cases policyJson <;> cases paths <;> cases var <;>
    simp [Defines, policyDefinitions, pathDefinitions]

/-- The contract has a policy exactly when the run has one. -/
theorem isSome_policyJson {contract : WorkerContract}
    (h : dockerContract library environ runtime run = .ok contract) :
  contract.policyJson.isSome = run.resourcePolicy.isSome
  := by
  simp only [dockerContract, Except.bind_eq_ok] at h
  obtain ⟨artifactRoot, -, redisUrl, -, paths, -, h⟩ := h
  cases h
  apply Option.isSome_map

/-- In a Docker container, a contract variable has the value of the contract when it is defined
once more behind the project, or when the project does not name it. -/
theorem containerValue_contract
    (h : dockerRunCommand library environ runtime (run.withMetadata metadata) = .ok command) :
  ∃ contract, dockerContract library environ runtime run = .ok contract ∧
    ∀ var, (run.Redefines environ var ∨
        ¬ (metadata.Sets var.name ∨ metadata.HandsOver environ var.name)) →
      containerValue environ command var.name = contract.value var
  := by
  obtain ⟨contract, paths, hcontract, hpaths, hsome, hdefinitions⟩ := commandDefinitions_eq h
  use contract, hcontract
  intro var hvar
  have hbetween : ¬ Defines (projectDefinitions environ (run.withMetadata metadata).workerEnv
      (run.withMetadata metadata).secretRefs) var.name ∨
      Defines (assigned (policyDefinitions contract.policyJson ++ pathDefinitions paths))
        var.name := by
    rcases hvar with hagain | hunnamed
    · right
      rw [defines_again, isSome_policyJson hcontract, hsome]
      exact hagain
    · left
      rw [← defines_projectDefinitions] at hunnamed
      exact hunnamed
  rw [containerValue, hdefinitions, effective_between hbetween, assigned, assigned,
    ← List.map_append, effective_map ContractVariable.name_injective, effective_contract hpaths]
  cases contract.value var <;> rfl

/-- What the variables of a project set a variable to in a Docker container. -/
theorem effective_projectDefinitions {name : String} (hplain : '=' ∉ name.toList)
    (halone : ∀ key value, (key, value) ∈ literalWorkerEnvironment metadata.env →
      variableName key = name → key = name) :
  effective (projectDefinitions environ (run.withMetadata metadata).workerEnv
      (run.withMetadata metadata).secretRefs) name
    = if metadata.HandsOver environ name then
        some (environ.get name)
      else
        (effective (literalWorkerEnvironment metadata.env) name).map some
  := by
  have hliteral := effective_literalDefinitions environ
    (nodup_literalWorkerEnvironment metadata.env) hplain halone
  rw [projectDefinitions_eq, effective_append, effective_secretDefinitions]
  by_cases hhand : metadata.HandsOver environ name
  · rw [if_pos hhand, if_pos (show name ∈ (run.withMetadata metadata).secretRefs ∧ _ from hhand)]
    rfl
  · rw [if_neg hhand, if_neg (show ¬ (name ∈ (run.withMetadata metadata).secretRefs ∧ _) from hhand),
      Option.none_or]
    exact hliteral

/-- In a Docker container, a variable outside of the contract has the value that is handed over,
or else its literal value. -/
theorem containerValue_project
    (h : dockerRunCommand library environ runtime (run.withMetadata metadata) = .ok command)
    {name : String} (hname : ∀ var : ContractVariable, var.name ≠ name)
    (hplain : '=' ∉ name.toList)
    (halone : ∀ key value, (key, value) ∈ literalWorkerEnvironment metadata.env →
      variableName key = name → key = name) :
  containerValue environ command name
    = if metadata.HandsOver environ name then
        environ.get name
      else
        effective (literalWorkerEnvironment metadata.env) name
  := by
  obtain ⟨contract, paths, -, -, -, hdefinitions⟩ := commandDefinitions_eq h
  have hlater : effective (assigned (policyDefinitions contract.policyJson
      ++ pathDefinitions paths)) name = none := effective_eq_none.mpr (not_defines_map hname)
  rw [containerValue, hdefinitions, effective_append, hlater, Option.none_or, assigned,
    effective_append_of_not_defines (not_defines_map hname),
    effective_projectDefinitions hplain halone]
  split
  case isTrue => rfl
  case isFalse => cases effective (literalWorkerEnvironment metadata.env) name <;> rfl

/-- In a Docker container, a contract variable that is not defined once more behind the project
has the value of the project, if the project names it. -/
theorem containerValue_overridden
    (h : dockerRunCommand library environ runtime (run.withMetadata metadata) = .ok command)
    {var : ContractVariable} (hvar : ¬ run.Redefines environ var)
    (halone : ∀ key value, (key, value) ∈ literalWorkerEnvironment metadata.env →
      variableName key = var.name → key = var.name)
    (hnamed : metadata.Sets var.name ∨ metadata.HandsOver environ var.name) :
  containerValue environ command var.name
    = if metadata.HandsOver environ var.name then
        environ.get var.name
      else
        effective (literalWorkerEnvironment metadata.env) var.name
  := by
  obtain ⟨contract, paths, hcontract, -, hsome, hdefinitions⟩ := commandDefinitions_eq h
  have hlater : effective (assigned (policyDefinitions contract.policyJson
      ++ pathDefinitions paths)) var.name = none := by
    rw [effective_eq_none, defines_again, isSome_policyJson hcontract, hsome]
    exact hvar
  have hproject : effective (projectDefinitions environ (run.withMetadata metadata).workerEnv
      (run.withMetadata metadata).secretRefs) var.name ≠ none := by
    rw [Ne, effective_eq_none, not_not]
    exact defines_projectDefinitions.mpr hnamed
  obtain ⟨value, hvalue⟩ := Option.ne_none_iff_exists'.mp hproject
  rw [containerValue, hdefinitions, effective_append, hlater, Option.none_or, effective_append,
    hvalue, Option.some_or, ← hvalue,
    effective_projectDefinitions var.equals_notMem_name halone]
  split
  case isTrue => rfl
  case isFalse => cases effective (literalWorkerEnvironment metadata.env) var.name <;> rfl

end

/-- In a Kubernetes container, a contract variable has the value of the contract when it is defined
once more behind the project, or when no literal variable has its name. -/
theorem workerContainerEnv_contract (library : KubernetesLibrary) (job : WorkerJob)
    (metadata : WorkerMetadata) (var : ContractVariable)
    (h : job.Redefines var ∨ ¬ Defines (literalWorkerEnvironment metadata.env) var.name) :
  effective (workerContainerEnv library (job.withMetadata metadata)) var.name
    = (kubernetesContract library job).value var
  := by
  have hbetween : ¬ Defines (sortedEnvironment (job.withMetadata metadata).workerEnv) var.name ∨
      Defines (named (policyDefinitions
        ((job.withMetadata metadata).resourcePolicy.map library.policyJson))) var.name := by
    rcases h with ⟨rfl, hsome⟩ | hunnamed
    · right
      obtain ⟨policy, hpolicy⟩ := Option.isSome_iff_exists.mp hsome
      use library.policyJson policy
      simp [WorkerJob.withMetadata, hpolicy, policyDefinitions, named]
    · left
      rw [← effective_eq_none] at hunnamed ⊢
      apply (effective_sortedEnvironment (nodup_literalWorkerEnvironment metadata.env) _).trans
      apply hunnamed
  have hvalue := @effective_contract (kubernetesContract library job) kubernetesPaths none rfl var
  simp only [pathDefinitions, List.append_nil] at hvalue
  rw [workerContainerEnv, effective_between hbetween]
  simp only [named, ← List.map_append]
  rw [effective_map ContractVariable.name_injective, Option.map_id]
  exact hvalue

/-- In a Kubernetes container, a contract variable that is not defined once more behind the project
has the literal value of the project, if there is one. -/
theorem workerContainerEnv_overridden (library : KubernetesLibrary) (job : WorkerJob)
    (metadata : WorkerMetadata) {var : ContractVariable} (hvar : ¬ job.Redefines var)
    {value : String} (hvalue : effective (literalWorkerEnvironment metadata.env) var.name = some value) :
  effective (workerContainerEnv library (job.withMetadata metadata)) var.name = some value
  := by
  have hlater : effective (named (policyDefinitions
      ((job.withMetadata metadata).resourcePolicy.map library.policyJson))) var.name = none := by
    rw [named, effective_map ContractVariable.name_injective, Option.map_eq_none_iff,
      effective_eq_none]
    rintro ⟨text, hmem⟩
    obtain ⟨policy, hpolicy, heq⟩ := List.mem_map.mp hmem
    apply hvar
    use (Prod.ext_iff.mp heq).1.symm
    obtain ⟨policy, hsome, -⟩ := Option.map_eq_some_iff.mp (Option.mem_toList.mp hpolicy)
    apply Option.isSome_of_mem hsome
  rw [workerContainerEnv, effective_append, hlater, Option.none_or, effective_append]
  have hproject := (effective_sortedEnvironment
    (nodup_literalWorkerEnvironment metadata.env) var.name).trans hvalue
  change (effective (sortedEnvironment (literalWorkerEnvironment metadata.env)) var.name).or _ = _
  rw [hproject]
  rfl

/-- In a Kubernetes container, a variable outside of the contract has its literal value. -/
theorem workerContainerEnv_project (library : KubernetesLibrary) (job : WorkerJob)
    (metadata : WorkerMetadata) {name : String}
    (hname : ∀ var : ContractVariable, var.name ≠ name) :
  effective (workerContainerEnv library (job.withMetadata metadata)) name
    = effective (literalWorkerEnvironment metadata.env) name
  := by
  have hlater : effective (named (policyDefinitions
      ((job.withMetadata metadata).resourcePolicy.map library.policyJson))) name = none :=
    effective_eq_none.mpr (not_defines_map hname)
  rw [workerContainerEnv, effective_append, hlater, Option.none_or]
  simp only [named, ← List.map_append]
  rw [effective_append_of_not_defines (not_defines_map hname)]
  apply effective_sortedEnvironment (nodup_literalWorkerEnvironment metadata.env)

/-- Beside the variables of a project, those of the contract that it does not name have the values
that the runtime computed, and so do those that the runtime defines once more whatever the project
names. Outside of the contract, Kubernetes sets the literal variables, and Docker the same ones and
the secrets that are set in the environment of the scheduler. -/
theorem contract_beside_project
    (library : RuntimeLibrary) (cluster : KubernetesLibrary) (environ : ProcessEnvironment)
    (runtime : DockerRuntime) (run : DockerRun) (job : WorkerJob) (metadata : WorkerMetadata)
    {command : List String}
    (h : dockerRunCommand library environ runtime (run.withMetadata metadata) = .ok command) :
  (∃ contract, dockerContract library environ runtime run = .ok contract ∧
    ∀ var, (run.Redefines environ var ∨
        ¬ (metadata.Sets var.name ∨ metadata.HandsOver environ var.name)) →
      containerValue environ command var.name = contract.value var) ∧
  (∀ var, (job.Redefines var ∨ ¬ Defines (literalWorkerEnvironment metadata.env) var.name) →
    effective (workerContainerEnv cluster (job.withMetadata metadata)) var.name
      = (kubernetesContract cluster job).value var) ∧
  ∀ name, (∀ var : ContractVariable, var.name ≠ name) →
    effective (workerContainerEnv cluster (job.withMetadata metadata)) name
      = effective (literalWorkerEnvironment metadata.env) name ∧
    ('=' ∉ name.toList →
      (∀ key value, (key, value) ∈ literalWorkerEnvironment metadata.env →
        variableName key = name → key = name) →
      containerValue environ command name
        = if metadata.HandsOver environ name then
            environ.get name
          else
            effective (workerContainerEnv cluster (job.withMetadata metadata)) name)
  := by
  use containerValue_contract h
  constructor
  · intro var hvar
    apply workerContainerEnv_contract cluster job metadata var hvar
  · intro name hname
    have hcluster := workerContainerEnv_project cluster job metadata hname
    use hcluster
    intro hplain halone
    rw [hcluster]
    apply containerValue_project h hname hplain halone

/-! ### A project that names contract variables -/

/-- Functions of a host on which nothing has to be translated: a Redis on another host, and no
links. -/
def plainHost : RuntimeLibrary where
  floats := ⟨ℕ, fun _ => .ok 0, id, fun _ _ => false, toString⟩
  urlparse url := .ok ⟨"", url, "", "", "", ""⟩
  hostname _ := none
  urlunparse parsed := parsed.netloc
  resolve path := .ok path
  policyJson _ := "\x7b\x7d"

/-- The environment of a scheduler with one secret. -/
def secretEnvironment : ProcessEnvironment where
  get name := if name = "TOKEN" then some "secret" else none
  plain name h := by
    by_cases hname : name = "TOKEN"
    · subst hname
      simp
    · simp [hname] at h

/-- A runtime with its runs in the directory of a scheduler. -/
def localRuntime : DockerRuntime where
  dockerExecutable := "docker"
  runRoot := ⟨true, ["data", "runs"]⟩
  redisUrl := "redis://redis:6379/0"
  heartbeatIntervalSeconds := 5

/-- A run without variables of a project. -/
def plainRun : DockerRun where
  image := "worker"
  runDir := ⟨true, ["data", "runs", "run-1"]⟩
  context := { runId := "run-1", artifactRoot := "artifacts" }
  workerId := "worker-run-1"
  timeoutSeconds := none
  resourcePolicy := none
  workerEnv := []
  secretRefs := []

/-- The same run in Kubernetes. -/
def plainJob : WorkerJob where
  name := "gk-run-1"
  configName := "gk-run-1-input"
  image := "worker"
  context := { runId := "run-1", artifactRoot := "artifacts" }
  workerId := "k8s-worker-run-1"
  redisUrl := "redis://redis:6379/0"

/-- The answers of a cluster that no policy needs. -/
def plainCluster : KubernetesLibrary where
  parseQuantity _ := none
  strip := id
  policyJson _ := "\x7b\x7d"
  resultForwarderScript := ""

/-- A goblin that gives its runs another identifier, and that needs a secret. -/
def renamedRun : WorkerMetadata where
  env := some ⟨[("GOBLIN_RUN_ID", some "other")], by simp⟩
  secretRefs := some ["TOKEN"]

/-- The command of the run is composed whatever variables the goblin has. -/
theorem dockerRunCommand_plainRun (metadata : WorkerMetadata) :
  ∃ command, dockerRunCommand plainHost secretEnvironment localRuntime
    (plainRun.withMetadata metadata) = .ok command
  := by
  have hroot : resolveDockerArtifactRoot plainHost localRuntime.runRoot "artifacts"
      = .ok ⟨true, ["data", "artifacts"]⟩ := by
    decide +kernel
  have hvolume : dataVolume secretEnvironment = none := by
    simp [dataVolume, ProcessEnvironment.nonempty, secretEnvironment]
  simp only [dockerRunCommand, dataPaths, hvolume, DockerRun.withMetadata, plainRun, hroot]
  exact ⟨_, rfl⟩

/-- The literal variables of that goblin. -/
theorem literalWorkerEnvironment_renamedRun :
  literalWorkerEnvironment renamedRun.env = [(ContractVariable.runId.name, "other")]
  := by
  simp [literalWorkerEnvironment, renamedRun, ContractVariable.name]

/-- The names that the variables of that goblin are for. -/
theorem renamedRun_sets {name : String} :
  renamedRun.Sets name ↔ name = ContractVariable.runId.name
  := by
  simp only [WorkerMetadata.Sets, literalWorkerEnvironment_renamedRun, List.mem_singleton,
    Prod.mk.injEq]
  constructor
  · rintro ⟨key, value, ⟨rfl, rfl⟩, hname⟩
    rw [← hname, variableName_eq_self (ContractVariable.equals_notMem_name _)]
  · rintro rfl
    exact ⟨_, _, ⟨rfl, rfl⟩, variableName_eq_self (ContractVariable.equals_notMem_name _)⟩

/-- The secrets that are handed over to that goblin. -/
theorem renamedRun_handsOver {name : String} :
  renamedRun.HandsOver secretEnvironment name ↔ name = "TOKEN"
  := by
  simp [WorkerMetadata.HandsOver, workerSecretRefs, renamedRun, secretEnvironment]

/-- The identifier of the worker is beside the identifier of the run that the goblin replaces. -/
theorem contract_beside_renamedRun :
  ∃ command contract,
    dockerRunCommand plainHost secretEnvironment localRuntime (plainRun.withMetadata renamedRun)
      = .ok command ∧
    dockerContract plainHost secretEnvironment localRuntime plainRun = .ok contract ∧
    containerValue secretEnvironment command "GOBLIN_WORKER_ID" = contract.value .workerId
  := by
  obtain ⟨command, h⟩ := dockerRunCommand_plainRun renamedRun
  obtain ⟨⟨contract, hcontract, hvalue⟩, -⟩ := contract_beside_project plainHost plainCluster
    secretEnvironment localRuntime plainRun plainJob renamedRun h
  use command, contract, h, hcontract
  apply hvalue .workerId
  right
  rw [renamedRun_sets, renamedRun_handsOver]
  simp [ContractVariable.name]

/-- A project replaces the identifier of its runs in both runtimes, and only Docker sets its
secret. -/
theorem project_replaces_runId :
  ∃ command contract,
    dockerRunCommand plainHost secretEnvironment localRuntime (plainRun.withMetadata renamedRun)
      = .ok command ∧
    dockerContract plainHost secretEnvironment localRuntime plainRun = .ok contract ∧
    (containerValue secretEnvironment command "GOBLIN_RUN_ID" = some "other" ∧
      contract.value .runId = some "run-1") ∧
    (effective (workerContainerEnv plainCluster (plainJob.withMetadata renamedRun)) "GOBLIN_RUN_ID"
        = some "other" ∧
      (kubernetesContract plainCluster plainJob).value .runId = some "run-1") ∧
    containerValue secretEnvironment command "TOKEN" = some "secret" ∧
    effective (workerContainerEnv plainCluster (plainJob.withMetadata renamedRun)) "TOKEN" = none
  := by
  obtain ⟨command, h⟩ := dockerRunCommand_plainRun renamedRun
  obtain ⟨contract, hcontract, -⟩ := containerValue_contract h
  have hrunId : contract.value .runId = some "run-1" := by
    simp only [dockerContract, Except.bind_eq_ok] at hcontract
    obtain ⟨artifactRoot, -, redisUrl, -, paths, -, hcontract⟩ := hcontract
    cases hcontract
    rfl
  have hliteral : effective (literalWorkerEnvironment renamedRun.env) ContractVariable.runId.name
      = some "other" := by
    rw [literalWorkerEnvironment_renamedRun]
    simp [effective]
  have halone : ∀ {name key value : String}, (key, value) ∈ literalWorkerEnvironment renamedRun.env →
      variableName key = name → key = name := by
    intro name key value hmem hname
    rw [literalWorkerEnvironment_renamedRun, List.mem_singleton, Prod.mk.injEq] at hmem
    rw [← hname, hmem.1, variableName_eq_self (ContractVariable.equals_notMem_name _)]
  have htoken : ∀ var : ContractVariable, var.name ≠ "TOKEN" := by
    intro var
    cases var <;> simp [ContractVariable.name]
  have hunset : effective (literalWorkerEnvironment renamedRun.env) "TOKEN" = none := by
    rw [literalWorkerEnvironment_renamedRun]
    simp [effective, ContractVariable.name]
  use command, contract, h, hcontract
  refine ⟨⟨?_, hrunId⟩, ⟨?_, rfl⟩, ?_, ?_⟩
  · have hfirst : ¬ plainRun.Redefines secretEnvironment .runId := by
      simp [DockerRun.Redefines]
    have hvalue := containerValue_overridden h hfirst (fun _ _ => halone)
      (Or.inl (renamedRun_sets.mpr rfl))
    rw [if_neg (by simp [renamedRun_handsOver, ContractVariable.name]), hliteral] at hvalue
    exact hvalue
  · apply workerContainerEnv_overridden plainCluster plainJob renamedRun _ hliteral
    simp [WorkerJob.Redefines]
  · rw [containerValue_project h htoken (by simp) (fun _ _ => halone),
      if_pos (renamedRun_handsOver.mpr rfl)]
    simp [secretEnvironment]
  · rw [workerContainerEnv_project plainCluster plainJob renamedRun htoken, hunset]

end GoblinKing
