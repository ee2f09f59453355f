import GoblinKing.Runtime.WorkerEnvironment
import GoblinKing.Library.Paths
import Mathlib.Data.List.TakeWhile

/-!
# The command of a Docker worker

A worker container is started by `docker run`, whose arguments carry the environment of the
worker, the limits of its resource policy and the volumes of its files. An argument of `-e` with
an equals sign defines a variable; without one, the variable is handed over from the environment
of the scheduler.
-/

namespace GoblinKing

open Definitions Posix

/-! ### Paths and addresses -/

/-- What `urlparse` returns. -/
structure ParseResult where
  scheme : String
  netloc : String
  path : String
  params : String
  query : String
  fragment : String

/-- The functions outside of the repository that the runtimes call: the arithmetic of floats, the
URL functions, the resolution of paths and the serialisation of policies. -/
structure RuntimeLibrary where
  floats : Floats
  /-- `urlparse`; it raises on some hosts -/
  urlparse : String → Except String ParseResult
  /-- the property `hostname` of what `urlparse` returns -/
  hostname : ParseResult → Option String
  urlunparse : ParseResult → String
  /-- `Path.resolve`; it raises on loops of links -/
  resolve : Path → Except String Path
  /-- `json.dumps` of a policy without its unset fields -/
  policyJson : ResourcePolicy → String

/-- `str.replace` with a count of one. -/
def replaceFirst (old new : List Char) : List Char → List Char
  | [] => if old = [] then new else []
  | c :: rest =>
      if old.isPrefixOf (c :: rest) then
        new ++ (c :: rest).drop old.length
      else
        c :: replaceFirst old new rest

/-- Translate host-local Redis URLs into a Docker-container-reachable URL. -/
def containerRedisUrl (library : RuntimeLibrary) (redisUrl : String) : Except String String := do
  let parsed ← library.urlparse redisUrl
  match library.hostname parsed with
  | none => .ok redisUrl
  | some hostname =>
      if hostname ≠ "localhost" ∧ hostname ≠ "127.0.0.1" then
        .ok redisUrl
      else
        let netloc := replaceFirst hostname.toList "host.docker.internal".toList
          parsed.netloc.toList
        .ok (library.urlunparse { parsed with netloc := String.ofList netloc })

/-- `Path.parent` -/
def parentOf (path : Path) : Path :=
  { path with parts := path.parts.dropLast }

/-- `Path.relative_to`, `none` where it raises. -/
def relativeTo (path root : Path) : Option Path :=
  if path.absolute = root.absolute ∧ root.parts.isPrefixOf path.parts then
    some ⟨false, path.parts.drop root.parts.length⟩
  else
    none

/-- `Path.as_posix` -/
def asPosix (path : Path) : String :=
  if path.absolute = false ∧ path.parts = [] then
    "."
  else
    (if path.absolute then "/" else "") ++ "/".intercalate path.parts

/-- Resolve relative artifact paths beneath the configured Docker data root. -/
def resolveDockerArtifactRoot (library : RuntimeLibrary) (runRoot : Path) (artifactRoot : String) :
    Except String Path := do
  let configured := Path.parse artifactRoot
  if configured.absolute then
    library.resolve configured
  else
    let relative := (relativeTo configured ⟨false, [".goblin-king"]⟩).getD configured
    let resolved ← library.resolve runRoot
    library.resolve ((parentOf resolved).join relative)

/-- Return a container-mount-relative path or an error. -/
def relativeToDockerDataRoot (library : RuntimeLibrary) (path runRoot : Path) (label : String) :
    Except String String := do
  let resolvedRoot ← library.resolve runRoot
  let dataRoot := parentOf resolvedRoot
  let resolved ← library.resolve path
  match relativeTo resolved dataRoot with
  | some relative => .ok (asPosix relative)
  | none => .error (label ++ " must be inside Docker data root " ++ asPosix dataRoot ++ ": "
      ++ asPosix resolved)

/-! ### Arguments -/

/-- The options of `docker run` that take a value, other than `-e`. -/
inductive ValueOption where
  | name
  | label
  | addHost
  | cpus
  | memory
  | pidsLimit
  | network
  | tmpfs
  | logOpt
  | volume
  | stopTimeout

/-- The text of an option that takes a value. -/
def ValueOption.flag : ValueOption → String
  | .name => "--name"
  | .label => "--label"
  | .addHost => "--add-host"
  | .cpus => "--cpus"
  | .memory => "--memory"
  | .pidsLimit => "--pids-limit"
  | .network => "--network"
  | .tmpfs => "--tmpfs"
  | .logOpt => "--log-opt"
  | .volume => "-v"
  | .stopTimeout => "--stop-timeout"

/-- An option of `docker run`. -/
inductive RunOption where
  | rm
  | readOnly
  | env (argument : String)
  | value (option : ValueOption) (argument : String)

/-- The arguments of an option on the command line. -/
def RunOption.arguments : RunOption → List String
  | .rm => ["--rm"]
  | .readOnly => ["--read-only"]
  | .env argument => ["-e", argument]
  | .value option argument => [option.flag, argument]

/-- The argument of an option `-e`. -/
def RunOption.env? : RunOption → Option String
  | .env argument => some argument
  | .rm | .readOnly | .value _ _ => none

/-- Define a variable on the command line. -/
def RunOption.define (definition : String × String) : RunOption :=
  .env (definition.1 ++ "=" ++ definition.2)

/-- The environment of a process. The names of its variables have no equals sign. -/
structure ProcessEnvironment where
  get : String → Option String
  plain : ∀ name, (get name).isSome → '=' ∉ name.toList

/-- A variable that is set and not empty. -/
def ProcessEnvironment.nonempty (environ : ProcessEnvironment) (name : String) : Option String :=
  (environ.get name).filter (· ≠ "")

/-- Normalize Kubernetes-style memory units into Docker CLI-friendly units. -/
def dockerMemoryQuantity (value : String) : String :=
  match [("Ki", "k"), ("Mi", "m"), ("Gi", "g"), ("Ti", "t")].find?
      (fun replacement => replacement.1.toList.isSuffixOf value.toList) with
  | some (suffix, dockerSuffix) =>
      String.ofList (value.toList.take (value.toList.length - suffix.toList.length)) ++ dockerSuffix
  | none => value

/-- The limit of processors, as a number of them. -/
def cpusArgs (library : RuntimeLibrary) (limit : Option String) :
    Except String (List RunOption) :=
  match limit.filter (· ≠ "") with
  | none => .ok []
  | some limit =>
      if limit.toList.getLast? = some 'm' then do
        let number ← library.floats.parse (String.ofList limit.toList.dropLast)
        .ok [.value .cpus (library.floats.text (library.floats.milli number))]
      else
        .ok [.value .cpus limit]

/-- Translate supported policy fields into docker run arguments. -/
def dockerPolicyArgs (library : RuntimeLibrary) (policy : ResourcePolicy) :
    Except String (List RunOption) := do
  let cpus ← cpusArgs library policy.cpu.limit
  .ok (cpus
    ++ (policy.memory.limit.filter (· ≠ "")).toList.map
      (fun limit => .value .memory (dockerMemoryQuantity limit))
    ++ policy.pidsLimit.toList.map (fun limit => .value .pidsLimit (toString (limit : ℕ)))
    ++ (policy.networkMode.filter (· ≠ "")).toList.map (fun mode => .value .network mode)
    ++ (if policy.filesystem.readOnlyRoot = some true then [.readOnly] else [])
    ++ policy.filesystem.tmpfs.map (fun tmpfsPath => .value .tmpfs tmpfsPath)
    ++ policy.logsMaxBytes.toList.map
      (fun maxBytes => .value .logOpt ("max-size=" ++ toString maxBytes)))

/-- Build Docker environment flags without placing secret values in argv. -/
def dockerEnvArgs (environ : ProcessEnvironment) (workerEnv : List (String × String))
    (secretRefs : List String) : List RunOption :=
  (sortedEnvironment workerEnv).map RunOption.define
    ++ ((secretRefs.dedup.insertionSort (· ≤ ·)).filter
      (fun key => (environ.get key).isSome)).map RunOption.env

/-- The adapter that runs workers in Docker. -/
structure DockerRuntime where
  dockerExecutable : String
  runRoot : Path
  redisUrl : String
  heartbeatIntervalSeconds : ℤ

/-- A worker container to be started. -/
structure DockerRun where
  image : String
  runDir : Path
  context : GoblinContext
  workerId : String
  timeoutSeconds : Option ℤ
  resourcePolicy : Option ResourcePolicy
  workerEnv : List (String × String)
  secretRefs : List String

/-- The paths in a container with its own volumes. -/
def dockerPaths : WorkerPaths where
  input := "/goblin/input.json"
  context := "/goblin/context.json"
  result := "/goblin/result.json"
  artifactRoot := "/artifacts"

/-- The shared data volume, if there is one. -/
def dataVolume (environ : ProcessEnvironment) : Option String :=
  environ.nonempty "GOBLIN_KING_DOCKER_DATA_VOLUME"

/-- Where the shared data volume is mounted. -/
def dataMount (environ : ProcessEnvironment) : String :=
  (environ.get "GOBLIN_KING_DOCKER_DATA_MOUNT").getD "/goblin-data"

/-- The paths in a container with the shared data volume. -/
def dataPaths (library : RuntimeLibrary) (environ : ProcessEnvironment) (runRoot runDir : Path)
    (artifactRoot : Path) : Except String (Option WorkerPaths) :=
  match dataVolume environ with
  | none => .ok none
  | some _ => do
      let runRel ← relativeToDockerDataRoot library runDir runRoot "run directory"
      let artifactRel ← relativeToDockerDataRoot library artifactRoot runRoot "artifact directory"
      .ok (some {
        input := dataMount environ ++ "/" ++ runRel ++ "/input.json"
        context := dataMount environ ++ "/" ++ runRel ++ "/context.json"
        result := dataMount environ ++ "/" ++ runRel ++ "/result.json"
        artifactRoot := dataMount environ ++ "/" ++ artifactRel })

/-- The volumes of a container. -/
def volumeOptions (environ : ProcessEnvironment) (runDir artifactRoot : Path) : List RunOption :=
  match dataVolume environ with
  | some dataVolume => [.value .volume (dataVolume ++ ":" ++ dataMount environ)]
  | none =>
      [.value .volume (asPosix runDir ++ ":/goblin"),
        .value .volume (asPosix artifactRoot ++ ":/artifacts")]

/-- The network of a container, unless its policy has one. -/
def networkOptions (environ : ProcessEnvironment) (resourcePolicy : Option ResourcePolicy) :
    List RunOption :=
  match environ.nonempty "GOBLIN_KING_DOCKER_NETWORK" with
  | none => []
  | some dockerNetwork =>
      if resourcePolicy.all (fun policy => policy.networkMode.isNone) then
        [.value .network dockerNetwork]
      else
        []

/-- The name of a container, its labels and its hosts. -/
def containerOptions (workerId : String) (context : GoblinContext) : List RunOption :=
  [.rm,
    .value .name workerId,
    .value .label "goblin-king.worker=true",
    .value .label ("goblin-king.run-id=" ++ context.runId),
    .value .label ("goblin-king.job-id=" ++ context.jobId),
    .value .addHost "host.docker.internal:host-gateway"]

/-- The time in which a container has to stop. -/
def timeoutOptions (timeoutSeconds : Option ℤ) : List RunOption :=
  match timeoutSeconds with
  | none => []
  | some seconds => [.value .stopTimeout (toString (max seconds 1))]

/-- The arguments for a policy, if there is one. -/
def policyOptions (library : RuntimeLibrary) (resourcePolicy : Option ResourcePolicy) :
    Except String (List RunOption) :=
  match resourcePolicy with
  | none => .ok []
  | some policy => dockerPolicyArgs library policy

/-- Compose a deterministic docker run command for a worker container. -/
def dockerRunCommand (library : RuntimeLibrary) (environ : ProcessEnvironment)
    (runtime : DockerRuntime) (run : DockerRun) : Except String (List String) := do
  let artifactRoot ← resolveDockerArtifactRoot library runtime.runRoot run.context.artifactRoot
  let redisUrl ← containerRedisUrl library runtime.redisUrl
  let policyArgs ← policyOptions library run.resourcePolicy
  let paths ← dataPaths library environ runtime.runRoot run.runDir artifactRoot
  let options := containerOptions run.workerId run.context
    ++ (named (contractDefinitions run.context run.workerId dockerPaths redisUrl
      runtime.heartbeatIntervalSeconds)).map RunOption.define
    ++ (named (workerRunEventEnvironment run.context.runId redisUrl)).map RunOption.define
    ++ dockerEnvArgs environ run.workerEnv run.secretRefs
    ++ (named (policyDefinitions (run.resourcePolicy.map library.policyJson))).map
      RunOption.define
    ++ policyArgs
    ++ (named (pathDefinitions paths)).map RunOption.define
    ++ volumeOptions environ run.runDir artifactRoot
    ++ networkOptions environ run.resourcePolicy
    ++ timeoutOptions run.timeoutSeconds
  .ok ([runtime.dockerExecutable, "run"] ++ options.flatMap RunOption.arguments ++ [run.image])

/-! ### The environment of the container -/

/-- What the contract with a worker in Docker comes to. -/
def dockerContract (library : RuntimeLibrary) (environ : ProcessEnvironment)
    (runtime : DockerRuntime) (run : DockerRun) : Except String WorkerContract := do
  let artifactRoot ← resolveDockerArtifactRoot library runtime.runRoot run.context.artifactRoot
  let redisUrl ← containerRedisUrl library runtime.redisUrl
  let paths ← dataPaths library environ runtime.runRoot run.runDir artifactRoot
  .ok {
    context := run.context
    workerId := run.workerId
    paths := paths.getD dockerPaths
    redisUrl := redisUrl
    heartbeatIntervalSeconds := runtime.heartbeatIntervalSeconds
    policyJson := run.resourcePolicy.map library.policyJson }

/-- The texts of the options that take a value. -/
def valueFlags : List String :=
  [ValueOption.name, .label, .addHost, .cpus, .memory, .pidsLimit, .network, .tmpfs, .logOpt,
    .volume, .stopTimeout].map ValueOption.flag

/-- The arguments of `-e` on the command line of `docker run`, up to the image. -/
def envArguments : List String → List String
  | [] | [_] => []
  | flag :: argument :: rest =>
      if flag = "-e" then
        argument :: envArguments rest
      else if valueFlags.contains flag then
        envArguments rest
      else if flag = "--rm" ∨ flag = "--read-only" then
        envArguments (argument :: rest)
      else
        []

/-- The name in front of the first equals sign. -/
def variableName (text : String) : String :=
  String.ofList (text.toList.takeWhile (· ≠ '='))

/-- What an argument of `-e` defines. Without an equals sign it hands over the variable of the
process, if that is set. -/
def ProcessEnvironment.definition (environ : ProcessEnvironment) (argument : String) :
    String × Option String :=
  if '=' ∈ argument.toList then
    (variableName argument, some (String.ofList ((argument.toList.dropWhile (· ≠ '=')).drop 1)))
  else
    (argument, environ.get argument)

/-- The definitions that a command makes. -/
def commandDefinitions (environ : ProcessEnvironment) (command : List String) :
    List (String × Option String) :=
  (envArguments (command.drop 2)).map environ.definition

/-- The value that a variable has inside of the container that a command starts. -/
def containerValue (environ : ProcessEnvironment) (command : List String) (name : String) :
    Option String :=
  (effective (commandDefinitions environ command) name).join

/-- The command line is read back as the options that it was made of. -/
theorem envArguments_arguments (options : List RunOption) (image : String) :
  envArguments (options.flatMap RunOption.arguments ++ [image]) = options.filterMap RunOption.env?
  := by
  induction options with
  | nil => rfl
  | cons option options ih =>
      obtain ⟨argument, rest, hrest⟩ : ∃ argument rest,
          options.flatMap RunOption.arguments ++ [image] = argument :: rest := by
        cases h : options.flatMap RunOption.arguments with
        | nil => exact ⟨image, [], rfl⟩
        | cons argument rest => exact ⟨argument, rest ++ [image], rfl⟩
      rw [List.flatMap_cons, List.append_assoc, List.filterMap_cons]
      cases option with
      | rm =>
          rw [hrest] at ih ⊢
          simpa [RunOption.arguments, RunOption.env?, envArguments, valueFlags, ValueOption.flag]
            using ih
      | readOnly =>
          rw [hrest] at ih ⊢
          simpa [RunOption.arguments, RunOption.env?, envArguments, valueFlags, ValueOption.flag]
            using ih
      | env argument => simpa [RunOption.arguments, RunOption.env?, envArguments] using ih
      | value option argument =>
          cases option <;>
            simpa [RunOption.arguments, RunOption.env?, envArguments, valueFlags,
              ValueOption.flag] using ih

section

variable (environ : ProcessEnvironment)

/-- An equals sign behind a text does not change the name in it. -/
theorem variableName_append (key value : String) :
  variableName (key ++ "=" ++ value) = variableName key
  := by
  unfold variableName
  rw [String.toList_append, String.toList_append, List.append_assoc, List.takeWhile_append]
  split
  case isTrue hlength =>
    have hkey := (List.takeWhile_prefix (fun c => decide (c ≠ '='))).eq_of_length hlength
    rw [hkey]
    simp
  case isFalse => rfl

/-- A text without an equals sign is a name. -/
theorem variableName_eq_self {key : String} (hkey : '=' ∉ key.toList) :
  variableName key = key
  := by
  have hall : ∀ c ∈ key.toList, decide (c ≠ '=') = true := by
    intro c hc
    rw [decide_eq_true_eq]
    rintro rfl
    apply hkey hc
  rw [variableName, List.takeWhile_eq_self_iff.mpr hall, String.ofList_toList]

/-- A definition on the command line is for the part of its key in front of an equals sign. -/
theorem definition_define (key value : String) :
  (environ.definition (key ++ "=" ++ value)).1 = variableName key
  := by
  have hmem : '=' ∈ (key ++ "=" ++ value).toList := by simp
  rw [ProcessEnvironment.definition, if_pos hmem, variableName_append]

/-- A key without an equals sign is defined with its value. -/
theorem definition_define_plain {key : String} (hkey : '=' ∉ key.toList) (value : String) :
  environ.definition (key ++ "=" ++ value) = (key, some value)
  := by
  have hmem : '=' ∈ (key ++ "=" ++ value).toList := by simp
  have hall : ∀ c ∈ key.toList, decide (c ≠ '=') = true := by
    intro c hc
    rw [decide_eq_true_eq]
    rintro rfl
    apply hkey hc
  have hvalue : (((key ++ "=" ++ value).toList.dropWhile (· ≠ '=')).drop 1) = value.toList := by
    rw [String.toList_append, String.toList_append, List.append_assoc,
      List.dropWhile_append_of_pos hall]
    simp
  rw [ProcessEnvironment.definition, if_pos hmem, variableName_append, variableName_eq_self hkey,
    hvalue, String.ofList_toList]

/-- A variable of the process is handed over with its value. -/
theorem definition_of_isSome {name : String} (h : (environ.get name).isSome) :
  environ.definition name = (name, environ.get name)
  := by
  rw [ProcessEnvironment.definition, if_neg (environ.plain name h)]

end

/-- The definitions of contract variables in a container. -/
def assigned (definitions : List (ContractVariable × String)) : List (String × Option String) :=
  definitions.map (Prod.map ContractVariable.name some)

/-- The definitions that a project adds to a container. -/
def projectDefinitions (environ : ProcessEnvironment) (workerEnv : List (String × String))
    (secretRefs : List String) : List (String × Option String) :=
  ((dockerEnvArgs environ workerEnv secretRefs).filterMap RunOption.env?).map environ.definition

/-- The definitions on the command line for contract variables. -/
theorem definitions_named (environ : ProcessEnvironment)
    (definitions : List (ContractVariable × String)) :
  (((named definitions).map RunOption.define).filterMap RunOption.env?).map environ.definition
    = assigned definitions
  := by
  induction definitions with
  | nil => rfl
  | cons definition definitions ih =>
      obtain ⟨var, value⟩ := definition
      rw [show named ((var, value) :: definitions) = (var.name, value) :: named definitions by rfl,
        List.map_cons, List.filterMap_cons]
      simp only [RunOption.define, RunOption.env?, List.map_cons]
      rw [definition_define_plain environ var.equals_notMem_name]
      apply congrArg _ ih

/-- The limit of processors defines no variable. -/
theorem cpusArgs_env? {library : RuntimeLibrary} {limit : Option String} {args : List RunOption}
    (h : cpusArgs library limit = .ok args) :
  args.filterMap RunOption.env? = []
  := by
  unfold cpusArgs at h
  split at h
  · cases h
    rfl
  · split at h
    · obtain ⟨number, -, h⟩ := Except.bind_eq_ok.mp h
      cases h
      rfl
    · cases h
      rfl

/-- The arguments for a policy define no variable. -/
theorem policyOptions_env? {library : RuntimeLibrary} {resourcePolicy : Option ResourcePolicy}
    {args : List RunOption} (h : policyOptions library resourcePolicy = .ok args) :
  args.filterMap RunOption.env? = []
  := by
  cases resourcePolicy with
  | none =>
      cases h
      rfl
  | some policy =>
      obtain ⟨cpus, hcpus, h⟩ := Except.bind_eq_ok.mp h
      cases h
      simp only [List.filterMap_append, cpusArgs_env? hcpus, List.filterMap_map, Function.comp_def,
        RunOption.env?]
      split <;> simp [RunOption.env?]

/-- The options for volumes define no variable. -/
theorem volumeOptions_env? (environ : ProcessEnvironment) (runDir artifactRoot : Path) :
  (volumeOptions environ runDir artifactRoot).filterMap RunOption.env? = []
  := by
  unfold volumeOptions
  split <;> rfl

/-- The options for the network define no variable. -/
theorem networkOptions_env? (environ : ProcessEnvironment) (policy : Option ResourcePolicy) :
  (networkOptions environ policy).filterMap RunOption.env? = []
  := by
  unfold networkOptions
  split
  · rfl
  · split <;> rfl

/-- The options for the time define no variable. -/
theorem timeoutOptions_env? (timeoutSeconds : Option ℤ) :
  (timeoutOptions timeoutSeconds).filterMap RunOption.env? = []
  := by
  cases timeoutSeconds <;> rfl

/-- The name of a container, its labels and its hosts define no variable. -/
theorem containerOptions_env? (workerId : String) (context : GoblinContext) :
  (containerOptions workerId context).filterMap RunOption.env? = []
  := rfl

/-- A command defines the variables of the contract, those of the project, and once more the
policy and the paths on the data volume. -/
theorem commandDefinitions_eq {library : RuntimeLibrary} {environ : ProcessEnvironment}
    {runtime : DockerRuntime} {run : DockerRun} {command : List String}
    (h : dockerRunCommand library environ runtime run = .ok command) :
  ∃ contract paths, dockerContract library environ runtime run = .ok contract ∧
    contract.paths = paths.getD dockerPaths ∧
    paths.isSome = (dataVolume environ).isSome ∧
    commandDefinitions environ command
      = assigned (contractDefinitions contract.context contract.workerId dockerPaths
          contract.redisUrl contract.heartbeatIntervalSeconds
        ++ workerRunEventEnvironment contract.context.runId contract.redisUrl)
      ++ projectDefinitions environ run.workerEnv run.secretRefs
      ++ assigned (policyDefinitions contract.policyJson ++ pathDefinitions paths)
  := by
  simp only [dockerRunCommand, Except.bind_eq_ok] at h
  obtain ⟨artifactRoot, hroot, redisUrl, hredis, policyArgs, hpolicy, paths, hpaths, h⟩ := h
  have hsome : paths.isSome = (dataVolume environ).isSome := by
    unfold dataPaths at hpaths
    split at hpaths
    case h_1 hnone =>
      cases hpaths
      rw [hnone]
      rfl
    case h_2 volume hvolume =>
      simp only [Except.bind_eq_ok] at hpaths
      obtain ⟨runRel, -, artifactRel, -, hpaths⟩ := hpaths
      cases hpaths
      rw [hvolume]
      rfl
  use {
    context := run.context
    workerId := run.workerId
    paths := paths.getD dockerPaths
    redisUrl := redisUrl
    heartbeatIntervalSeconds := runtime.heartbeatIntervalSeconds
    policyJson := run.resourcePolicy.map library.policyJson }, paths
  constructor
  · simp only [dockerContract, Except.bind_eq_ok]
    exact ⟨artifactRoot, hroot, redisUrl, hredis, paths, hpaths, rfl⟩
  use rfl, hsome
  cases h
  rw [commandDefinitions, List.append_assoc, List.drop_left' (by rfl), envArguments_arguments]
  simp only [List.filterMap_append, List.map_append, definitions_named,
    policyOptions_env? hpolicy, volumeOptions_env?, networkOptions_env?, timeoutOptions_env?,
    containerOptions_env?, List.nil_append, List.append_nil]
  simp only [projectDefinitions, assigned, List.map_append, List.append_assoc]

end GoblinKing
