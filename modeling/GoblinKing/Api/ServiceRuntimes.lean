import GoblinKing.Api.Repository
import GoblinKing.Library.Custody
import GoblinKing.Library.Transition
import Mathlib.Data.List.DropRight

/-!
# Managed service runtimes

The endpoints that start and stop the runtimes of notebook services: declaring, validating,
starting and stopping a notebook service, starting and stopping a repository service, and
retiring a replaced runtime when its WebSocket connections have drained. Requests run at the
same time. A phase of a request stands before its next transaction or external command, and
holds the local variables that are still needed.

What the code does not decide itself is the input of a step: the clock, identifiers, how an
external command ends, and what a probe returns. The containers and deployments that are
running are part of the state.
-/

namespace GoblinKing

/-! ### Runtimes -/

/-- A managed runtime: the service that it runs, and the backend and the name that it runs
under. -/
structure Runtime where
  kind : String
  backend : String
  name : String
  deriving DecidableEq, Repr

/-- Where a runtime runs. A backend runs one runtime under a name. -/
def Runtime.place (runtime : Runtime) : String × String :=
  (runtime.backend, runtime.name)

/-- The runtime that the row of a service names. -/
def NotebookServiceRecord.runtime (record : NotebookServiceRecord) : Option Runtime :=
  match truthy record.runtimeBackend, truthy record.runtimeName with
  | some backend, some name => some ⟨record.kind, backend, name⟩
  | _, _ => none

/-- The backends that can run a service. -/
inductive ServiceBackend where
  | docker
  | kubernetes
  deriving DecidableEq, Repr

/-- The backend under a name. -/
def serviceBackend (text : String) : Option ServiceBackend :=
  if text = "docker" then some .docker else if text = "kubernetes" then some .kubernetes else none

/-- The settings of the API and of the runtime manager. -/
structure ServiceConfig where
  settings : ApiSettings
  /-- `_resolved_backend` -/
  backend : String
  /-- whether `GOBLIN_KING_DOCKER_NETWORK` is set -/
  dockerNetwork : Bool

/-- Remove the dashes at both ends. -/
def stripDashes (chars : List Char) : List Char :=
  (chars.dropWhile (fun c => c = '-')).rdropWhile (fun c => c = '-')

/-- `kubernetes_name` -/
def kubernetesName (settings : ApiSettings) (value : String) : String :=
  let lowered := (settings.lower value).toList.map (fun c => if settings.isalnum c then c else '-')
  let name := stripDashes ((collapseDashes lowered).take 63)
  if name.isEmpty then "goblin-worker" else String.ofList name

/-- `notebook_service_runtime_name`. A suffix leaves room for the base. -/
def notebookServiceRuntimeName (settings : ApiSettings) (kind sourceHash : String)
    (suffix : Option String) : String :=
  let base := (kubernetesName settings
    ("gk-nbsvc-" ++ kind ++ "-" ++ String.ofList (sourceHash.toList.take 12))).toList
  match suffix with
  | none => String.ofList (stripDashes (base.take 63))
  | some suffix =>
      let part := (kubernetesName settings suffix).toList
      String.ofList (stripDashes
        (stripDashes (base.take (63 - part.length - 1)) ++ '-' :: part))

/-- The runtime that `manager.start` starts for a service. -/
def managedRuntime (config : ServiceConfig) (record : NotebookServiceRecord)
    (suffix : Option String) : Runtime where
  kind := record.kind
  backend := config.backend
  name := notebookServiceRuntimeName config.settings record.kind record.sourceHash suffix

/-! ### Commands -/

/-- How an external command ends. One that reports a failure, or raises, may have taken
effect all the same. -/
inductive CommandOutcome where
  | done
  | failed (effect : Bool)
  | raised (effect : Bool)
  deriving DecidableEq, Repr

/-- Whether a command has taken effect. -/
def CommandOutcome.effective : CommandOutcome → Bool
  | .done => true
  | .failed effect | .raised effect => effect

/-- Whether `stop_by_backend` returns. The exit status of Docker is not looked at. -/
def stopReturns (backend : String) (outcome : CommandOutcome) : Bool :=
  match serviceBackend backend, outcome with
  | some .docker, .done | some .docker, .failed _ | some .kubernetes, .done => true
  | some .docker, .raised _ | some .kubernetes, .failed _ | some .kubernetes, .raised _ => false
  | none, _ => false

/-- The stages of `manager.start`: remove what has the name, run, ask for the port or wait for
the deployment, probe, and clean up after a failure. -/
inductive StartStage where
  | clear
  | launch
  | inspect
  | probe
  | cleanup
  deriving DecidableEq, Repr

/-- What a stage of `manager.start` comes to. -/
inductive StartResult where
  | next (stage : StartStage)
  /-- the proof is returned -/
  | proof
  /-- `NotebookServiceRuntimeError` -/
  | error
  /-- another exception -/
  | raised
  deriving DecidableEq

/-- `_start_docker`. Only a probe that fails is cleaned up after. -/
def startDocker (dockerNetwork : Bool) (stage : StartStage) (outcome : CommandOutcome) :
    StartResult :=
  match outcome, stage with
  | .raised _, _ => .raised
  | _, .clear => .next .launch
  | .done, .launch => .next (if dockerNetwork then .probe else .inspect)
  | .done, .inspect => .next .probe
  | .done, .probe => .proof
  | .failed _, .probe => .next .cleanup
  | .failed _, .launch | .failed _, .inspect | _, .cleanup => .error

/-- `_start_kubernetes`. Every failure is cleaned up after, but for a configuration that
cannot be loaded. -/
def startKubernetes (stage : StartStage) (outcome : CommandOutcome) : StartResult :=
  match outcome, stage with
  | .done, .clear => .next .launch
  | .done, .launch => .next .inspect
  | .done, .inspect => .next .probe
  | .done, .probe => .proof
  | .done, .cleanup => .error
  | .raised _, .clear | .failed _, .cleanup | .raised _, .cleanup => .raised
  | _, _ => .next .cleanup

/-- What a stage of `manager.start` comes to for a runtime. -/
def startResult (config : ServiceConfig) (runtime : Runtime) (stage : StartStage)
    (outcome : CommandOutcome) : StartResult :=
  match serviceBackend runtime.backend with
  | none => .error
  | some .docker => startDocker config.dockerNetwork stage outcome
  | some .kubernetes => startKubernetes stage outcome

/-! ### Long services -/

/-- A status code of success. -/
def successful (statusCode : Option ℕ) : Bool :=
  statusCode.any (fun code => decide (200 ≤ code) && decide (code < 300))

/-- `service_websocket_ready` -/
def serviceWebsocketReady (service : LongServiceRecord) : Bool :=
  decide (service.status = .running) && service.lastProbeAt.isSome
    && successful service.statusCode

/-! ### Requests -/

/-- The service that a repository start replaces: its row, and its active long service. -/
structure PreviousService where
  record : NotebookServiceRecord
  serviceId : Id
  deriving DecidableEq

/-- What a service is started for. -/
inductive StartPurpose where
  | validate
  | start
  | route (previous : Option PreviousService)
  deriving DecidableEq

/-- Against what the project of a service is checked: the caller, or an entry. -/
inductive ServiceAccess where
  | caller (principal : Principal)
  | entry (projectId : Option Id)
  deriving DecidableEq

/-- What a request does with the service that it reads. A repository start is given the kinds
of the published versions of its entry, newest first. -/
inductive ServiceOperation where
  | validate
  | start
  | stop
  | route (published : List String)
  deriving DecidableEq

/-- Where a request stands. -/
inductive ServicePhase where
  | declare (principal : Principal) (projectId : Option Id)
      (request : NotebookServiceCreateRequest)
  | save (projectId : Option Id) (request : NotebookServiceCreateRequest)
  | read (access : ServiceAccess) (kind : String) (operation : ServiceOperation)
  /-- within `manager.start` -/
  | launching (purpose : StartPurpose) (record : NotebookServiceRecord) (runtime : Runtime)
      (stage : StartStage)
  | validateStop (kind : String) (runtime : Runtime)
  | validateWrite (kind : String) (ok : Bool)
  /-- within `_stop_existing_notebook_service_runtime` -/
  | restartMark (record : NotebookServiceRecord)
  | restartStop (record : NotebookServiceRecord) (old : Runtime)
  | restartClear (record : NotebookServiceRecord)
  | startFailed (kind : String)
  | startRegister (record : NotebookServiceRecord) (runtime : Runtime)
  | startPoint (kind : String) (runtime : Runtime) (serviceId : Id)
  | startProbe (kind : String) (runtime : Runtime) (serviceId : Id)
  | startUndo (kind : String) (runtime : Runtime) (serviceId : Id)
  | startUndoWrite (kind : String) (runtime : Runtime) (serviceId : Id)
  | stopRuntime (record : NotebookServiceRecord)
  | stopMark (record : NotebookServiceRecord)
  | stopWrite (kind : String)
  /-- within `_last_known_good_repository_service` -/
  | routeFind (record : NotebookServiceRecord) (published : List String)
  | routeService (record candidate : NotebookServiceRecord) (serviceId : Id)
      (published : List String)
  | routeRegister (record : NotebookServiceRecord) (runtime : Runtime)
      (previous : Option PreviousService)
  | routeProbe (kind : String) (runtime : Runtime) (serviceId : Id)
      (previous : Option PreviousService)
  | routeUndo (runtime : Runtime) (previous : Option PreviousService)
  | routePoint (kind : String) (runtime : Runtime) (serviceId : Id)
      (previous : Option PreviousService)
  | routeMark (previous : PreviousService)
  | routeDrain (previous : PreviousService)
  deriving DecidableEq

/-- A request that is under way. -/
structure ServiceRequest where
  id : Id
  phase : ServicePhase

/-- The stages of `_retire_replaced_notebook_service`. -/
inductive DrainStage where
  | stop
  | read
  | write
  deriving DecidableEq

/-- A replaced service that is retired when its connections have drained. -/
structure Drain where
  serviceId : Id
  record : NotebookServiceRecord
  stage : DrainStage

/-- The tables, the runtimes that are running, the requests that are under way and the
registry of drains. -/
structure ServiceSystem where
  services : Table NotebookServiceRecord.kind
  longServices : Table LongServiceRecord.id
  live : List Runtime
  requests : Table ServiceRequest.id
  drains : Table Drain.serviceId

/-- No services, and nothing runs. -/
def ServiceSystem.init : ServiceSystem :=
  ⟨.empty, .empty, [], .empty, .empty⟩

/-- A request of a caller. The entry and the version of a repository request are resolved:
the project of the entry and the kind of the version are given. -/
inductive ServiceCall where
  | create (principal : Principal) (request : NotebookServiceCreateRequest)
  | validate (principal : Principal) (kind : String)
  | start (principal : Principal) (kind : String)
  | stop (principal : Principal) (kind : String)
  | startRepository (principal : Principal) (projectId : Option Id) (kind : String)
      (published : List String)
  | stopRepository (principal : Principal) (projectId : Option Id) (kind : String)

/-- The checks of a request before it reads the services. -/
def openService (settings : ApiSettings) : ServiceCall → Except String ServicePhase
  | .create principal request => do
      forbidViewerWrite principal
      raiseIf (settings.registered request.kind)
        ("goblin kind already exists in registry: " ++ request.kind)
      let projectId ← projectForRequest settings principal request.projectId
      .ok (.declare principal projectId request)
  | .validate principal kind => do
      forbidViewerWrite principal
      .ok (.read (.caller principal) kind .validate)
  | .start principal kind => do
      forbidViewerWrite principal
      .ok (.read (.caller principal) kind .start)
  | .stop principal kind => do
      forbidViewerWrite principal
      .ok (.read (.caller principal) kind .stop)
  | .startRepository principal projectId kind published => do
      forbidViewerWrite principal
      .ok (.read (.entry projectId) kind (.route published))
  | .stopRepository principal projectId kind => do
      forbidViewerWrite principal
      .ok (.read (.entry projectId) kind .stop)

/-! ### Transactions and commands -/

/-- What a step is given from outside. -/
structure ServiceInput where
  now : Instant := 0
  /-- the identifier of a new long service -/
  freshId : Id := ""
  /-- the hexadecimal digits in the name of a route candidate -/
  token : String := ""
  /-- how an external command, or a probe of the runtime manager, ends -/
  outcome : CommandOutcome := .done
  /-- the status code that a probe of the API is answered with; `none` when it raises -/
  probe : Option (Option ℕ) := some (some 200)

/-- What a step changes. -/
inductive ServiceEffect where
  | nothing
  | save (record : NotebookServiceRecord)
  | setRuntime (kind : String) (runtime : ServiceRuntime)
  | saveLongService (service : LongServiceRecord)
  | probeLongService (serviceId : Id) (probedAt : Instant) (statusCode : Option ℕ)
  | markLongService (serviceId : Id) (status : LongServiceStatus)
  | launch (runtime : Runtime)
  | remove (runtime : Runtime)
  | drain (previous : PreviousService)

/-- The effect of stopping a runtime. -/
def stopEffect (runtime : Runtime) (outcome : CommandOutcome) : ServiceEffect :=
  if (serviceBackend runtime.backend).isSome && outcome.effective then
    .remove runtime
  else
    .nothing

/-- The effect of a stage of `manager.start`. -/
def startEffect (runtime : Runtime) (stage : StartStage) (outcome : CommandOutcome) :
    ServiceEffect :=
  match stage with
  | .clear | .cleanup => stopEffect runtime outcome
  | .launch =>
      if (serviceBackend runtime.backend).isSome && outcome.effective then
        .launch runtime
      else
        .nothing
  | .inspect | .probe => .nothing

/-- The row of a service that is declared. Nothing of a runtime is kept. -/
def declaredService (settings : ApiSettings) (projectId : Option Id)
    (request : NotebookServiceCreateRequest) : NotebookServiceRecord where
  kind := request.kind
  projectId := projectId
  source := request.source
  sourceHash := notebookServiceSourceHash settings request.source request.appName
    request.requirements
  appName := request.appName
  requirements := request.requirements

/-- The check of the project of a service. -/
def ServiceAccess.check (settings : ApiSettings) (record : NotebookServiceRecord) :
    ServiceAccess → Except String Unit
  | .caller principal => do
      let _ ← projectForRequest settings principal record.projectId
      .ok ()
  | .entry projectId =>
      raiseIf (decide (record.projectId ≠ projectId))
        ("repository notebook service project mismatch: " ++ record.kind)

/-- The row that a request reads, when it may. -/
def readService (settings : ApiSettings) (services : Table NotebookServiceRecord.kind)
    (access : ServiceAccess) (kind : String) : Except String NotebookServiceRecord :=
  match services.find? kind with
  | none =>
      .error ((match access with
        | .caller _ => "notebook service not found: "
        | .entry _ => "repository notebook service missing: ") ++ kind)
  | some record => do
      access.check settings record
      .ok record

/-- The runtime columns of a service that runs. -/
def runningAs (runtime : Runtime) (serviceId : Id) (status : String) : ServiceRuntime where
  runtimeStatus := status
  runtimeBackend := some runtime.backend
  runtimeName := some runtime.name
  activeServiceId := some serviceId

/-- The phase of `manager.start` for a purpose. -/
def startManaged (config : ServiceConfig) (purpose : StartPurpose)
    (record : NotebookServiceRecord) (suffix : Option String) : ServicePhase :=
  .launching purpose record (managedRuntime config record suffix) .clear

/-- The phase after the proof of `manager.start`. -/
def provenPhase (record : NotebookServiceRecord) (runtime : Runtime) : StartPurpose → ServicePhase
  | .validate => .validateStop record.kind runtime
  | .start => .startRegister record runtime
  | .route previous => .routeRegister record runtime previous

/-- The phase after a `NotebookServiceRuntimeError` of `manager.start`. -/
def failedPhase (record : NotebookServiceRecord) : StartPurpose → Option ServicePhase
  | .validate => some (.validateWrite record.kind false)
  | .start => some (.startFailed record.kind)
  | .route _ => none

/-- The phase after a stage of `manager.start`. -/
def launchNext (purpose : StartPurpose) (record : NotebookServiceRecord) (runtime : Runtime) :
    StartResult → Option ServicePhase
  | .next stage => some (.launching purpose record runtime stage)
  | .proof => some (provenPhase record runtime purpose)
  | .error => failedPhase record purpose
  | .raised => none

/-- The phase after the row of a service is read. -/
def operationPhase (config : ServiceConfig) (record : NotebookServiceRecord) :
    ServiceOperation → ServicePhase
  | .validate => startManaged config .validate record (some "validate")
  | .start => .restartMark record
  | .stop => .stopRuntime record
  | .route published => .routeFind record published

/-- The search for the service that a repository start replaces, over the kinds that are left. -/
def routeNext (config : ServiceConfig) (services : Table NotebookServiceRecord.kind)
    (token : String) (record : NotebookServiceRecord) : List String → ServicePhase
  | [] => startManaged config (.route none) record (some ("route-" ++ token))
  | kind :: published =>
      match services.find? kind with
      | none => .routeFind record published
      | some candidate =>
          match truthy candidate.activeServiceId with
          | none => .routeFind record published
          | some serviceId => .routeService record candidate serviceId published

/-- Marking the active long service of a row as stopped, if it has one. -/
def markStopped (record : NotebookServiceRecord) : ServiceEffect :=
  match truthy record.activeServiceId with
  | some serviceId => .markLongService serviceId .stopped
  | none => .nothing

/-- A step of a request: what it changes, and the phase after it. -/
def ServicePhase.step (config : ServiceConfig) (σ : ServiceSystem) (input : ServiceInput) :
    ServicePhase → ServiceEffect × Option ServicePhase
  | .declare principal projectId request =>
      match (do
        ensureServiceDeclarable config.settings principal projectId
          (σ.services.find? request.kind)
        validateKind request.kind : Except String Unit) with
      | .error _ => (.nothing, none)
      | .ok _ => (.nothing, some (.save projectId request))
  | .save projectId request => (.save (declaredService config.settings projectId request), none)
  | .read access kind operation =>
      match readService config.settings σ.services access kind with
      | .error _ => (.nothing, none)
      | .ok record => (.nothing, some (operationPhase config record operation))
  | .launching purpose record runtime stage =>
      (startEffect runtime stage input.outcome,
        launchNext purpose record runtime (startResult config runtime stage input.outcome))
  | .validateStop kind runtime =>
      (stopEffect runtime input.outcome,
        if stopReturns runtime.backend input.outcome then some (.validateWrite kind true) else none)
  | .validateWrite kind ok =>
      (.setRuntime kind { runtimeStatus := if ok then "validated" else "failed" }, none)
  | .restartMark record =>
      (markStopped record, some (match record.runtime with
        | some old => .restartStop record old
        | none => startManaged config .start record none))
  | .restartStop record old =>
      (stopEffect old input.outcome,
        if stopReturns old.backend input.outcome then some (.restartClear record) else none)
  | .restartClear record =>
      (.setRuntime record.kind { runtimeStatus := "stopped" },
        some (startManaged config .start record none))
  | .startFailed kind => (.setRuntime kind { runtimeStatus := "failed" }, none)
  | .startRegister record runtime =>
      (.saveLongService {
        id := input.freshId, createdAt := input.now, projectId := record.projectId },
        some (.startPoint record.kind runtime input.freshId))
  | .startPoint kind runtime serviceId =>
      (.setRuntime kind (runningAs runtime serviceId "running"),
        if (σ.services.find? kind).isSome then some (.startProbe kind runtime serviceId) else none)
  | .startProbe kind runtime serviceId =>
      match input.probe with
      | none => (.nothing, none)
      | some statusCode =>
          (.probeLongService serviceId input.now statusCode,
            if successful statusCode then none else some (.startUndo kind runtime serviceId))
  | .startUndo kind runtime serviceId =>
      (stopEffect runtime input.outcome,
        if stopReturns runtime.backend input.outcome then
          some (.startUndoWrite kind runtime serviceId)
        else
          none)
  | .startUndoWrite kind runtime serviceId =>
      (.setRuntime kind (runningAs runtime serviceId "failed"), none)
  | .stopRuntime record =>
      match record.runtime with
      | none => (.nothing, some (.stopMark record))
      | some runtime =>
          (stopEffect runtime input.outcome,
            if stopReturns runtime.backend input.outcome then some (.stopMark record) else none)
  | .stopMark record => (markStopped record, some (.stopWrite record.kind))
  | .stopWrite kind => (.setRuntime kind { runtimeStatus := "stopped" }, none)
  | .routeFind record published =>
      (.nothing, some (routeNext config σ.services input.token record published))
  | .routeService record candidate serviceId published =>
      (.nothing, some (if (σ.longServices.find? serviceId).any serviceWebsocketReady then
        startManaged config (.route (some ⟨candidate, serviceId⟩)) record
          (some ("route-" ++ input.token))
      else
        .routeFind record published))
  | .routeRegister record runtime previous =>
      -- with the proof of the probe of the runtime manager
      (.saveLongService {
        id := input.freshId, createdAt := input.now, projectId := record.projectId,
        statusCode := some 200 },
        some (.routeProbe record.kind runtime input.freshId previous))
  | .routeProbe kind runtime serviceId previous =>
      match input.probe with
      | none => (.nothing, none)
      | some statusCode =>
          (.probeLongService serviceId input.now statusCode,
            some (if successful statusCode then
              .routePoint kind runtime serviceId previous
            else
              .routeUndo runtime previous))
  | .routeUndo runtime _ => (stopEffect runtime input.outcome, none)
  | .routePoint kind runtime serviceId previous =>
      (.setRuntime kind (runningAs runtime serviceId "running"),
        if (σ.services.find? kind).isSome then previous.map .routeMark else none)
  | .routeMark previous =>
      (.markLongService previous.serviceId .stopped, some (.routeDrain previous))
  | .routeDrain previous => (.drain previous, none)

/-- The row of a long service after a probe. -/
def LongServiceRecord.probed (probedAt : Instant) (statusCode : Option ℕ)
    (service : LongServiceRecord) : LongServiceRecord :=
  { service with
    status := if successful statusCode then .running else .failed
    lastProbeAt := some probedAt
    statusCode := statusCode }

/-- The row of a long service with another status, and a proof without a status code. -/
def LongServiceRecord.marked (status : LongServiceStatus) (service : LongServiceRecord) :
    LongServiceRecord :=
  { service with status := status, statusCode := none }

/-- `update_long_service_probe` -/
def updateLongServiceProbe (services : Table LongServiceRecord.id) (serviceId : Id)
    (probedAt : Instant) (statusCode : Option ℕ) : Table LongServiceRecord.id :=
  services.update (fun row => decide (row.id = serviceId))
    (LongServiceRecord.probed probedAt statusCode) (fun _ => rfl)

/-- `update_long_service_status` -/
def updateLongServiceStatus (services : Table LongServiceRecord.id) (serviceId : Id)
    (status : LongServiceStatus) : Table LongServiceRecord.id :=
  services.update (fun row => decide (row.id = serviceId)) (LongServiceRecord.marked status)
    (fun _ => rfl)

/-- The registry of drains with one more. A service that is draining already keeps its drain. -/
def registerDrain (drains : Table Drain.serviceId) (previous : PreviousService) :
    Table Drain.serviceId :=
  (drains.insert? ⟨previous.serviceId, previous.record, .stop⟩).getD drains

/-- The system after an effect; `none` when it is not possible: an identifier that is taken is
not drawn, and a backend refuses a name that is taken. -/
def ServiceEffect.apply (σ : ServiceSystem) : ServiceEffect → Option ServiceSystem
  | .nothing => some σ
  | .save record => some { σ with services := σ.services.upsert record }
  | .setRuntime kind runtime =>
      some { σ with services := updateNotebookServiceRuntime σ.services kind runtime }
  | .saveLongService service =>
      (σ.longServices.insert? service).map (fun services => { σ with longServices := services })
  | .probeLongService serviceId probedAt statusCode =>
      some { σ with
        longServices := updateLongServiceProbe σ.longServices serviceId probedAt statusCode }
  | .markLongService serviceId status =>
      some { σ with longServices := updateLongServiceStatus σ.longServices serviceId status }
  | .launch runtime =>
      (Custody.start Runtime.place runtime σ.live).map (fun live => { σ with live := live })
  | .remove runtime => some { σ with live := Custody.stop Runtime.place runtime.place σ.live }
  | .drain previous => some { σ with drains := registerDrain σ.drains previous }

/-! ### The system -/

/-- The system with a request at its next phase, or without it. -/
def ServiceSystem.setPhase (σ : ServiceSystem) (requestId : Id) :
    Option ServicePhase → ServiceSystem
  | some phase =>
      { σ with
        requests := σ.requests.update (fun request => decide (request.id = requestId))
          (fun request => { request with phase := phase }) (fun _ => rfl) }
  | none =>
      { σ with requests := σ.requests.delete (fun request => decide (request.id = requestId)) }

/-- The system with a drain at its next stage, or without it. -/
def ServiceSystem.setStage (σ : ServiceSystem) (serviceId : Id) :
    Option DrainStage → ServiceSystem
  | some stage =>
      { σ with
        drains := σ.drains.update (fun drain => decide (drain.serviceId = serviceId))
          (fun drain => { drain with stage := stage }) (fun _ => rfl) }
  | none =>
      { σ with drains := σ.drains.delete (fun drain => decide (drain.serviceId = serviceId)) }

/-- A step of the retirement of a replaced service. The columns of the row are cleared only
while it still has the replaced service as its active one. -/
def Drain.step (σ : ServiceSystem) (outcome : CommandOutcome) (drain : Drain) :
    ServiceEffect × Option DrainStage :=
  match drain.stage with
  | .stop =>
      match drain.record.runtime with
      | none => (.nothing, some .read)
      | some runtime =>
          (stopEffect runtime outcome,
            if stopReturns runtime.backend outcome then some .read else none)
  | .read =>
      (.nothing,
        if (σ.services.find? drain.record.kind).any
            (fun current => decide (current.activeServiceId = some drain.serviceId)) then
          some .write
        else
          none)
  | .write => (.setRuntime drain.record.kind { runtimeStatus := "stopped" }, none)

/-- What can happen: a request comes in or goes on, a drain goes on, or another endpoint
probes a long service or gives it another status. -/
inductive ServiceAction where
  | receive (requestId : Id) (call : ServiceCall)
  | advance (requestId : Id) (input : ServiceInput)
  | retire (serviceId : Id) (outcome : CommandOutcome)
  | probe (serviceId : Id) (probedAt : Instant) (statusCode : Option ℕ)
  | mark (serviceId : Id) (status : LongServiceStatus)

/-- A step of the system; `none` when the action is not possible. -/
def serviceStep (config : ServiceConfig) (σ : ServiceSystem) : ServiceAction → Option ServiceSystem
  | .receive requestId call =>
      match openService config.settings call with
      | .error _ => some σ
      | .ok phase =>
          (σ.requests.insert? ⟨requestId, phase⟩).map
            (fun requests => { σ with requests := requests })
  | .advance requestId input =>
      match σ.requests.find? requestId with
      | none => none
      | some request =>
          let (effect, next) := request.phase.step config σ input
          (effect.apply σ).map (fun τ => τ.setPhase requestId next)
  | .retire serviceId outcome =>
      match σ.drains.find? serviceId with
      | none => none
      | some drain =>
          let (effect, next) := drain.step σ outcome
          (effect.apply σ).map (fun τ => τ.setStage serviceId next)
  | .probe serviceId probedAt statusCode =>
      ServiceEffect.apply σ (.probeLongService serviceId probedAt statusCode)
  | .mark serviceId status => ServiceEffect.apply σ (.markLongService serviceId status)

/-- What a step does: a request is refused or opened, a request or a drain goes on after its effect
has succeeded, or another endpoint writes a long service. -/
inductive ServiceStep (config : ServiceConfig) (σ : ServiceSystem) :
    ServiceAction → ServiceSystem → Prop where
  | refuse (requestId : Id) (call : ServiceCall) : ServiceStep config σ (.receive requestId call) σ
  | receive {requestId : Id} {call : ServiceCall} {phase : ServicePhase}
      {requests : Table ServiceRequest.id} (hopen : openService config.settings call = .ok phase)
      (hinsert : σ.requests.insert? ⟨requestId, phase⟩ = some requests) :
      ServiceStep config σ (.receive requestId call) { σ with requests := requests }
  | advance {requestId : Id} {input : ServiceInput} {request : ServiceRequest} {τ : ServiceSystem}
      (hrequest : σ.requests.find? requestId = some request)
      (heffect : (request.phase.step config σ input).1.apply σ = some τ) :
      ServiceStep config σ (.advance requestId input)
        (τ.setPhase requestId (request.phase.step config σ input).2)
  | retire {serviceId : Id} {outcome : CommandOutcome} {drain : Drain} {τ : ServiceSystem}
      (hdrain : σ.drains.find? serviceId = some drain)
      (heffect : (drain.step σ outcome).1.apply σ = some τ) :
      ServiceStep config σ (.retire serviceId outcome)
        (τ.setStage serviceId (drain.step σ outcome).2)
  | probe {serviceId : Id} {probedAt : Instant} {statusCode : Option ℕ} {τ : ServiceSystem}
      (heffect : ServiceEffect.apply σ (.probeLongService serviceId probedAt statusCode) = some τ) :
      ServiceStep config σ (.probe serviceId probedAt statusCode) τ
  | mark {serviceId : Id} {status : LongServiceStatus} {τ : ServiceSystem}
      (heffect : ServiceEffect.apply σ (.markLongService serviceId status) = some τ) :
      ServiceStep config σ (.mark serviceId status) τ

/-- Every step is one of these. -/
theorem serviceStep_cases {config : ServiceConfig} {σ τ : ServiceSystem} {a : ServiceAction}
    (h : serviceStep config σ a = some τ) :
  ServiceStep config σ a τ
  := by
  cases a with
  | receive requestId call =>
      simp only [serviceStep] at h
      split at h
      case h_1 =>
        obtain rfl := Option.some.inj h
        apply ServiceStep.refuse
      case h_2 phase hopen =>
        obtain ⟨requests, hinsert, rfl⟩ := Option.map_eq_some_iff.mp h
        apply ServiceStep.receive hopen hinsert
  | advance requestId input =>
      simp only [serviceStep] at h
      split at h
      case h_1 => cases h
      case h_2 request hrequest =>
        obtain ⟨υ, heffect, rfl⟩ := Option.map_eq_some_iff.mp h
        apply ServiceStep.advance hrequest heffect
  | retire serviceId outcome =>
      simp only [serviceStep] at h
      split at h
      case h_1 => cases h
      case h_2 drain hdrain =>
        obtain ⟨υ, heffect, rfl⟩ := Option.map_eq_some_iff.mp h
        apply ServiceStep.retire hdrain heffect
  | probe serviceId probedAt statusCode => apply ServiceStep.probe h
  | mark serviceId status => apply ServiceStep.mark h

end GoblinKing
