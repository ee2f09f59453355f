import GoblinKing.Api.RepositorySources
import GoblinKing.Api.ServiceRuntimes
import GoblinKing.Library.Absorbing
import GoblinKing.Store.Cleanup

/-!
# Long services

The endpoints that register, probe, proxy, stop and kill long services, beside those that
start and stop managed services, and the cleanup. A service that is stopped should stay
stopped: a probe and a proxied request are refused for it. But they look at the row before
they go to the network, and what they write when they are back does not look at it again.
-/

namespace GoblinKing

/-! ### Requests -/

/-- What is done with a long service. -/
inductive LongServiceUse where
  | probe
  | proxy
  | stop
  | kill
  deriving DecidableEq

/-- A request on long services. The entry and the version of a repository request are
resolved: the project of the entry and the kind of the version are given. -/
inductive LongServiceCall where
  | registerLongRunningService (principal : Principal) (projectId : Option Id)
  | probeLongRunningService (principal : Principal) (serviceId : Id)
  | proxyLongRunningService (principal : Principal) (serviceId : Id)
  | stopLongRunningService (principal : Principal) (serviceId : Id)
  | killLongRunningServiceRuntime (principal : Principal) (serviceId : Id)
  | probeRepositoryService (principal : Principal) (projectId : Option Id) (kind : String)
  | proxyRepositoryService (principal : Principal) (projectId : Option Id) (kind : String)

/-- Where a request stands. -/
inductive LongServicePhase where
  | register (projectId : Option Id)
  /-- within `_active_repository_service` -/
  | resolve (principal : Principal) (projectId : Option Id) (kind : String)
      (use : LongServiceUse)
  | read (principal : Principal) (serviceId : Id) (use : LongServiceUse)
  /-- on the network, and before the write -/
  | send (serviceId : Id) (use : LongServiceUse)
  deriving DecidableEq

/-- The checks of a request before it reads a row. -/
def openLongService (settings : ApiSettings) : LongServiceCall → Except String LongServicePhase
  | .registerLongRunningService principal projectId => do
      let projectId ← projectForRequest settings principal projectId
      .ok (.register projectId)
  | .probeLongRunningService principal serviceId => .ok (.read principal serviceId .probe)
  | .proxyLongRunningService principal serviceId => .ok (.read principal serviceId .proxy)
  | .stopLongRunningService principal serviceId => .ok (.read principal serviceId .stop)
  | .killLongRunningServiceRuntime principal serviceId => do
      requireAdmin principal
      .ok (.read principal serviceId .kill)
  | .probeRepositoryService principal projectId kind =>
      .ok (.resolve principal projectId kind .probe)
  | .proxyRepositoryService principal projectId kind =>
      .ok (.resolve principal projectId kind .proxy)

/-- Whether a use goes on after the row was read. Stopping a stopped service returns it. -/
def LongServiceUse.goesOn (service : LongServiceRecord) : LongServiceUse → Except String Bool
  | .probe | .proxy => do
      raiseIf (decide (service.status = .stopped)) ("long service is stopped: " ++ service.id)
      .ok true
  | .stop => .ok (decide (service.status ≠ .stopped))
  | .kill => .ok true

/-- The read of a row for a use, with its checks. -/
def readLongService (settings : ApiSettings) (services : Table LongServiceRecord.id)
    (principal : Principal) (serviceId : Id) (use : LongServiceUse) : Except String Bool :=
  match services.find? serviceId with
  | none => .error ("long service not found: " ++ serviceId)
  | some service => do
      let _ ← projectForRequest settings principal service.projectId
      use.goesOn service

/-- What a use writes when it comes back from the network. Only an upstream that cannot be
reached, which is answered without a status code, is written by a proxied request; a probe
writes whatever it is answered, unless it raises. -/
def LongServiceUse.effect (serviceId : Id) (input : ServiceInput) : LongServiceUse → ServiceEffect
  | .probe =>
      match input.probe with
      | none => .nothing
      | some statusCode => .probeLongService serviceId input.now statusCode
  | .proxy =>
      if input.probe = some none then .markLongService serviceId .failed else .nothing
  | .stop | .kill => .markLongService serviceId .stopped

/-- A step of a request: what it changes, and the phase after it. -/
def LongServicePhase.step (settings : ApiSettings) (σ : ServiceSystem) (input : ServiceInput) :
    LongServicePhase → ServiceEffect × Option LongServicePhase
  | .register projectId => (.saveLongService {
      id := input.freshId, createdAt := input.now, projectId := projectId }, none)
  | .resolve principal projectId kind use =>
      match readService settings σ.services (.entry projectId) kind with
      | .error _ => (.nothing, none)
      | .ok record =>
          (.nothing, (truthy record.activeServiceId).map (fun serviceId =>
            .read principal serviceId use))
  | .read principal serviceId use =>
      match readLongService settings σ.longServices principal serviceId use with
      | .ok true => (.nothing, some (.send serviceId use))
      | .ok false | .error _ => (.nothing, none)
  | .send serviceId use => (use.effect serviceId input, none)

/-! ### The system -/

/-- A request that is under way. -/
structure LongServiceRequest where
  id : Id
  phase : LongServicePhase

/-- The managed services, and the requests on long services that are under way. -/
structure LongServiceSystem where
  managed : ServiceSystem
  requests : Table LongServiceRequest.id

/-- No services. -/
def LongServiceSystem.init : LongServiceSystem :=
  ⟨.init, .empty⟩

/-- What can happen: a step of the managed services, a request on long services comes in or
goes on, or historical rows are deleted. -/
inductive LongServiceAction where
  | managed (action : ServiceAction)
  | receive (requestId : Id) (call : LongServiceCall)
  | advance (requestId : Id) (input : ServiceInput)
  | cleanup (projectId : Option Id) (includeUnprobedServices : Bool)

/-- A step of the managed services that another endpoint does not make. -/
def ServiceAction.isManaged : ServiceAction → Bool
  | .receive _ _ | .advance _ _ | .retire _ _ => true
  | .probe _ _ _ | .mark _ _ => false

/-- The system with a request at its next phase, or without it. -/
def LongServiceSystem.setPhase (σ : LongServiceSystem) (requestId : Id) :
    Option LongServicePhase → LongServiceSystem
  | some phase =>
      { σ with
        requests := σ.requests.update (fun request => decide (request.id = requestId))
          (fun request => { request with phase := phase }) (fun _ => rfl) }
  | none =>
      { σ with requests := σ.requests.delete (fun request => decide (request.id = requestId)) }

/-- A step of the system; `none` when the action is not possible. -/
def longServiceStep (config : ServiceConfig) (σ : LongServiceSystem) :
    LongServiceAction → Option LongServiceSystem
  | .managed action =>
      if action.isManaged then
        (serviceStep config σ.managed action).map (fun managed => { σ with managed := managed })
      else
        none
  | .receive requestId call =>
      match openLongService config.settings call with
      | .error _ => some σ
      | .ok phase =>
          (σ.requests.insert? ⟨requestId, phase⟩).map
            (fun requests => { σ with requests := requests })
  | .advance requestId input =>
      match σ.requests.find? requestId with
      | none => none
      | some request =>
          let (effect, next) := request.phase.step config.settings σ.managed input
          (effect.apply σ.managed).map (fun managed =>
            LongServiceSystem.setPhase { σ with managed := managed } requestId next)
  | .cleanup projectId includeUnprobedServices =>
      some { σ with managed := { σ.managed with
        longServices := σ.managed.longServices.delete
          (historicalService projectId includeUnprobedServices) } }

/-! ### Writes of a status -/

/-- A service has been stopped. -/
def LongServiceRecord.Stopped (service : LongServiceRecord) : Prop :=
  service.status = .stopped

/-- A service that is stopped, and still there after a step, is stopped. -/
def StoppedKept (σ τ : LongServiceSystem) : Prop :=
  Table.Absorbs LongServiceRecord.Stopped σ.managed.longServices τ.managed.longServices

/-- The service to which a step of a managed service gives the outcome of a probe. -/
def ServicePhase.revives (input : ServiceInput) : ServicePhase → Option Id
  | .startProbe _ _ serviceId | .routeProbe _ _ serviceId _ => input.probe.map (fun _ => serviceId)
  | _ => none

/-- The service to which a step of a request gives the outcome of a probe, or the failure of
its upstream. -/
def LongServicePhase.revives (input : ServiceInput) : LongServicePhase → Option Id
  | .send serviceId .probe => input.probe.map (fun _ => serviceId)
  | .send serviceId .proxy => if input.probe = some none then some serviceId else none
  | _ => none

/-- The service that is written as running or failed by a step. -/
def LongServiceSystem.revives (σ : LongServiceSystem) : LongServiceAction → Option Id
  | .managed (.advance requestId input) =>
      (σ.managed.requests.find? requestId).bind (fun request => request.phase.revives input)
  | .advance requestId input =>
      (σ.requests.find? requestId).bind (fun request => request.phase.revives input)
  | _ => none

/-- The service under an identifier has been stopped. -/
def stopped (services : Table LongServiceRecord.id) (serviceId : Id) : Bool :=
  (services.find? serviceId).any (fun service => decide (service.status = .stopped))

/-- The condition on a step: an outcome that is written as running or failed does not meet a
row that has been stopped. -/
def sparesStopped (σ : LongServiceSystem) (a : LongServiceAction) : Bool :=
  (σ.revives a).all (fun serviceId => !stopped σ.managed.longServices serviceId)

/-- The service to which an effect gives another status than stopped. -/
def ServiceEffect.revives : ServiceEffect → Option Id
  | .probeLongService serviceId _ _ => some serviceId
  | .markLongService serviceId status => if status = .stopped then none else some serviceId
  | _ => none

section

variable {config : ServiceConfig} {σ τ : ServiceSystem} {input : ServiceInput}

/-- A probe never leaves a service stopped. -/
theorem status_probed (probedAt : Instant) (statusCode : Option ℕ) (service : LongServiceRecord) :
  (service.probed probedAt statusCode).status ≠ .stopped
  := by
  rw [LongServiceRecord.probed]
  split <;> simp

/-- An update of one row takes no stopped service to one that runs, exactly when the row is
not stopped. -/
theorem absorbs_update_service {services : Table LongServiceRecord.id} {serviceId : Id}
    {f : LongServiceRecord → LongServiceRecord} {hf : ∀ service, (f service).id = service.id}
    (hrevives : ∀ service, (f service).status ≠ .stopped) :
  Table.Absorbs LongServiceRecord.Stopped services
      (services.update (fun row => decide (row.id = serviceId)) f hf)
    ↔ stopped services serviceId = false
  := by
  rw [Table.absorbs_update]
  constructor
  · intro h
    cases hfind : services.find? serviceId with
    | none => simp [stopped, hfind]
    | some row =>
        obtain ⟨hrow, hid⟩ := Table.find?_eq_some.mp hfind
        have hstatus : row.status ≠ .stopped := fun hstopped =>
          hrevives row (h row hrow (decide_eq_true hid) hstopped)
        simp [stopped, hfind, hstatus]
  · intro h row hrow hid hstopped
    have hid := of_decide_eq_true hid
    rw [stopped, ← hid, Table.find?_of_mem hrow] at h
    cases (of_decide_eq_false h) hstopped

/-- An update that stops what it changes leaves the stopped services stopped. -/
theorem absorbs_stop {services : Table LongServiceRecord.id} {serviceId : Id}
    {f : LongServiceRecord → LongServiceRecord} {hf : ∀ service, (f service).id = service.id}
    (hstops : ∀ service, (f service).Stopped) :
  Table.Absorbs LongServiceRecord.Stopped services
    (services.update (fun row => decide (row.id = serviceId)) f hf)
  := by
  rw [Table.absorbs_update]
  intro row _ _ _
  apply hstops

/-- What an effect does to the services that are stopped. -/
theorem absorbs_apply {effect : ServiceEffect} (h : effect.apply σ = some τ) :
  Table.Absorbs LongServiceRecord.Stopped σ.longServices τ.longServices
    ↔ effect.revives.all (fun serviceId => !stopped σ.longServices serviceId) = true
  := by
  cases effect with
  | saveLongService service =>
      obtain ⟨services, hinsert, rfl⟩ := Option.map_eq_some_iff.mp h
      simp [ServiceEffect.revives, Table.absorbs_insert? hinsert]
  | launch runtime =>
      obtain ⟨live, -, rfl⟩ := Option.map_eq_some_iff.mp h
      simp [ServiceEffect.revives, Table.absorbs_refl]
  | probeLongService serviceId probedAt statusCode =>
      obtain rfl := Option.some.inj h
      simp only [ServiceEffect.revives, Option.all_some, Bool.not_eq_true']
      apply absorbs_update_service (status_probed probedAt statusCode)
  | markLongService serviceId status =>
      obtain rfl := Option.some.inj h
      by_cases hstatus : status = .stopped
      · subst hstatus
        simp only [ServiceEffect.revives, if_true, Option.all_none, iff_true]
        apply absorbs_stop
        intro service
        rfl
      · simp only [ServiceEffect.revives, hstatus, if_false, Option.all_some, Bool.not_eq_true']
        apply absorbs_update_service
        intro service
        apply hstatus
  | nothing | save _ | setRuntime _ _ | remove _ | drain _ =>
      obtain rfl := Option.some.inj h
      simp [ServiceEffect.revives, Table.absorbs_refl]

/-- Stopping a runtime revives no service. -/
theorem revives_stopEffect (runtime : Runtime) (outcome : CommandOutcome) :
  (stopEffect runtime outcome).revives = none
  := by
  rw [stopEffect]
  split <;> rfl

/-- Marking the service of a row as stopped revives none. -/
theorem revives_markStopped (record : NotebookServiceRecord) :
  (markStopped record).revives = none
  := by
  rw [markStopped]
  split <;> rfl

/-- The service that a step of a managed service revives. -/
theorem revives_step (config : ServiceConfig) (σ : ServiceSystem) (input : ServiceInput)
    (phase : ServicePhase) :
  (phase.step config σ input).1.revives = phase.revives input
  := by
  cases phase with
  | startProbe _ _ _ | routeProbe _ _ _ _ =>
      simp only [ServicePhase.step, ServicePhase.revives]
      cases input.probe <;> rfl
  | launching _ _ _ stage =>
      cases stage with
      | clear | cleanup => apply revives_stopEffect
      | inspect | probe => rfl
      | launch =>
          simp only [ServicePhase.step, startEffect]
          split <;> rfl
  | validateStop _ _ | restartStop _ _ | startUndo _ _ _ | routeUndo _ _ =>
      apply revives_stopEffect
  | restartMark _ | stopMark _ => apply revives_markStopped
  | stopRuntime _ =>
      simp only [ServicePhase.step]
      split
      · rfl
      · apply revives_stopEffect
  | declare _ _ _ | read _ _ _ =>
      simp only [ServicePhase.step]
      split <;> rfl
  | save _ _ | validateWrite _ _ | restartClear _ | startFailed _ | startRegister _ _
  | startPoint _ _ _ | startUndoWrite _ _ _ | stopWrite _ | routeFind _ _ | routeService _ _ _ _
  | routeRegister _ _ _ | routePoint _ _ _ _ | routeMark _ | routeDrain _ => rfl

/-- A step of a drain revives no service. -/
theorem revives_drain (outcome : CommandOutcome) (drain : Drain) :
  (drain.step σ outcome).1.revives = none
  := by
  rw [Drain.step]
  split
  · split
    · rfl
    · apply revives_stopEffect
  · rfl
  · rfl

/-- The service that a step of a request revives. -/
theorem revives_request (settings : ApiSettings) (phase : LongServicePhase) :
  (phase.step settings σ input).1.revives = phase.revives input
  := by
  cases phase with
  | register _ => rfl
  | resolve _ _ _ _ | read _ _ _ =>
      simp only [LongServicePhase.step]
      split <;> rfl
  | send serviceId use =>
      cases use with
      | probe =>
          simp only [LongServicePhase.step, LongServiceUse.effect, LongServicePhase.revives]
          cases input.probe <;> rfl
      | proxy =>
          simp only [LongServicePhase.step, LongServiceUse.effect, LongServicePhase.revives]
          split <;> rfl
      | stop | kill => rfl

end

section

variable {config : ServiceConfig} {σ τ : LongServiceSystem} {a : LongServiceAction}

/-- A step of the managed services keeps the stopped services exactly under the condition. -/
theorem absorbs_managed {σ : LongServiceSystem} {action : ServiceAction} {managed : ServiceSystem}
    (hmanaged : action.isManaged = true)
    (h : serviceStep config σ.managed action = some managed) :
  Table.Absorbs LongServiceRecord.Stopped σ.managed.longServices
      managed.longServices
    ↔ sparesStopped σ (.managed action) = true
  := by
  cases serviceStep_cases h with
  | probe | mark => cases hmanaged
  | refuse | receive => simp [Table.absorbs_refl, sparesStopped, LongServiceSystem.revives]
  | @retire serviceId outcome drain υ hdrain heffect =>
      have hsame : (υ.setStage serviceId (drain.step σ.managed outcome).2).longServices
          = υ.longServices := by
        cases (drain.step σ.managed outcome).2 <;> rfl
      rw [hsame, absorbs_apply heffect, revives_drain]
      rfl
  | @advance requestId input request υ hrequest heffect =>
      have hsame : (υ.setPhase requestId (request.phase.step config σ.managed input).2).longServices
          = υ.longServices := by
        cases (request.phase.step config σ.managed input).2 <;> rfl
      rw [hsame, absorbs_apply heffect, revives_step, sparesStopped, LongServiceSystem.revives,
        hrequest, Option.bind_some]

/-- A step keeps the stopped services stopped exactly under the condition. -/
theorem stoppedKept_iff (h : longServiceStep config σ a = some τ) :
  StoppedKept σ τ ↔ sparesStopped σ a = true
  := by
  cases a with
  | managed action =>
      simp only [longServiceStep] at h
      split at h
      case isTrue hmanaged =>
        obtain ⟨managed, hstep, rfl⟩ := Option.map_eq_some_iff.mp h
        apply absorbs_managed hmanaged hstep
      case isFalse => cases h
  | receive requestId call =>
      have hsame : τ.managed = σ.managed := by
        simp only [longServiceStep] at h
        split at h
        · obtain rfl := Option.some.inj h
          rfl
        · obtain ⟨requests, -, rfl⟩ := Option.map_eq_some_iff.mp h
          rfl
      simp [StoppedKept, hsame, Table.absorbs_refl, sparesStopped, LongServiceSystem.revives]
  | advance requestId input =>
      simp only [longServiceStep] at h
      split at h
      · cases h
      · rename_i request hrequest
        obtain ⟨managed, heffect, rfl⟩ := Option.map_eq_some_iff.mp h
        have hsame : (LongServiceSystem.setPhase { σ with managed := managed } requestId
            (request.phase.step config.settings σ.managed input).2).managed = managed := by
          cases (request.phase.step config.settings σ.managed input).2 <;> rfl
        rw [StoppedKept, hsame, absorbs_apply heffect, revives_request, sparesStopped,
          LongServiceSystem.revives, hrequest, Option.bind_some]
  | cleanup projectId includeUnprobedServices =>
      obtain rfl := Option.some.inj h
      simp [StoppedKept, Table.absorbs_delete, sparesStopped, LongServiceSystem.revives]

/-- Stopped services stay stopped in a run exactly when no probe and no failure of a proxied
request is written over a row that has been stopped meanwhile. -/
theorem stopped_services_stay (config : ServiceConfig) (as : List LongServiceAction) :
  Transition.Along (longServiceStep config) (fun σ _ τ => StoppedKept σ τ)
      LongServiceSystem.init as
    ↔ Transition.Along (longServiceStep config) (fun σ a _ => sparesStopped σ a = true)
      LongServiceSystem.init as
  := by
  apply Transition.along_congr (G := fun _ => True) (I := fun _ => True)
  · intro _ _ _ _ _ _
    trivial
  · intro σ a τ _ _ h
    apply stoppedKept_iff h
  · trivial
  · intro _ _
    trivial

end

/-! ### A probe that comes back late -/

/-- A backend that no request below comes to use. -/
def idleBackend : ServiceConfig where
  settings := .sample
  backend := "docker"
  dockerNetwork := false

/-- A service is registered, a probe of it is sent, and it is stopped. -/
def probedAndStopped : List LongServiceAction :=
  [.receive "r" (.registerLongRunningService alice none), .advance "r" { freshId := "l1" },
    .receive "p" (.probeLongRunningService alice "l1"), .advance "p" {},
    .receive "s" (.stopLongRunningService alice "l1"), .advance "s" {}, .advance "s" {}]

/-- The probe comes back and is written over the row of the service that was stopped. -/
theorem stopped_service_revived :
  ¬ ∀ (config : ServiceConfig) (as : List LongServiceAction),
    Transition.Along (longServiceStep config) (fun σ _ τ => StoppedKept σ τ)
      LongServiceSystem.init as
  := by
  intro h
  have hstopped : (Transition.run (longServiceStep idleBackend) .init probedAndStopped).all
      (fun σ => stopped σ.managed.longServices "l1") = true := by
    decide +kernel
  have hrevived : (Transition.run (longServiceStep idleBackend) .init
      (probedAndStopped ++ [.advance "p" {}])).any
      (fun τ => (τ.managed.longServices.find? "l1").any
        (fun service => decide (service.status = .running))) = true := by
    decide +kernel
  obtain ⟨τ, hrun, hrunning⟩ := (Option.any_eq_true _ _).mp hrevived
  obtain ⟨row', hrow', hstatus⟩ := (Option.any_eq_true _ _).mp hrunning
  obtain ⟨σ, hσ, -, hkept⟩ := Transition.along_last (h idleBackend _) hrun
  rw [hσ, Option.all_some] at hstopped
  obtain ⟨row, hrow, hwas⟩ := (Option.any_eq_true _ _).mp hstopped
  have hwas : row.status = .stopped := of_decide_eq_true hwas
  have hstill : row'.status = .stopped := hkept "l1" row row' hrow hwas hrow'
  rw [of_decide_eq_true hstatus] at hstill
  cases hstill

end GoblinKing
