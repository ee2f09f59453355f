import GoblinKing.Kubernetes.Names
import GoblinKing.Kubernetes.ObservedRuns
import GoblinKing.Kubernetes.Restricted
import GoblinKing.Runtime.Lifecycle

/-!
# The lifecycle of a Kubernetes worker

Whatever the cluster, Redis and the clock answer, a run deletes the objects that it creates, and it emits
one terminal event, the last one of all, unless the heartbeats raise something else than an error of Redis.
It is a success exactly when a poll in time finds that the Job has succeeded, and then a valid result in
Redis that says so, while no poll before has found a reason to stop.
-/

namespace GoblinKing

open Emission

/-! ### Properties -/

/-- A step says how the worker of a run has ended. -/
def EndsStep (runId : String) : ObservedStep → Prop
  | .event event => EndsRun runId event
  | .createConfigMap _ | .createJob _ | .deleteJob _ | .deleteConfigMap _ => False

/-- A step creates or deletes an object of the cluster. -/
def ObservedStep.isCall : ObservedStep → Bool
  | .event _ => false
  | .createConfigMap _ | .createJob _ | .deleteJob _ | .deleteConfigMap _ => true

/-- A run returns, its first step says that the worker has been started, and its last step and no other one
says how the worker has ended, which is a completion for a success only. -/
def RunWellFormed (runId : String) (run : Emission ObservedStep Raised KubernetesRunObservation) : Prop :=
  ∃ observation started during ended,
    run.outcome = .ok observation ∧
      run.events = .event started :: (during ++ [.event ended]) ∧
      StartsRun runId started ∧ EndsRun runId ended ∧
      (ended.eventType = .completed ↔ observation.result.status = .success) ∧
      ∀ step ∈ during, ¬ EndsStep runId step

/-- Nothing but the two objects is created, in their order, both are deleted afterwards, and nothing is
created or deleted after that. -/
def ReleasesObjects (jobName configName : String) (steps : List ObservedStep) : Prop :=
  ∃ before after,
    steps = before ++ .deleteJob jobName :: .deleteConfigMap configName :: after ∧
      before.filter ObservedStep.isCall <+: [.createConfigMap configName, .createJob jobName] ∧
      after.filter ObservedStep.isCall = []

variable {library : KubernetesLibrary} (host : ClusterHost) (runtime : KubernetesRuntime library)
  (run : ObservedRun)

/-- A poll finds no reason to stop. -/
def Undecided (poll : ℕ) : Prop :=
  host.readJob poll = .ok ⟨false, false⟩ ∧
    findImagePullFailure (host.pods (.poll poll)) (run.jobName host) = none

/-- The heartbeats of a run raise nothing but an error of Redis, if they are read. -/
def HeartbeatsHandled : Prop :=
  host.eventBus = true → HeartbeatsReadable host.toDockerHost run.context.runId

/-- A valid result is stored at a poll. -/
def StoredAt (poll : ℕ) (result : WorkerResult) : Prop :=
  ∃ raw, host.stored poll (runtime.resultKey run.context.runId) = .ok (some raw) ∧
    ∃ text, redisText host.toDockerHost raw = .ok text ∧ host.modelValidateJson text = .ok result

/-- A poll finds that the Job has succeeded, and a valid result. -/
def PublishedAt (poll : ℕ) (result : WorkerResult) : Prop :=
  (∃ status, host.readJob poll = .ok status ∧ status.succeeded = true) ∧
    StoredAt host runtime run poll result

/-- A poll in time finds that the Job has succeeded and a valid result, and no poll before has found a
reason to stop. -/
def PublishedInTime (result : WorkerResult) : Prop :=
  ∃ poll, (∀ earlier < poll, Undecided host run earlier) ∧
    (∀ earlier ≤ poll, host.clock.reading earlier < run.limit) ∧
    PublishedAt host runtime run poll result

/-- The image of the worker is known, the cluster can be reached and the objects are created. -/
def Submitted : Prop :=
  ∃ image, host.workerImage run.kind = .ok image ∧ host.clients = .ok () ∧
    (submitJob host runtime run image).outcome = .ok ()

/-! ### Polls -/

section

variable {host} {runtime} {run} {result : WorkerResult} (hstatus : result.status = .success)
include hstatus

/-- A text is read as a success exactly when it is valid and says so. -/
theorem parseResult_success {text : String} :
  parseResult host.toDockerHost text = result ↔ host.modelValidateJson text = .ok result
  := by
  unfold parseResult
  cases host.modelValidateJson text with
  | ok other => simp
  | error error =>
      constructor
      · rintro rfl
        cases hstatus
      · intro h
        cases h

/-- A success is loaded exactly when a valid text says so. -/
theorem loadStoredResult_success {poll : ℕ} :
  loadStoredResult host runtime poll run.context.runId = .ok (some result) ↔
    StoredAt host runtime run poll result
  := by
  unfold loadStoredResult StoredAt
  cases host.stored poll (runtime.resultKey run.context.runId) with
  | error error => by_cases hredis : error.kind = .redisError <;> simp [hredis]
  | ok found =>
      cases found with
      | none => simp
      | some raw =>
          simp only [Except.bind_eq_ok, Except.ok.injEq, Option.some.injEq, exists_eq_left',
            parseResult_success hstatus]

/-- A stored observation is a success exactly when a valid text says so. -/
theorem loadStoredObservation_success {poll : ℕ} :
  (∃ observation, loadStoredObservation host runtime poll run.context.runId = .ok observation ∧
      observation.result = result) ↔
    StoredAt host runtime run poll result
  := by
  rw [← loadStoredResult_success hstatus]
  constructor
  · rintro ⟨observation, hobservation, rfl⟩
    obtain ⟨loaded, hloaded, hobservation⟩ := Except.bind_eq_ok.mp hobservation
    cases loaded with
    | none =>
        cases hobservation
        cases hstatus
    | some loaded =>
        cases hobservation
        exact hloaded
  · intro h
    exact ⟨_, Except.bind_eq_ok.mpr ⟨_, h, rfl⟩, rfl⟩

omit hstatus in
/-- A stored observation is a failure unless a result has been received. -/
theorem loadStoredObservation_received {poll : ℕ} {runId : String}
    {observation : KubernetesRunObservation}
    (h : loadStoredObservation host runtime poll runId = .ok observation)
    (hreceived : observation.resultReceived = false) :
  observation.result.status = .failed
  := by
  obtain ⟨loaded, -, hobservation⟩ := Except.bind_eq_ok.mp h
  cases loaded with
  | none =>
      cases hobservation
      rfl
  | some result =>
      cases hobservation
      cases hreceived

/-- What is observed of a Job that has succeeded is a success exactly when a stored result is one. -/
theorem succeededJob_success {poll : ℕ} :
  (∃ observation, succeededJob host runtime run poll = .ok observation ∧
      observation.result = result) ↔
    StoredAt host runtime run poll result
  := by
  rw [← loadStoredObservation_success hstatus]
  unfold succeededJob
  cases hload : loadStoredObservation host runtime poll run.context.runId with
  | error error => simp [bind, Except.bind]
  | ok loaded =>
      rw [Except.ok_bind]
      split
      case isTrue => rfl
      case isFalse hreceived =>
        have hfailed := loadStoredObservation_received hload (by simpa using hreceived)
        constructor
        · rintro ⟨observation, hobservation, rfl⟩
          cases hobservation
          cases hstatus
        · rintro ⟨observation, hobservation, rfl⟩
          cases hobservation
          rw [hfailed] at hstatus
          cases hstatus

/-- What is observed of a Job that has failed is no success. -/
theorem failedJob_ne {poll : ℕ} {observation : KubernetesRunObservation}
    (h : failedJob host runtime run poll = .ok observation) :
  observation.result ≠ result
  := by
  rintro rfl
  obtain ⟨forwarded, -, hobservation⟩ := Except.bind_eq_ok.mp h
  split at hobservation
  case isTrue =>
    split at hobservation
    case isTrue hfailed =>
      rw [Except.ok.inj hobservation] at hfailed
      rw [hfailed] at hstatus
      cases hstatus
    case isFalse =>
      cases hobservation
      cases hstatus
  case isFalse =>
    cases hobservation
    cases hstatus

/-- A poll decides for a success exactly when the Job has succeeded and a valid result is stored. -/
theorem pollJob_success {poll : ℕ} :
  (∃ observation, pollJob host runtime run poll = .ok (some observation) ∧
      observation.result = result) ↔
    PublishedAt host runtime run poll result
  := by
  unfold pollJob PublishedAt
  cases hjob : host.readJob poll with
  | error error => simp [bind, Except.bind]
  | ok status =>
      simp only [Except.ok_bind, Except.ok.injEq, exists_eq_left']
      by_cases hsucceeded : status.succeeded = true
      · rw [if_pos hsucceeded, and_iff_right hsucceeded, ← succeededJob_success hstatus]
        cases succeededJob host runtime run poll <;> simp [Except.map]
      · rw [if_neg hsucceeded, iff_false_right (fun h => hsucceeded h.1)]
        rintro ⟨observation, hobservation, hresult⟩
        split at hobservation
        case isTrue =>
          cases hfailed : failedJob host runtime run poll with
          | error error =>
              rw [hfailed] at hobservation
              cases hobservation
          | ok found =>
              rw [hfailed] at hobservation
              cases hobservation
              exact failedJob_ne hstatus hfailed hresult
        case isFalse =>
          split at hobservation
          · cases hobservation
            rw [← hresult] at hstatus
            cases hstatus
          · cases hobservation

omit hstatus in
/-- A poll goes on exactly when it finds no reason to stop. -/
theorem pollJob_eq_none {poll : ℕ} :
  pollJob host runtime run poll = .ok none ↔ Undecided host run poll
  := by
  unfold pollJob Undecided
  cases hjob : host.readJob poll with
  | error error => simp [bind, Except.bind]
  | ok status =>
      obtain ⟨succeeded, failed⟩ := status
      rw [Except.ok_bind]
      cases succeeded with
      | true => cases succeededJob host runtime run poll <;> simp [Except.map]
      | false =>
          cases failed with
          | true => cases failedJob host runtime run poll <;> simp [Except.map]
          | false => cases findImagePullFailure (host.pods (.poll poll)) (run.jobName host) <;> simp

/-- The polls from one on come to a success exactly when a poll in time publishes it and those before go
on. -/
theorem pollFrom_success {polls poll : ℕ} :
  (∃ observation, pollFrom host runtime run polls poll = .ok observation ∧
      observation.result = result) ↔
    ∃ later, poll ≤ later ∧ later < poll + polls ∧
      (∀ earlier, poll ≤ earlier → earlier < later → Undecided host run earlier) ∧
      (∀ earlier, poll ≤ earlier → earlier ≤ later → host.clock.reading earlier < run.limit) ∧
      PublishedAt host runtime run later result
  := by
  have hexpired : (expiredJob host run).result ≠ result := by
    intro heq
    rw [← heq] at hstatus
    cases hstatus
  induction polls generalizing poll with
  | zero =>
      constructor
      · rintro ⟨observation, hobservation, hresult⟩
        rw [← Except.ok.inj hobservation] at hresult
        exact absurd hresult hexpired
      · rintro ⟨later, hle, hlt, -⟩
        omega
  | succ polls ih =>
      rw [pollFrom]
      by_cases htime : host.clock.reading poll < run.limit
      · rw [if_pos htime]
        constructor
        · rintro ⟨observation, hobservation, hresult⟩
          obtain ⟨decided, hdecided, hobservation⟩ := Except.bind_eq_ok.mp hobservation
          cases decided with
          | some found =>
              obtain rfl := Except.ok.inj hobservation
              refine ⟨poll, le_rfl, by omega, by omega, ?_, ?_⟩
              · intro earlier hle hge
                rwa [le_antisymm hge hle]
              · exact (pollJob_success hstatus).mp ⟨found, hdecided, hresult⟩
          | none =>
              obtain ⟨later, hle, hlt, hundecided, hreadings, hpublished⟩ :=
                ih.mp ⟨observation, hobservation, hresult⟩
              refine ⟨later, by omega, by omega, ?_, ?_, hpublished⟩
              · intro earlier hearlier hbefore
                rcases Nat.eq_or_lt_of_le hearlier with rfl | hafter
                · exact pollJob_eq_none.mp hdecided
                · exact hundecided earlier hafter hbefore
              · intro earlier hearlier hbefore
                rcases Nat.eq_or_lt_of_le hearlier with rfl | hafter
                · exact htime
                · exact hreadings earlier hafter hbefore
        · rintro ⟨later, hle, hlt, hundecided, hreadings, hpublished⟩
          rcases Nat.eq_or_lt_of_le hle with rfl | hafter
          · obtain ⟨observation, hobservation, hresult⟩ := (pollJob_success hstatus).mpr hpublished
            exact ⟨observation, Except.bind_eq_ok.mpr ⟨_, hobservation, rfl⟩, hresult⟩
          · have hnone : pollJob host runtime run poll = .ok none :=
              pollJob_eq_none.mpr (hundecided poll le_rfl hafter)
            obtain ⟨observation, hobservation, hresult⟩ := ih.mpr ⟨later, hafter, by omega,
              fun earlier hearlier => hundecided earlier (by omega),
              fun earlier hearlier => hreadings earlier (by omega), hpublished⟩
            exact ⟨observation, Except.bind_eq_ok.mpr ⟨_, hnone, hobservation⟩, hresult⟩
      · rw [if_neg htime]
        constructor
        · rintro ⟨observation, hobservation, hresult⟩
          rw [← Except.ok.inj hobservation] at hresult
          exact absurd hresult hexpired
        · rintro ⟨later, hle, -, -, hreadings, -⟩
          exact absurd (hreadings poll le_rfl hle) htime

/-- The wait comes to a success exactly when a poll in time publishes it. -/
theorem waitForResultObserved_success :
  (∃ observation, waitForResultObserved host runtime run = .ok observation ∧
      observation.result = result) ↔
    PublishedInTime host runtime run result
  := by
  rw [waitForResultObserved, pollFrom_success hstatus]
  constructor
  · rintro ⟨poll, -, -, hundecided, hreadings, hpublished⟩
    exact ⟨poll, fun earlier => hundecided earlier (Nat.zero_le earlier),
      fun earlier => hreadings earlier (Nat.zero_le earlier), hpublished⟩
  · rintro ⟨poll, hundecided, hreadings, hpublished⟩
    refine ⟨poll, Nat.zero_le poll, ?_, fun earlier _ => hundecided earlier,
      fun earlier _ => hreadings earlier, hpublished⟩
    by_contra hlate
    have hreading := hreadings (host.clock.deadline run.limit) (by omega)
    exact absurd (host.clock.passed run.limit) (not_le_of_gt hreading)

end

/-! ### Steps -/

section

variable {host} {runtime} {run} {image : String} {captureDiagnostics : Bool}

/-- What is observed of a run before its diagnostics. -/
def observedRun (host : ClusterHost) (runtime : KubernetesRuntime library) (run : ObservedRun)
    (image : String) : KubernetesRunObservation :=
  match (submitJob host runtime run image).outcome with
  | .error error => crashedRun run false error
  | .ok () =>
      match waitForResultObserved host runtime run with
      | .ok observation => { observation with jobCreated := true }
      | .error error => crashedRun run true error

/-- Observing a Job raises nothing, and its steps are those of the creation. -/
theorem observeJob_eq :
  observeJob host runtime run image
    = ⟨(submitJob host runtime run image).events, .ok (observedRun host runtime run image)⟩
  := by
  rw [observeJob, bind_of_ok rfl]
  simp only [attempted, fault, observedRun]
  cases (submitJob host runtime run image).outcome with
  | error error =>
      rw [errorOf]
      exact congrArg (Emission.mk · _) (List.append_nil _)
  | ok done =>
      rw [errorOf]
      cases waitForResultObserved host runtime run with
      | error error => exact congrArg (Emission.mk · _) (List.append_nil _)
      | ok observation => exact congrArg (Emission.mk · _) (List.append_nil _)

/-- The creation makes no other calls than the two, in their order, and emits no event. -/
theorem submitJob_events :
  (submitJob host runtime run image).events
    <+: [.createConfigMap (run.configName host), .createJob (run.jobName host)]
  := by
  unfold submitJob
  cases host.contextJson run.context with
  | error error => exact List.nil_prefix
  | ok text =>
      cases host.createConfigMap (run.configName host) with
      | error error => exact ⟨[.createJob (run.jobName host)], rfl⟩
      | ok done =>
          cases buildKubernetesJobManifest runtime.settings (run.workerJob host runtime image) with
          | error error => exact ⟨[.createJob (run.jobName host)], rfl⟩
          | ok manifest =>
              cases host.createJob manifest with
              | error error => exact ⟨[], rfl⟩
              | ok done => exact ⟨[], rfl⟩

/-- A step is an event that does not say how the worker of a run has ended. -/
def Unfinished (runId : String) (step : ObservedStep) : Prop :=
  step.isCall = false ∧ ¬ EndsStep runId step

/-- Emitting an event of a run does not raise. -/
theorem outcome_emitRunEvent {eventType : WorkerEventType} {payload : List (String × JsonScalar)} :
  (emitRunEvent host run eventType payload).outcome = .ok ()
  := outcome_emitEvent _

/-- An event that is not terminal does not say how the worker has ended. -/
theorem every_emitRunEvent {eventType : WorkerEventType} {payload : List (String × JsonScalar)}
    (h : eventType.isTerminal = false) :
  Every (Unfinished run.context.runId) (emitRunEvent host run eventType payload)
  := by
  intro step hstep
  obtain ⟨event, hevent, rfl⟩ := List.mem_map.mp hstep
  exact ⟨rfl, silent_emitEvent h event hevent⟩

/-- The diagnostics emit events that say nothing about the end of the worker. -/
theorem every_diagnoseRun {observation : KubernetesRunObservation} :
  Every (Unfinished run.context.runId)
    (diagnoseRun host run image captureDiagnostics observation)
  := by
  rw [diagnoseRun]
  apply Every.bind
  · intro step hstep
    obtain ⟨event, hevent, rfl⟩ := List.mem_map.mp hstep
    exact ⟨rfl, silent_recordWorkerHeartbeats run.context event hevent⟩
  · intro _ _
    split
    case isTrue =>
      apply (every_emitRunEvent rfl).bind
      intro _ _
      exact every_ofExcept
    case isFalse => exact every_ofExcept

/-- The heartbeats are recorded without an exception exactly when they are handled. -/
theorem recordWorkerHeartbeats_handled :
  (∃ done, (recordWorkerHeartbeats host.toDockerHost run.context).outcome = .ok done) ↔
    HeartbeatsHandled host run
  := by
  unfold HeartbeatsHandled
  by_cases hbus : host.eventBus = true
  · rw [recordWorkerHeartbeats_ok hbus, imp_iff_right hbus]
  · rw [recordWorkerHeartbeats, if_neg hbus]
    constructor
    · intro _ h
      exact absurd h hbus
    · intro _
      exact ⟨(), rfl⟩

/-- What is observed behind the diagnostics. -/
def diagnosedRun (host : ClusterHost) (run : ObservedRun) (captureDiagnostics : Bool)
    (observation : KubernetesRunObservation) : KubernetesRunObservation :=
  if captureDiagnostics && observation.jobCreated then
    capturePodDiagnostics host.toDockerHost (host.pods .afterwards) (run.jobName host) observation
      run.maxLogBytes
  else
    observation

/-- The diagnostics keep the result. -/
theorem result_diagnosedRun {observation : KubernetesRunObservation} :
  (diagnosedRun host run captureDiagnostics observation).result = observation.result
  := by
  unfold diagnosedRun capturePodDiagnostics
  split
  · split <;> rfl
  · rfl

/-- The diagnostics end like the heartbeats. -/
theorem outcome_diagnoseRun {observation : KubernetesRunObservation} :
  (diagnoseRun host run image captureDiagnostics observation).outcome
    = (recordWorkerHeartbeats host.toDockerHost run.context).outcome.map
        (fun _ => diagnosedRun host run captureDiagnostics observation)
  := by
  rw [diagnoseRun, outcome_bind]
  change (recordWorkerHeartbeats host.toDockerHost run.context).outcome >>= _ = _
  cases (recordWorkerHeartbeats host.toDockerHost run.context).outcome with
  | error error => rfl
  | ok done =>
      rw [Except.ok_bind, diagnosedRun]
      split
      case isTrue =>
        rw [outcome_bind, outcome_emitRunEvent]
        rfl
      case isFalse => rfl

/-- The calls that delete the objects of a run. -/
def deletions (host : ClusterHost) (run : ObservedRun) : List ObservedStep :=
  [.deleteJob (run.jobName host), .deleteConfigMap (run.configName host)]

/-- The steps between the first and the last event of a run. -/
def supervisedRun (host : ClusterHost) (runtime : KubernetesRuntime library) (run : ObservedRun)
    (image : String) (captureDiagnostics : Bool) :
    Emission ObservedStep Raised KubernetesRunObservation :=
  ((observeJob host runtime run image).andThen
    (diagnoseRun host run image captureDiagnostics)).ensuring (cleanUpRun host run)

/-- The objects are created, the run is diagnosed, and the objects are deleted. -/
theorem supervisedRun_eq :
  supervisedRun host runtime run image captureDiagnostics =
    ⟨(submitJob host runtime run image).events
        ++ (diagnoseRun host run image captureDiagnostics
          (observedRun host runtime run image)).events
        ++ deletions host run,
      (diagnoseRun host run image captureDiagnostics (observedRun host runtime run image)).outcome⟩
  := by
  rw [supervisedRun, observeJob_eq]
  rfl

/-- A run is the first event, what is supervised, and the last event unless there is an exception. -/
theorem executeRun_eq :
  executeRun host runtime run image captureDiagnostics = (do
    emitRunEvent host run .started [("kind", .text run.kind)]
    let observation ← supervisedRun host runtime run image captureDiagnostics
    concludeRun host run observation
    pure observation)
  := rfl

/-- What is supervised ends like the heartbeats. -/
theorem outcome_supervisedRun :
  (supervisedRun host runtime run image captureDiagnostics).outcome
    = (recordWorkerHeartbeats host.toDockerHost run.context).outcome.map
        (fun _ => diagnosedRun host run captureDiagnostics (observedRun host runtime run image))
  := by
  rw [supervisedRun_eq]
  exact outcome_diagnoseRun

/-- A run ends like what is supervised. -/
theorem outcome_executeRun :
  (executeRun host runtime run image captureDiagnostics).outcome
    = (supervisedRun host runtime run image captureDiagnostics).outcome
  := by
  rw [executeRun_eq, outcome_bind, outcome_emitRunEvent, Except.ok_bind, outcome_bind]
  cases (supervisedRun host runtime run image captureDiagnostics).outcome with
  | error error => rfl
  | ok observation =>
      rw [Except.ok_bind, outcome_bind, concludeRun, outcome_emitRunEvent]
      rfl

/-- The steps of a run that returns. -/
theorem events_executeRun_of_ok {observation : KubernetesRunObservation}
    (h : (supervisedRun host runtime run image captureDiagnostics).outcome = .ok observation) :
  (executeRun host runtime run image captureDiagnostics).events
    = (emitRunEvent host run .started [("kind", .text run.kind)]).events
      ++ ((supervisedRun host runtime run image captureDiagnostics).events
        ++ (concludeRun host run observation).events)
  := by
  rw [executeRun_eq, bind_of_ok outcome_emitRunEvent, bind_of_ok h]
  have hlast : (concludeRun host run observation).outcome = .ok () := outcome_emitRunEvent
  rw [bind_of_ok hlast]
  change _ ++ (_ ++ ((concludeRun host run observation).events ++ [])) = _
  rw [List.append_nil]

/-- The steps of a run that raises. -/
theorem events_executeRun_of_error {error : Raised}
    (h : (supervisedRun host runtime run image captureDiagnostics).outcome = .error error) :
  (executeRun host runtime run image captureDiagnostics).events
    = (emitRunEvent host run .started [("kind", .text run.kind)]).events
      ++ (supervisedRun host runtime run image captureDiagnostics).events
  := by
  rw [executeRun_eq, bind_of_ok outcome_emitRunEvent, bind_of_error h]

/-- The events of the runtime are no calls. -/
theorem filter_emitRunEvent {eventType : WorkerEventType} {payload : List (String × JsonScalar)} :
  (emitRunEvent host run eventType payload).events.filter ObservedStep.isCall = []
  := by
  rw [List.filter_eq_nil_iff]
  intro step hstep
  obtain ⟨event, -, rfl⟩ := List.mem_map.mp hstep
  exact Bool.false_ne_true

/-- The calls before the deletions are those of the creation. -/
theorem filter_supervisedRun :
  ((submitJob host runtime run image).events
      ++ (diagnoseRun host run image captureDiagnostics
        (observedRun host runtime run image)).events).filter ObservedStep.isCall
    <+: [.createConfigMap (run.configName host), .createJob (run.jobName host)]
  := by
  have hdiagnosed : (diagnoseRun host run image captureDiagnostics
      (observedRun host runtime run image)).events.filter ObservedStep.isCall = [] := by
    rw [List.filter_eq_nil_iff]
    intro step hstep
    rw [(every_diagnoseRun step hstep).1]
    exact Bool.false_ne_true
  rw [List.filter_append, hdiagnosed, List.append_nil]
  exact submitJob_events.filter _

/-- A run releases its objects whatever it is answered. -/
theorem releasesObjects_executeRun :
  ReleasesObjects (run.jobName host) (run.configName host)
    (executeRun host runtime run image captureDiagnostics).events
  := by
  have hfirst : ∀ steps : List ObservedStep,
      ((emitRunEvent host run .started [("kind", .text run.kind)]).events ++ steps).filter
        ObservedStep.isCall = steps.filter ObservedStep.isCall := by
    intro steps
    rw [List.filter_append, filter_emitRunEvent, List.nil_append]
  cases h : (supervisedRun host runtime run image captureDiagnostics).outcome with
  | ok observation =>
      rw [events_executeRun_of_ok h, supervisedRun_eq, List.append_assoc, ← List.append_assoc]
      refine ⟨_, _, rfl, ?_, ?_⟩
      · rw [hfirst]
        exact filter_supervisedRun
      · exact filter_emitRunEvent
  | error error =>
      rw [events_executeRun_of_error h, supervisedRun_eq, ← List.append_assoc]
      refine ⟨_, _, rfl, ?_, rfl⟩
      rw [hfirst]
      exact filter_supervisedRun

/-- Before the last event, no step of a run says how its worker has ended. -/
theorem not_endsStep_supervisedRun :
  ∀ step ∈ (supervisedRun host runtime run image captureDiagnostics).events,
    ¬ EndsStep run.context.runId step
  := by
  intro step hstep
  rw [supervisedRun_eq] at hstep
  rcases List.mem_append.mp hstep with hstep | hstep
  · rcases List.mem_append.mp hstep with hstep | hstep
    · have hcreation := submitJob_events.subset hstep
      rcases List.mem_pair.mp hcreation with rfl | rfl
      · exact id
      · exact id
    · exact (every_diagnoseRun step hstep).2
  · rcases List.mem_pair.mp hstep with rfl | rfl
    · exact id
    · exact id

/-- With an event bus, a run is well-formed exactly when the heartbeats are readable. -/
theorem runWellFormed_executeRun (hbus : host.eventBus = true) :
  RunWellFormed run.context.runId (executeRun host runtime run image captureDiagnostics) ↔
    HeartbeatsReadable host.toDockerHost run.context.runId
  := by
  rw [← recordWorkerHeartbeats_ok hbus]
  constructor
  · rintro ⟨observation, -, -, -, hreturned, -⟩
    rw [outcome_executeRun, outcome_supervisedRun] at hreturned
    cases hrecorded : (recordWorkerHeartbeats host.toDockerHost run.context).outcome with
    | ok done => exact ⟨done, rfl⟩
    | error error =>
        rw [hrecorded] at hreturned
        cases hreturned
  · rintro ⟨done, hdone⟩
    have hsupervised : (supervisedRun host runtime run image captureDiagnostics).outcome
        = .ok (diagnosedRun host run captureDiagnostics (observedRun host runtime run image)) := by
      rw [outcome_supervisedRun, hdone]
      rfl
    generalize diagnosedRun host run captureDiagnostics (observedRun host runtime run image)
      = observation at hsupervised
    have hemitted : ∀ eventType payload, (emitRunEvent host run eventType payload).events
        = [.event {
          eventType := eventType
          projectId := run.context.projectId
          jobId := run.context.jobId
          runId := some run.context.runId
          workerId := some run.workerId
          payload := payload }] := by
      intro eventType payload
      rw [emitRunEvent, emitWorkerEvent, emitEvent, if_pos hbus]
      rfl
    have hevents := events_executeRun_of_ok hsupervised
    rw [concludeRun, hemitted, hemitted] at hevents
    refine ⟨observation, _, _, _, (outcome_executeRun.trans hsupervised), hevents, ⟨rfl, rfl⟩, ⟨?_, rfl⟩,
      ?_, not_endsStep_supervisedRun⟩
    · dsimp only
      split <;> rfl
    · dsimp only
      split
      case isTrue hstatus => simp [hstatus]
      case isFalse hstatus => simp [hstatus]

end

/-! ### Main results -/

/-- A run whose image is known and that reaches the cluster deletes whatever it may have created, whatever
it is answered. With an event bus it is well-formed exactly when the heartbeats are readable. -/
theorem runObserved_lifecycle (captureDiagnostics : Bool) {image : String}
    (himage : host.workerImage run.kind = .ok image) (hclients : host.clients = .ok ()) :
  ReleasesObjects (run.jobName host) (run.configName host)
      (runtime.runObserved host run captureDiagnostics).events ∧
    (host.eventBus = true →
      (RunWellFormed run.context.runId (runtime.runObserved host run captureDiagnostics) ↔
        HeartbeatsReadable host.toDockerHost run.context.runId))
  := by
  have hrun : runtime.runObserved host run captureDiagnostics
      = executeRun host runtime run image captureDiagnostics := by
    rw [KubernetesRuntime.runObserved, himage, hclients]
  rw [hrun]
  exact ⟨releasesObjects_executeRun, runWellFormed_executeRun⟩

/-- A run comes to a success exactly when it is submitted, its heartbeats are handled, and a poll in time
publishes the result. -/
theorem runObserved_success (captureDiagnostics : Bool) {result : WorkerResult}
    (hstatus : result.status = .success) :
  (∃ observation, (runtime.runObserved host run captureDiagnostics).outcome = .ok observation ∧
      observation.result = result) ↔
    Submitted host runtime run ∧ HeartbeatsHandled host run ∧
      PublishedInTime host runtime run result
  := by
  have hfailure : ∀ error, WorkerResult.failure error ≠ result := by
    rintro error rfl
    cases hstatus
  have hunstarted : ∀ error, ¬ ∃ observation, (pure { result := .failure error } :
      Emission ObservedStep Raised KubernetesRunObservation).outcome = .ok observation ∧
        observation.result = result := by
    rintro error ⟨observation, hobservation, hresult⟩
    apply hfailure error
    rw [← hresult, ← Except.ok.inj hobservation]
  unfold Submitted
  rw [KubernetesRuntime.runObserved]
  cases himage : host.workerImage run.kind with
  | error error =>
      apply iff_of_false (hunstarted _)
      rintro ⟨⟨_, h, -⟩, -⟩
      cases h
  | ok image =>
      cases hclients : host.clients with
      | error error =>
          apply iff_of_false (hunstarted _)
          rintro ⟨⟨_, -, h, -⟩, -⟩
          cases h
      | ok done =>
          simp only [Except.ok.injEq, exists_eq_left', true_and]
          have hobserved : (observedRun host runtime run image).result = result ↔
              (submitJob host runtime run image).outcome = .ok () ∧
                PublishedInTime host runtime run result := by
            rw [← waitForResultObserved_success hstatus, observedRun]
            cases (submitJob host runtime run image).outcome with
            | error error => simp [crashedRun, hfailure]
            | ok done => cases waitForResultObserved host runtime run <;> simp [crashedRun, hfailure]
          rw [outcome_executeRun, outcome_supervisedRun, ← recordWorkerHeartbeats_handled,
            and_left_comm, ← hobserved]
          cases (recordWorkerHeartbeats host.toDockerHost run.context).outcome with
          | error error => simp [Except.map]
          | ok done => simp [Except.map, result_diagnosedRun]

theorem le_cast_toNat (limit : ℤ) : (limit : ℚ) ≤ (limit.toNat : ℚ)
  := by exact_mod_cast Int.self_le_toNat limit

/-- A cluster in which a Job has succeeded at the second poll and its result is in Redis. -/
def respondingCluster : ClusterHost where
  toDockerHost := respondingHost successText.toUTF8
  texts := asciiSettings
  clients := .ok ()
  createConfigMap _ := .ok ()
  createJob _ := .ok ()
  readJob poll := .ok ⟨decide (0 < poll), false⟩
  pods _ := ⟨fun _ => some [], fun _ _ _ => .ok (.text "")⟩
  stored _ _ := .ok (some (.text successText))
  clock := {
    reading := fun poll => poll
    deadline := Int.toNat
    passed := le_cast_toNat }

/-- The runtime with the settings for restricted workloads. -/
def restrictedRuntime : KubernetesRuntime quantityCluster where
  settings := restrictedSettings
  redisUrl := "redis://localhost:6379/0"

/-- The run of a report. -/
def reportRun : ObservedRun where
  kind := "report"
  metadata := ⟨none, none⟩
  input := .empty
  context := reportContext

/-- A report releases its objects and is well-formed. -/
theorem reportRun_lifecycle :
  ReleasesObjects (reportRun.jobName respondingCluster) (reportRun.configName respondingCluster)
      (restrictedRuntime.runObserved respondingCluster reportRun true).events ∧
    RunWellFormed "run-1" (restrictedRuntime.runObserved respondingCluster reportRun true)
  := by
  obtain ⟨hreleases, hwellFormed⟩ :=
    runObserved_lifecycle respondingCluster restrictedRuntime reportRun true rfl rfl
  refine ⟨hreleases, (hwellFormed rfl).mpr ?_⟩
  intro error herror
  cases herror

/-- A report comes to a success. -/
theorem reportRun_success :
  ∃ observation, (restrictedRuntime.runObserved respondingCluster reportRun true).outcome
      = .ok observation ∧ observation.result = { status := .success }
  := by
  apply (runObserved_success respondingCluster restrictedRuntime reportRun true rfl).mpr
  refine ⟨⟨"worker", rfl, rfl, ?_⟩, ?_, 1, ?_, ?_, ?_⟩
  · rfl
  · intro _ error herror
    cases herror
  · intro earlier hearlier
    obtain rfl : earlier = 0 := by omega
    exact ⟨rfl, rfl⟩
  · intro earlier hearlier
    change (earlier : ℚ) < ((330 : ℤ) : ℚ)
    exact_mod_cast (show (earlier : ℤ) < 330 by omega)
  · refine ⟨⟨_, rfl, rfl⟩, _, rfl, successText, rfl, ?_⟩
    simp [respondingCluster, respondingHost]

end GoblinKing
