import GoblinKing.Api.ServiceRuntimes

/-!
# Who holds a runtime

A runtime that is running is held by the row of its service when the row names it, by a
pending drain that is going to stop it, and by a request that has started it or is going to
stop it. A runtime that nobody holds is leaked. A step lets go of a runtime when it writes
the runtime columns of a row that names it, and when a request or a drain that holds it goes
on without it or ends.
-/

namespace GoblinKing

/-- The runtime that a repository start replaces. -/
def replaced (previous : Option PreviousService) : List Runtime :=
  (previous.bind (fun previous => previous.record.runtime)).toList

/-- The runtime that a purpose of `manager.start` is going to have stopped. -/
def StartPurpose.holds : StartPurpose → List Runtime
  | .validate | .start => []
  | .route previous => replaced previous

/-- The stages of `manager.start` after the runtime was launched. -/
def StartStage.launched : StartStage → Bool
  | .clear | .launch => false
  | .inspect | .probe | .cleanup => true

/-- The runtimes that a request has started and not yet passed on, and those that it is going
to stop. -/
def ServicePhase.holds : ServicePhase → List Runtime
  | .launching purpose _ runtime stage =>
      if stage.launched then runtime :: purpose.holds else purpose.holds
  | .validateStop _ runtime => [runtime]
  | .restartMark record | .stopRuntime record => record.runtime.toList
  | .restartStop _ old => [old]
  | .startRegister _ runtime | .startPoint _ runtime _ | .startProbe _ runtime _
  | .startUndo _ runtime _ | .startUndoWrite _ runtime _ => [runtime]
  | .routeRegister _ runtime previous | .routeProbe _ runtime _ previous
  | .routeUndo runtime previous | .routePoint _ runtime _ previous => runtime :: replaced previous
  | .routeMark previous | .routeDrain previous => replaced (some previous)
  | .declare _ _ _ | .save _ _ | .read _ _ _ | .validateWrite _ _ | .restartClear _
  | .startFailed _ | .stopMark _ | .stopWrite _ | .routeFind _ _ | .routeService _ _ _ _ => []

/-- The runtime that a drain is going to stop. -/
def Drain.holds (drain : Drain) : List Runtime :=
  match drain.stage with
  | .stop => drain.record.runtime.toList
  | .read | .write => []

/-- The runtimes that the rows of services name. -/
def ServiceSystem.named (σ : ServiceSystem) : List Runtime :=
  σ.services.rows.filterMap NotebookServiceRecord.runtime

/-- The runtimes that are held. -/
def ServiceSystem.held (σ : ServiceSystem) : List Runtime :=
  σ.named ++ σ.drains.rows.flatMap Drain.holds
    ++ σ.requests.rows.flatMap (fun request => request.phase.holds)

/-- No runtime is leaked or lost: each one that is running is held. -/
def ServiceSystem.NoneLeaked (σ : ServiceSystem) : Prop :=
  Custody.Accounted σ.live σ.held

/-- The service that a request validates. -/
def ServicePhase.validates : ServicePhase → Option String
  | .read _ kind .validate => some kind
  | .launching .validate record _ _ => some record.kind
  | .validateStop kind _ | .validateWrite kind _ => some kind
  | _ => none

/-- A step of a validation leaves the runtime columns of a service that is running as they
are. -/
def ValidationKeeps (σ : ServiceSystem) (a : ServiceAction) (τ : ServiceSystem) : Prop :=
  match a with
  | .advance requestId _ =>
      ∀ request kind row, σ.requests.find? requestId = some request →
        request.phase.validates = some kind → σ.services.find? kind = some row →
        row.runtimeStatus = "running" →
        ∃ row', τ.services.find? kind = some row' ∧ row'.runtimeBackend = row.runtimeBackend
          ∧ row'.runtimeName = row.runtimeName ∧ row'.activeServiceId = row.activeServiceId
  | _ => True

/-! ### What a step lets go of -/

/-- The service whose runtime columns a step of a request writes. -/
def ServicePhase.writes : ServicePhase → Option String
  | .save _ request => some request.kind
  | .restartClear record => some record.kind
  | .validateWrite kind _ | .startFailed kind | .startPoint kind _ _ | .startUndoWrite kind _ _
  | .stopWrite kind | .routePoint kind _ _ _ => some kind
  | _ => none

/-- The runtime that a step of a request writes into the columns of the row. -/
def ServicePhase.pointer (σ : ServiceSystem) : ServicePhase → Option Runtime
  | .startPoint kind runtime _ | .startUndoWrite kind runtime _ | .routePoint kind runtime _ _ =>
      if (σ.services.find? kind).isSome then some runtime else none
  | _ => none

/-- The runtimes that a request goes on without, or ends without, when its step comes out as
the input says. -/
def ServicePhase.abandons (config : ServiceConfig) (σ : ServiceSystem) (input : ServiceInput) :
    ServicePhase → List Runtime
  | .launching purpose _ runtime stage =>
      match startResult config runtime stage input.outcome with
      | .next _ | .proof => []
      | .error | .raised => runtime :: purpose.holds
  | .validateStop _ runtime => [runtime]
  | .restartStop _ old => [old]
  | .startPoint kind runtime _ | .startUndoWrite kind runtime _ =>
      if (σ.services.find? kind).isSome then [] else [runtime]
  | .startProbe _ runtime _ =>
      if input.probe.any (fun statusCode => !successful statusCode) then [] else [runtime]
  | .startUndo _ runtime _ =>
      if stopReturns runtime.backend input.outcome then [] else [runtime]
  | .stopRuntime record => record.runtime.toList
  | .routeProbe _ runtime _ previous =>
      if input.probe.isSome then [] else runtime :: replaced previous
  | .routeUndo runtime previous => runtime :: replaced previous
  | .routePoint kind runtime _ previous =>
      if (σ.services.find? kind).isSome then [] else runtime :: replaced previous
  | .routeDrain previous =>
      if (σ.drains.find? previous.serviceId).isSome then replaced (some previous) else []
  | _ => []

/-- The runtime that the row of a service names. -/
def ServiceSystem.pointed (σ : ServiceSystem) (kind : String) : Option Runtime :=
  (σ.services.find? kind).bind NotebookServiceRecord.runtime

/-- What a step of a request lets go of: what the request abandons, and what the row names
that it writes. -/
def ServiceSystem.released (config : ServiceConfig) (σ : ServiceSystem) (input : ServiceInput)
    (phase : ServicePhase) : List Runtime :=
  phase.abandons config σ input ++ (phase.writes.bind σ.pointed).toList

/-- The runtimes that are running after an effect. -/
def ServiceEffect.running (live : List Runtime) : ServiceEffect → List Runtime
  | .launch runtime => runtime :: live
  | .remove runtime => Custody.stop Runtime.place runtime.place live
  | _ => live

/-- The runtimes that are running when the command of a phase, if it has one, has ended as the
input says. -/
def ServicePhase.runningAfter (σ : ServiceSystem) (input : ServiceInput) :
    ServicePhase → List Runtime
  | .launching _ _ runtime stage => (startEffect runtime stage input.outcome).running σ.live
  | .validateStop _ runtime | .restartStop _ runtime | .startUndo _ runtime _
  | .routeUndo runtime _ => (stopEffect runtime input.outcome).running σ.live
  | .stopRuntime record =>
      match record.runtime with
      | some runtime => (stopEffect runtime input.outcome).running σ.live
      | none => σ.live
  | _ => σ.live

/-- Who holds runtimes beside a step: the rows that it does not write, the drains, the other
requests, the runtime that it writes, and what its request does not abandon. -/
def ServiceSystem.holdersBeside (config : ServiceConfig) (σ : ServiceSystem) (requestId : Id)
    (input : ServiceInput) (phase : ServicePhase) : List Runtime :=
  (σ.services.select (fun row => decide (phase.writes ≠ some row.kind))).filterMap
      NotebookServiceRecord.runtime
    ++ σ.drains.rows.flatMap Drain.holds
    ++ (σ.requests.select (fun request => decide (request.id ≠ requestId))).flatMap
      (fun request => request.phase.holds)
    ++ (phase.pointer σ).toList
    ++ phase.holds.filter (fun runtime => decide (runtime ∉ phase.abandons config σ input))

/-- A service that is validated is not running when the outcome is written. -/
def ServicePhase.validatesIdle (σ : ServiceSystem) : ServicePhase → Bool
  | .validateWrite kind _ =>
      (σ.services.find? kind).all (fun row => decide (row.runtimeStatus ≠ "running"))
  | _ => true

/-- The condition on a step of a request. What it lets go of has stopped, or is held beside it;
and it does not write the outcome of a validation over a service that runs. -/
def requestKeepsRuntimes (config : ServiceConfig) (σ : ServiceSystem) (requestId : Id)
    (input : ServiceInput) (phase : ServicePhase) : Bool :=
  (σ.released config input phase).all (fun runtime =>
      decide (runtime ∉ phase.runningAfter σ input)
        || decide (runtime ∈ σ.holdersBeside config requestId input phase))
    && phase.validatesIdle σ

/-- What a step of a drain lets go of: the runtime that it was to stop, and what the row names
that it clears. -/
def Drain.releases (σ : ServiceSystem) (drain : Drain) : List Runtime :=
  match drain.stage with
  | .stop => drain.record.runtime.toList
  | .read => []
  | .write => (σ.pointed drain.record.kind).toList

/-- The runtimes that are running when the command of a drain, if it has one, has ended. -/
def Drain.runningAfter (σ : ServiceSystem) (outcome : CommandOutcome) (drain : Drain) :
    List Runtime :=
  match drain.stage, drain.record.runtime with
  | .stop, some runtime => (stopEffect runtime outcome).running σ.live
  | _, _ => σ.live

/-- Who holds runtimes beside a step of a drain. -/
def ServiceSystem.holdersBesideDrain (σ : ServiceSystem) (drain : Drain) : List Runtime :=
  (σ.services.select (fun row =>
      !(decide (drain.stage = .write) && decide (row.kind = drain.record.kind)))).filterMap
      NotebookServiceRecord.runtime
    ++ (σ.drains.select (fun other => decide (other.serviceId ≠ drain.serviceId))).flatMap
      Drain.holds
    ++ σ.requests.rows.flatMap (fun request => request.phase.holds)

/-- The condition on a step of a drain. What it lets go of has stopped, or is held beside it. -/
def drainKeepsRuntimes (σ : ServiceSystem) (outcome : CommandOutcome) (drain : Drain) : Bool :=
  (drain.releases σ).all (fun runtime =>
    decide (runtime ∉ drain.runningAfter σ outcome)
      || decide (runtime ∈ σ.holdersBesideDrain drain))

/-- The condition on a step of the system. -/
def keepsRuntimes (config : ServiceConfig) (σ : ServiceSystem) : ServiceAction → Bool
  | .advance requestId input =>
      (σ.requests.find? requestId).all (fun request =>
        requestKeepsRuntimes config σ requestId input request.phase)
  | .retire serviceId outcome =>
      (σ.drains.find? serviceId).all (drainKeepsRuntimes σ outcome)
  | .receive _ _ | .probe _ _ _ | .mark _ _ => true

/-! ### The phases of a request -/

section Phases

variable {config : ServiceConfig} {σ τ : ServiceSystem} {input : ServiceInput}
  {phase next : ServicePhase} {r : Runtime}

/-- The runtime that a step of a request passes on to a drain. -/
def ServicePhase.passes (σ : ServiceSystem) : ServicePhase → List Runtime
  | .routeDrain previous =>
      if (σ.drains.find? previous.serviceId).isSome then [] else replaced (some previous)
  | _ => []

/-- What a request holds after a step. -/
def heldNext (next : Option ServicePhase) : List Runtime :=
  (next.map ServicePhase.holds).getD []

/-- The phase after a proof holds the runtime, and what the purpose holds. -/
theorem holds_provenPhase (record : NotebookServiceRecord) (runtime : Runtime)
    (purpose : StartPurpose) :
  (provenPhase record runtime purpose).holds = runtime :: purpose.holds
  := by
  cases purpose <;> rfl

/-- The phase after a failed start holds nothing. -/
theorem holds_failedPhase (record : NotebookServiceRecord) (purpose : StartPurpose) :
  heldNext (failedPhase record purpose) = []
  := by
  cases purpose <;> rfl

/-- A start that has got past clearing the name has launched the runtime. -/
theorem launched_of_startResult {runtime : Runtime} {stage stage' : StartStage}
    {outcome : CommandOutcome} (h : startResult config runtime stage outcome = .next stage')
    (hstage : stage ≠ .clear) :
  stage'.launched = true
  := by
  rw [startResult] at h
  split at h
  case h_1 => cases h
  case h_2 =>
    cases outcome <;> cases stage <;> simp_all [startDocker] <;> subst h <;> try rfl
    split <;> rfl
  case h_3 =>
    cases outcome <;> cases stage <;> simp_all [startKubernetes] <;> subst h <;> rfl

/-- What a request holds it abandons, writes into a row, passes on to a drain, or holds on
to. -/
theorem holds_kept (config : ServiceConfig) (σ : ServiceSystem) (input : ServiceInput)
    (hr : r ∈ phase.holds) :
  r ∈ phase.abandons config σ input ∨ phase.pointer σ = some r ∨ r ∈ phase.passes σ
    ∨ r ∈ heldNext (phase.step config σ input).2
  := by
  cases phase with
  | launching purpose record runtime stage =>
      simp only [ServicePhase.abandons, ServicePhase.step]
      have hholds : r ∈ runtime :: purpose.holds := by
        rw [ServicePhase.holds] at hr
        split at hr
        · apply hr
        · apply List.mem_cons_of_mem _ hr
      cases hresult : startResult config runtime stage input.outcome with
      | next stage' =>
          right; right; right
          show r ∈ ServicePhase.holds (.launching purpose record runtime stage')
          by_cases hstage : stage = .clear
          · subst hstage
            rw [ServicePhase.holds]
            split
            · apply hholds
            · apply hr
          · rw [ServicePhase.holds, launched_of_startResult hresult hstage]
            apply hholds
      | proof =>
          right; right; right
          show r ∈ (provenPhase record runtime purpose).holds
          rw [holds_provenPhase]
          apply hholds
      | error =>
          left
          apply hholds
      | raised =>
          left
          apply hholds
  | restartMark record =>
      right; right; right
      rw [ServicePhase.holds] at hr
      cases hold : record.runtime with
      | none => simp [hold] at hr
      | some old => simpa [ServicePhase.step, heldNext, hold, ServicePhase.holds] using hr
  | validateStop kind runtime => left; apply hr
  | restartStop record old => left; apply hr
  | stopRuntime record => left; apply hr
  | routeUndo runtime previous => left; apply hr
  | startRegister record runtime => right; right; right; apply hr
  | routeRegister record runtime previous => right; right; right; apply hr
  | routeMark previous => right; right; right; apply hr
  | startPoint kind runtime serviceId =>
      simp only [ServicePhase.holds, List.mem_singleton] at hr
      subst hr
      cases hrow : (σ.services.find? kind).isSome with
      | false => left; simp [ServicePhase.abandons, hrow]
      | true => right; left; simp [ServicePhase.pointer, hrow]
  | startUndoWrite kind runtime serviceId =>
      simp only [ServicePhase.holds, List.mem_singleton] at hr
      subst hr
      cases hrow : (σ.services.find? kind).isSome with
      | false => left; simp [ServicePhase.abandons, hrow]
      | true => right; left; simp [ServicePhase.pointer, hrow]
  | startProbe kind runtime serviceId =>
      simp only [ServicePhase.step, ServicePhase.abandons]
      cases hprobe : input.probe with
      | none => left; simpa [ServicePhase.holds] using hr
      | some statusCode =>
          cases hcode : successful statusCode with
          | false => right; right; right; simpa [heldNext, ServicePhase.holds, hcode] using hr
          | true => left; simpa [ServicePhase.holds, hcode] using hr
  | startUndo kind runtime serviceId =>
      simp only [ServicePhase.step, ServicePhase.abandons]
      cases hreturns : stopReturns runtime.backend input.outcome with
      | false => left; simpa [ServicePhase.holds] using hr
      | true => right; right; right; simpa [heldNext, ServicePhase.holds] using hr
  | routeProbe kind runtime serviceId previous =>
      simp only [ServicePhase.step, ServicePhase.abandons]
      cases hprobe : input.probe with
      | none => left; apply hr
      | some statusCode =>
          right; right; right
          show r ∈ ServicePhase.holds (if successful statusCode then
            .routePoint kind runtime serviceId previous else .routeUndo runtime previous)
          split
          · apply hr
          · apply hr
  | routePoint kind runtime serviceId previous =>
      simp only [ServicePhase.step, ServicePhase.abandons, ServicePhase.pointer]
      cases hrow : (σ.services.find? kind).isSome with
      | false => left; apply hr
      | true =>
          rcases List.mem_cons.mp hr with rfl | hr
          · right; left; rfl
          · right; right; right
            cases previous with
            | none => cases hr
            | some previous => apply hr
  | routeDrain previous =>
      simp only [ServicePhase.abandons, ServicePhase.passes]
      cases hdrain : (σ.drains.find? previous.serviceId).isSome with
      | false => right; right; left; apply hr
      | true => left; apply hr
  | declare _ _ _ | save _ _ | read _ _ _ | validateWrite _ _ | restartClear _ | startFailed _
  | stopMark _ | stopWrite _ | routeFind _ _ | routeService _ _ _ _ => cases hr

/-- A step that lets go of something holds on to nothing but what it held and does not
abandon. -/
theorem holds_of_released {s : Runtime} (hs : s ∈ σ.released config input phase)
    (hr : r ∈ phase.passes σ ∨ r ∈ heldNext (phase.step config σ input).2) :
  r ∈ phase.holds ∧ r ∉ phase.abandons config σ input
  := by
  cases phase with
  | launching purpose record runtime stage =>
      simp only [ServicePhase.passes, List.not_mem_nil, false_or, ServicePhase.step] at hr
      cases hresult : startResult config runtime stage input.outcome with
      | next stage' =>
          simp [ServiceSystem.released, ServicePhase.abandons, hresult, ServicePhase.writes] at hs
      | proof =>
          simp [ServiceSystem.released, ServicePhase.abandons, hresult, ServicePhase.writes] at hs
      | error =>
          rw [hresult, launchNext, holds_failedPhase] at hr
          cases hr
      | raised =>
          rw [hresult] at hr
          cases hr
  | declare _ _ _ | read _ _ _ | restartMark _ | startRegister _ _ | stopMark _ | routeFind _ _
  | routeService _ _ _ _ | routeRegister _ _ _ | routeMark _ => cases hs
  | save _ _ | validateWrite _ _ | restartClear _ | startFailed _ | startUndoWrite _ _ _
  | stopWrite _ | routeUndo _ _ =>
      rcases hr with hr | hr
      · cases hr
      · cases hr
  | validateStop kind runtime =>
      simp only [ServicePhase.passes, List.not_mem_nil, false_or, ServicePhase.step] at hr
      split at hr
      · cases hr
      · cases hr
  | restartStop record old =>
      simp only [ServicePhase.passes, List.not_mem_nil, false_or, ServicePhase.step] at hr
      split at hr
      · cases hr
      · cases hr
  | stopRuntime record =>
      simp only [ServicePhase.passes, List.not_mem_nil, false_or, ServicePhase.step] at hr
      split at hr
      · cases hr
      · split at hr
        · cases hr
        · cases hr
  | startPoint kind runtime serviceId =>
      simp only [ServicePhase.passes, List.not_mem_nil, false_or, ServicePhase.step] at hr
      split at hr
      case isTrue hrow =>
        rw [ServicePhase.abandons, if_pos hrow]
        use hr
        apply List.not_mem_nil
      case isFalse => cases hr
  | startProbe kind runtime serviceId =>
      simp only [ServicePhase.passes, List.not_mem_nil, false_or, ServicePhase.step] at hr
      cases hprobe : input.probe with
      | none =>
          rw [hprobe] at hr
          cases hr
      | some statusCode =>
          simp only [hprobe] at hr
          split at hr
          case isTrue => cases hr
          case isFalse hcode =>
            simp [ServiceSystem.released, ServicePhase.abandons, hprobe, hcode,
              ServicePhase.writes] at hs
  | startUndo kind runtime serviceId =>
      simp only [ServicePhase.passes, List.not_mem_nil, false_or, ServicePhase.step] at hr
      split at hr
      case isTrue hreturns =>
        simp [ServiceSystem.released, ServicePhase.abandons, hreturns, ServicePhase.writes] at hs
      case isFalse => cases hr
  | routeProbe kind runtime serviceId previous =>
      simp only [ServicePhase.passes, List.not_mem_nil, false_or, ServicePhase.step] at hr
      cases hprobe : input.probe with
      | none =>
          rw [hprobe] at hr
          cases hr
      | some statusCode =>
          simp [ServiceSystem.released, ServicePhase.abandons, hprobe, ServicePhase.writes] at hs
  | routePoint kind runtime serviceId previous =>
      simp only [ServicePhase.passes, List.not_mem_nil, false_or, ServicePhase.step] at hr
      split at hr
      case isTrue hrow =>
        rw [ServicePhase.abandons, if_pos hrow]
        refine ⟨List.mem_cons_of_mem _ ?_, List.not_mem_nil⟩
        cases previous with
        | none => cases hr
        | some previous => apply hr
      case isFalse => cases hr
  | routeDrain previous =>
      simp only [ServicePhase.passes, ServicePhase.step] at hr
      split at hr
      case isTrue =>
        rcases hr with hr | hr
        · cases hr
        · cases hr
      case isFalse hdrain =>
        simp [ServiceSystem.released, ServicePhase.abandons, hdrain, ServicePhase.writes] at hs

/-- An effect that changes neither the rows of services nor the drains, and launches
nothing. -/
def ServiceEffect.neutral : ServiceEffect → Bool
  | .nothing | .saveLongService _ | .probeLongService _ _ _ | .markLongService _ _ | .remove _ =>
      true
  | .save _ | .setRuntime _ _ | .launch _ | .drain _ => false

/-- Stopping a runtime is neutral. -/
theorem neutral_stopEffect (runtime : Runtime) (outcome : CommandOutcome) :
  (stopEffect runtime outcome).neutral = true
  := by
  rw [stopEffect]
  split <;> rfl

/-- Marking a long service is neutral. -/
theorem neutral_markStopped (record : NotebookServiceRecord) :
  (markStopped record).neutral = true
  := by
  rw [markStopped]
  split <;> rfl

/-- What is running after a step is what is running when its command has ended. -/
theorem running_step (config : ServiceConfig) (σ : ServiceSystem) (input : ServiceInput)
    (phase : ServicePhase) :
  (phase.step config σ input).1.running σ.live = phase.runningAfter σ input
  := by
  cases phase with
  | launching _ _ _ _ | validateStop _ _ | restartStop _ _ | startUndo _ _ _ | routeUndo _ _
  | save _ _ | validateWrite _ _ | restartClear _ | startFailed _ | startRegister _ _
  | startPoint _ _ _ | startUndoWrite _ _ _ | stopWrite _ | routeFind _ _
  | routeService _ _ _ _ | routeRegister _ _ _ | routePoint _ _ _ _ | routeMark _
  | routeDrain _ => rfl
  | declare _ _ _ | read _ _ _ | startProbe _ _ _ | routeProbe _ _ _ _ =>
      simp only [ServicePhase.step]
      split <;> rfl
  | restartMark record | stopMark record =>
      simp only [ServicePhase.step, markStopped]
      split <;> rfl
  | stopRuntime record =>
      simp only [ServicePhase.step, ServicePhase.runningAfter]
      cases record.runtime <;> rfl

/-- What is running after a step of a drain is what is running when its command has ended. -/
theorem running_drain (σ : ServiceSystem) (outcome : CommandOutcome) (drain : Drain) :
  (drain.step σ outcome).1.running σ.live = drain.runningAfter σ outcome
  := by
  simp only [Drain.step, Drain.runningAfter]
  cases drain.stage with
  | stop => cases drain.record.runtime <;> rfl
  | read => rfl
  | write => rfl

/-- A step that writes no runtime columns is neutral, launches a runtime or registers a
drain. -/
theorem effect_of_writes_none (config : ServiceConfig) (σ : ServiceSystem) (input : ServiceInput)
    (h : phase.writes = none) :
  (phase.step config σ input).1.neutral = true
    ∨ (∃ purpose record runtime, phase = .launching purpose record runtime .launch
      ∧ (phase.step config σ input).1 = .launch runtime)
    ∨ ∃ previous, phase = .routeDrain previous
  := by
  cases phase with
  | save _ _ | validateWrite _ _ | restartClear _ | startFailed _ | startPoint _ _ _
  | startUndoWrite _ _ _ | stopWrite _ | routePoint _ _ _ _ => cases h
  | launching purpose record runtime stage =>
      cases stage with
      | launch =>
          simp only [ServicePhase.step, startEffect]
          split
          · right; left
            exact ⟨purpose, record, runtime, rfl, rfl⟩
          · left
            rfl
      | clear => exact .inl (neutral_stopEffect _ _)
      | cleanup => exact .inl (neutral_stopEffect _ _)
      | inspect => exact .inl rfl
      | probe => exact .inl rfl
  | validateStop _ _ | restartStop _ _ | startUndo _ _ _ | routeUndo _ _ =>
      exact .inl (neutral_stopEffect _ _)
  | restartMark record | stopMark record => exact .inl (neutral_markStopped _)
  | stopRuntime record =>
      left
      simp only [ServicePhase.step]
      split
      · rfl
      · apply neutral_stopEffect
  | declare _ _ _ | read _ _ _ | startProbe _ _ _ | routeProbe _ _ _ _ =>
      left
      simp only [ServicePhase.step]
      split <;> rfl
  | startRegister _ _ | routeFind _ _ | routeService _ _ _ _ | routeRegister _ _ _ | routeMark _ =>
      exact .inl rfl
  | routeDrain previous => exact .inr (.inr ⟨previous, rfl⟩)

/-- A step that writes runtime columns saves a row, or sets its runtime. -/
theorem effect_of_writes_some (config : ServiceConfig) (σ : ServiceSystem) (input : ServiceInput)
    {kind : String} (h : phase.writes = some kind) :
  (∃ record, (phase.step config σ input).1 = .save record)
    ∨ ∃ runtime, (phase.step config σ input).1 = .setRuntime kind runtime
  := by
  cases phase with
  | save _ _ => exact .inl ⟨_, rfl⟩
  | validateWrite _ _ | restartClear _ | startFailed _ | startPoint _ _ _ | startUndoWrite _ _ _
  | stopWrite _ | routePoint _ _ _ _ =>
      obtain rfl := Option.some.inj h
      exact .inr ⟨_, rfl⟩
  | _ => cases h

/-- Only a start that launches a runtime launches one. -/
theorem launching_of_launch (h : (phase.step config σ input).1 = .launch r) :
  ∃ purpose record, phase = .launching purpose record r .launch
  := by
  cases hwrites : phase.writes with
  | none =>
      rcases effect_of_writes_none config σ input hwrites with
        hneutral | ⟨purpose, record, runtime, rfl, heffect⟩ | ⟨previous, rfl⟩
      · rw [h] at hneutral
        cases hneutral
      · rw [h] at heffect
        obtain rfl := ServiceEffect.launch.inj heffect
        use purpose, record
      · cases h
  | some kind =>
      rcases effect_of_writes_some config σ input hwrites with
        ⟨record, heffect⟩ | ⟨runtime, heffect⟩
      · rw [h] at heffect
        cases heffect
      · rw [h] at heffect
        cases heffect

/-- A runtime that is launched is held, or abandoned. -/
theorem held_of_launch (h : (phase.step config σ input).1 = .launch r) :
  r ∈ phase.abandons config σ input ∨ r ∈ heldNext (phase.step config σ input).2
  := by
  obtain ⟨purpose, record, rfl⟩ := launching_of_launch h
  simp only [ServicePhase.abandons, ServicePhase.step]
  cases hresult : startResult config r .launch input.outcome with
  | next stage' =>
      right
      show r ∈ ServicePhase.holds (.launching purpose record r stage')
      rw [ServicePhase.holds, launched_of_startResult hresult (by simp)]
      apply List.mem_cons_self
  | proof =>
      right
      show r ∈ (provenPhase record r purpose).holds
      rw [holds_provenPhase]
      apply List.mem_cons_self
  | error =>
      left
      apply List.mem_cons_self
  | raised =>
      left
      apply List.mem_cons_self

end Phases

end GoblinKing
