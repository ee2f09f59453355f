import GoblinKing.Api.RepositorySources
import GoblinKing.Api.ServiceCustody

/-!
# No runtime is leaked

What a step of a request and a step of a drain do to the runtimes that are held, and from it
the exact condition under which a run of the system leaks no runtime: no step lets go of a
runtime that is still running and that nobody else holds.
-/

namespace GoblinKing

section Phases

variable {config : ServiceConfig} {σ τ : ServiceSystem} {input : ServiceInput}
  {phase next : ServicePhase} {r : Runtime}

/-! ### The rows of services -/

/-- The tables of services after an effect. -/
def ServiceEffect.services (services : Table NotebookServiceRecord.kind) :
    ServiceEffect → Table NotebookServiceRecord.kind
  | .save record => services.upsert record
  | .setRuntime kind runtime => updateNotebookServiceRuntime services kind runtime
  | _ => services

/-- The table of drains after an effect. -/
def ServiceEffect.drains (drains : Table Drain.serviceId) : ServiceEffect → Table Drain.serviceId
  | .drain previous => registerDrain drains previous
  | _ => drains

/-- What is there after an effect that succeeded. -/
structure ServiceEffect.Leaves (effect : ServiceEffect) (σ τ : ServiceSystem) : Prop where
  services : τ.services = effect.services σ.services
  live : ∀ r, r ∈ τ.live ↔ r ∈ effect.running σ.live
  requests : τ.requests = σ.requests
  drains : τ.drains = effect.drains σ.drains

/-- An effect changes the rows of services, the runtimes or the drains, and no request. -/
theorem leaves_of_apply {effect : ServiceEffect} (h : effect.apply σ = some τ) :
  effect.Leaves σ τ
  := by
  cases effect with
  | saveLongService service =>
      obtain ⟨services, -, rfl⟩ := Option.map_eq_some_iff.mp h
      exact ⟨rfl, fun _ => Iff.rfl, rfl, rfl⟩
  | launch runtime =>
      obtain ⟨live, hlive, rfl⟩ := Option.map_eq_some_iff.mp h
      refine ⟨rfl, ?_, rfl, rfl⟩
      intro r
      rw [ServiceEffect.running, List.mem_cons]
      apply Custody.mem_start hlive
  | nothing | save _ | setRuntime _ _ | probeLongService _ _ _ | markLongService _ _ | remove _
  | drain _ =>
      obtain rfl := Option.some.inj h
      exact ⟨rfl, fun _ => Iff.rfl, rfl, rfl⟩

/-- Only one effect changes the drains. -/
theorem drains_eq {effect : ServiceEffect} {drains : Table Drain.serviceId}
    (h : ∀ previous, effect ≠ .drain previous) :
  effect.drains drains = drains
  := by
  cases effect with
  | drain previous => cases h previous rfl
  | _ => rfl

/-- What is running after an effect was running before, or is launched by it. -/
theorem mem_running {effect : ServiceEffect} {live : List Runtime} (h : r ∈ effect.running live) :
  r ∈ live ∨ effect = .launch r
  := by
  cases effect with
  | launch runtime =>
      rcases List.mem_cons.mp h with rfl | h
      · right
        rfl
      · left
        apply h
  | remove runtime =>
      left
      apply (Custody.mem_stop.mp h).1
  | nothing | save _ | setRuntime _ _ | saveLongService _ | probeLongService _ _ _
  | markLongService _ _ | drain _ =>
      left
      apply h

/-- A row can name a runtime: it is the row of its service, and neither the backend nor the
name is empty. -/
structure Runtime.Nameable (kind : String) (runtime : Runtime) : Prop where
  kind : runtime.kind = kind
  backend : runtime.backend ≠ ""
  name : runtime.name ≠ ""

/-- A row that is written with a runtime names it. -/
theorem runtime_setRuntime_running {runtime : Runtime} {record : NotebookServiceRecord}
    (h : runtime.Nameable record.kind) (serviceId : Id) (status : String) :
  (record.setRuntime (runningAs runtime serviceId status)).runtime = some runtime
  := by
  obtain ⟨hkind, hbackend, hname⟩ := h
  obtain ⟨kind, backend, name⟩ := runtime
  dsimp only at hkind hbackend hname
  subst hkind
  simp [NotebookServiceRecord.runtime, NotebookServiceRecord.setRuntime, runningAs, truthy,
    Option.filter, hbackend, hname]

/-- A row that is written without a runtime names none. -/
theorem runtime_setRuntime_cleared (record : NotebookServiceRecord) (status : String) :
  (record.setRuntime { runtimeStatus := status }).runtime = none
  := rfl

/-- What rows name after one of them was written. -/
theorem named_setRuntime {services : Table NotebookServiceRecord.kind} {kind : String}
    {runtime : ServiceRuntime} (pointer : Option Runtime)
    (h : ∀ row : NotebookServiceRecord, row.kind = kind →
      (row.setRuntime runtime).runtime = pointer) :
  (∃ row ∈ (updateNotebookServiceRuntime services kind runtime).rows, row.runtime = some r)
    ↔ (∃ row ∈ services.rows, some kind ≠ some row.kind ∧ row.runtime = some r)
      ∨ (services.find? kind).isSome = true ∧ pointer = some r
  := by
  constructor
  · rintro ⟨row, hrow, hr⟩
    obtain ⟨old, hold, rfl⟩ := Table.mem_update.mp hrow
    by_cases hkind : old.kind = kind
    · rw [if_pos (decide_eq_true hkind), h old hkind] at hr
      right
      rw [← hkind, Table.find?_of_mem hold]
      use rfl, hr
    · rw [if_neg (by simpa using hkind)] at hr
      left
      use old, hold
      use fun h => hkind (Option.some.inj h).symm, hr
  · rintro (⟨row, hrow, hkind, hr⟩ | ⟨hsome, hr⟩)
    · use row
      rw [updateNotebookServiceRuntime, Table.mem_update]
      have hne : ¬ row.kind = kind := fun h => hkind (by rw [h])
      use ⟨row, hrow, by rw [if_neg (by simpa using hne)]⟩, hr
    · obtain ⟨row, hrow⟩ := Option.isSome_iff_exists.mp hsome
      use row.setRuntime runtime
      rw [updateNotebookServiceRuntime, Table.mem_update]
      have hkind := Table.key_of_find? hrow
      use ⟨row, Table.mem_of_find? hrow, by rw [if_pos (decide_eq_true hkind)]⟩
      rw [h row hkind, hr]

/-- What rows name after a service was declared. -/
theorem named_upsert {services : Table NotebookServiceRecord.kind} {record : NotebookServiceRecord}
    (h : record.runtime = none) :
  (∃ row ∈ (services.upsert record).rows, row.runtime = some r)
    ↔ ∃ row ∈ services.rows, some record.kind ≠ some row.kind ∧ row.runtime = some r
  := by
  constructor
  · rintro ⟨row, hrow, hr⟩
    rcases Table.mem_upsert.mp hrow with rfl | ⟨hrow, hne⟩
    · rw [h] at hr
      cases hr
    · use row, hrow
      use fun h => hne (Option.some.inj h).symm, hr
  · rintro ⟨row, hrow, hne, hr⟩
    use row
    rw [Table.mem_upsert]
    use .inr ⟨hrow, fun h => hne (by rw [h])⟩, hr

/-- What a phase knows of the runtime that it holds. -/
def ServicePhase.Sound : ServicePhase → Prop
  | .launching _ record runtime _ => runtime.kind = record.kind ∧ runtime.name ≠ ""
  | .startRegister record runtime | .routeRegister record runtime _ =>
      runtime.Nameable record.kind
  | .startPoint kind runtime _ | .startProbe kind runtime _ | .startUndo kind runtime _
  | .startUndoWrite kind runtime _ | .routeProbe kind runtime _ _
  | .routePoint kind runtime _ _ => runtime.Nameable kind
  | _ => True

/-- A step that writes no runtime columns changes no row. -/
theorem services_of_writes_none (h : phase.writes = none)
    (services : Table NotebookServiceRecord.kind) :
  (phase.step config σ input).1.services services = services ∧ phase.pointer σ = none
  := by
  constructor
  · rcases effect_of_writes_none config σ input h with
      hneutral | ⟨purpose, record, runtime, rfl, heffect⟩ | ⟨previous, rfl⟩
    · generalize (phase.step config σ input).1 = effect at hneutral
      cases effect <;> first | rfl | cases hneutral
    · rw [heffect]
      rfl
    · rfl
  · cases phase <;> first | rfl | cases h

/-- What rows name after a step of a request: what they named where the step does not write,
and the runtime that it writes. -/
theorem named_step (hsound : phase.Sound) :
  (∃ row ∈ ((phase.step config σ input).1.services σ.services).rows, row.runtime = some r)
    ↔ (∃ row ∈ σ.services.rows, phase.writes ≠ some row.kind ∧ row.runtime = some r)
      ∨ phase.pointer σ = some r
  := by
  have hcleared : ∀ (kind status : String),
      (∃ row ∈ (updateNotebookServiceRuntime σ.services kind { runtimeStatus := status }).rows,
        row.runtime = some r)
        ↔ (∃ row ∈ σ.services.rows, some kind ≠ some row.kind ∧ row.runtime = some r)
          ∨ (none : Option Runtime) = some r := by
    intro kind status
    rw [named_setRuntime none]
    · simp
    · intro row _
      apply runtime_setRuntime_cleared
  have hpointed : ∀ (kind : String) (runtime : Runtime) (serviceId : Id) (status : String),
      runtime.Nameable kind →
      ((∃ row ∈ (updateNotebookServiceRuntime σ.services kind
          (runningAs runtime serviceId status)).rows, row.runtime = some r)
        ↔ (∃ row ∈ σ.services.rows, some kind ≠ some row.kind ∧ row.runtime = some r)
          ∨ (if (σ.services.find? kind).isSome then some runtime else none) = some r) := by
    intro kind runtime serviceId status hnameable
    rw [named_setRuntime (some runtime)]
    · cases hrow : (σ.services.find? kind).isSome <;> simp
    · rintro row rfl
      apply runtime_setRuntime_running hnameable
  cases hwrites : phase.writes with
  | none =>
      obtain ⟨hservices, hpointer⟩ := services_of_writes_none hwrites σ.services
      rw [hservices, hpointer]
      simp
  | some written =>
      rw [← hwrites]
      cases phase with
      | save projectId request =>
          simp only [ServicePhase.step, ServiceEffect.services, ServicePhase.writes,
            ServicePhase.pointer]
          rw [named_upsert rfl]
          simp [declaredService]
      | validateWrite kind ok => apply hcleared
      | restartClear record => apply hcleared
      | startFailed kind => apply hcleared
      | stopWrite kind => apply hcleared
      | startPoint kind runtime serviceId => apply hpointed kind runtime serviceId _ hsound
      | startUndoWrite kind runtime serviceId => apply hpointed kind runtime serviceId _ hsound
      | routePoint kind runtime serviceId previous =>
          apply hpointed kind runtime serviceId _ hsound
      | _ => cases hwrites

/-! ### Drains and requests -/

/-- A service that is not draining yet gets a drain; the drains that are there stay. -/
theorem mem_registerDrain {drains : Table Drain.serviceId} {previous : PreviousService}
    {drain : Drain} :
  drain ∈ (registerDrain drains previous).rows
    ↔ drain ∈ drains.rows
      ∨ drains.find? previous.serviceId = none
        ∧ drain = ⟨previous.serviceId, previous.record, .stop⟩
  := by
  rw [registerDrain]
  cases hinsert : drains.insert? ⟨previous.serviceId, previous.record, .stop⟩ with
  | some drains' =>
      rw [Option.getD_some, Table.rows_insert? hinsert, List.mem_append, List.mem_singleton]
      have hnone := Table.find?_of_insert? hinsert
      dsimp only at hnone
      simp [hnone]
  | none =>
      have htaken : drains.find? previous.serviceId ≠ none := by
        intro hnone
        obtain ⟨drains', h⟩ := Table.exists_insert? (t := drains)
          (r := ⟨previous.serviceId, previous.record, .stop⟩) hnone
        rw [hinsert] at h
        cases h
      simp [htaken]

/-- What drains hold after a step of a request. -/
theorem drains_step (h : (phase.step config σ input).1.apply σ = some τ) :
  (∃ drain ∈ τ.drains.rows, r ∈ drain.holds)
    ↔ (∃ drain ∈ σ.drains.rows, r ∈ drain.holds) ∨ r ∈ phase.passes σ
  := by
  by_cases hdrain : ∃ previous, phase = .routeDrain previous
  · obtain ⟨previous, rfl⟩ := hdrain
    obtain rfl := Option.some.inj h
    have hpasses : r ∈ ServicePhase.passes σ (.routeDrain previous)
        ↔ σ.drains.find? previous.serviceId = none ∧ r ∈ previous.record.runtime.toList := by
      rw [ServicePhase.passes]
      cases hfind : σ.drains.find? previous.serviceId with
      | none => simp [replaced]
      | some drain => simp
    rw [hpasses]
    constructor
    · rintro ⟨drain, hmem, hr⟩
      rcases mem_registerDrain.mp hmem with hmem | ⟨hnone, rfl⟩
      · exact .inl ⟨drain, hmem, hr⟩
      · exact .inr ⟨hnone, hr⟩
    · rintro (⟨drain, hmem, hr⟩ | ⟨hnone, hr⟩)
      · exact ⟨drain, mem_registerDrain.mpr (.inl hmem), hr⟩
      · exact ⟨_, mem_registerDrain.mpr (.inr ⟨hnone, rfl⟩), hr⟩
  · have hpasses : phase.passes σ = [] := by
      cases phase with
      | routeDrain previous => cases hdrain ⟨previous, rfl⟩
      | _ => rfl
    have hdrains : τ.drains = σ.drains := by
      rw [(leaves_of_apply h).drains]
      apply drains_eq
      intro previous heffect
      cases hwrites : phase.writes with
      | none =>
          rcases effect_of_writes_none config σ input hwrites with
            hneutral | ⟨_, _, _, rfl, hlaunch⟩ | hphase
          · rw [heffect] at hneutral
            cases hneutral
          · rw [heffect] at hlaunch
            cases hlaunch
          · cases hdrain hphase
      | some kind =>
          rcases effect_of_writes_some config σ input hwrites with ⟨_, hsave⟩ | ⟨_, hset⟩
          · rw [heffect] at hsave
            cases hsave
          · rw [heffect] at hset
            cases hset
    rw [hdrains, hpasses]
    simp

/-- What requests hold when one of them is at another phase. -/
theorem requests_setPhase {requestId : Id} {request : ServiceRequest}
    (hrequest : σ.requests.find? requestId = some request) (next : Option ServicePhase) :
  (∃ other ∈ (σ.setPhase requestId next).requests.rows, r ∈ other.phase.holds)
    ↔ (∃ other ∈ σ.requests.rows, other.id ≠ requestId ∧ r ∈ other.phase.holds)
      ∨ r ∈ heldNext next
  := by
  have hid := Table.key_of_find? hrequest
  cases next with
  | none =>
      simp [ServiceSystem.setPhase, Table.mem_delete, heldNext, and_assoc]
  | some phase =>
      simp only [ServiceSystem.setPhase, Table.mem_update, heldNext, Option.map_some,
        Option.getD_some]
      constructor
      · rintro ⟨_, ⟨old, hold, rfl⟩, hr⟩
        by_cases hold' : old.id = requestId
        · right
          simpa [hold'] using hr
        · left
          use old, hold, hold'
          simpa [hold'] using hr
      · rintro (⟨old, hold, hne, hr⟩ | hr)
        · use old
          use ⟨old, hold, by simp [hne]⟩
        · use { request with phase := phase }
          use ⟨request, Table.mem_of_find? hrequest, by simp [hid]⟩

/-- Another phase of a request changes neither rows, drains nor what is running. -/
theorem setPhase_rest (σ : ServiceSystem) (requestId : Id) (next : Option ServicePhase) :
  (σ.setPhase requestId next).services = σ.services ∧ (σ.setPhase requestId next).live = σ.live
    ∧ (σ.setPhase requestId next).drains = σ.drains
  := by
  cases next <;> exact ⟨rfl, rfl, rfl⟩

/-- Who holds a runtime. -/
theorem mem_held :
  r ∈ σ.held ↔ (∃ row ∈ σ.services.rows, row.runtime = some r)
    ∨ (∃ drain ∈ σ.drains.rows, r ∈ drain.holds)
    ∨ ∃ request ∈ σ.requests.rows, r ∈ request.phase.holds
  := by
  simp [ServiceSystem.held, ServiceSystem.named]

/-! ### A step of a request -/

/-- Who holds a runtime beside a step of a request. -/
theorem mem_holdersBeside {requestId : Id} :
  r ∈ σ.holdersBeside config requestId input phase
    ↔ (∃ row ∈ σ.services.rows, phase.writes ≠ some row.kind ∧ row.runtime = some r)
      ∨ (∃ drain ∈ σ.drains.rows, r ∈ drain.holds)
      ∨ (∃ other ∈ σ.requests.rows, other.id ≠ requestId ∧ r ∈ other.phase.holds)
      ∨ phase.pointer σ = some r
      ∨ r ∈ phase.holds ∧ r ∉ phase.abandons config σ input
  := by
  simp [ServiceSystem.holdersBeside, Table.select, and_assoc]

variable {request : ServiceRequest} {requestId : Id}

/-- Who holds a runtime after a step of a request. -/
theorem mem_held_step (hrequest : σ.requests.find? requestId = some request)
    (hsound : request.phase.Sound)
    (h : (request.phase.step config σ input).1.apply σ = some τ) :
  r ∈ (τ.setPhase requestId (request.phase.step config σ input).2).held
    ↔ ((∃ row ∈ σ.services.rows, request.phase.writes ≠ some row.kind ∧ row.runtime = some r)
        ∨ request.phase.pointer σ = some r)
      ∨ ((∃ drain ∈ σ.drains.rows, r ∈ drain.holds) ∨ r ∈ request.phase.passes σ)
      ∨ (∃ other ∈ σ.requests.rows, other.id ≠ requestId ∧ r ∈ other.phase.holds)
      ∨ r ∈ heldNext (request.phase.step config σ input).2
  := by
  obtain ⟨hservices, -, hdrains⟩ :=
    setPhase_rest τ requestId (request.phase.step config σ input).2
  have hleft := leaves_of_apply h
  rw [mem_held, hservices, hdrains, hleft.services, named_step hsound, drains_step h,
    requests_setPhase (by rw [hleft.requests]; apply hrequest), hleft.requests]

/-- A step of a request leaks nothing exactly when everything that it lets go of, and that is
still running, is held beside it. -/
theorem noneLeaked_request (hnone : σ.NoneLeaked)
    (hrequest : σ.requests.find? requestId = some request) (hsound : request.phase.Sound)
    (h : (request.phase.step config σ input).1.apply σ = some τ) :
  (τ.setPhase requestId (request.phase.step config σ input).2).NoneLeaked
    ↔ ∀ r ∈ σ.released config input request.phase,
      r ∈ request.phase.runningAfter σ input →
      r ∈ σ.holdersBeside config requestId input request.phase
  := by
  obtain ⟨-, hlive, -⟩ :=
    setPhase_rest τ requestId (request.phase.step config σ input).2
  have hleft := leaves_of_apply h
  rw [ServiceSystem.NoneLeaked, hlive, ← running_step config,
    Custody.accounted_step (σ.released config input request.phase) hnone]
  · constructor
    · intro hkept r hreleased hrunning
      rw [mem_holdersBeside]
      rcases (mem_held_step hrequest hsound h).mp (hkept r hreleased ((hleft.live r).mpr hrunning))
        with (hrow | hpointer) | (hdrain | hpassed) | hother | hnext
      · exact .inl hrow
      · exact .inr (.inr (.inr (.inl hpointer)))
      · exact .inr (.inl hdrain)
      · exact .inr (.inr (.inr (.inr (holds_of_released hreleased (.inl hpassed)))))
      · exact .inr (.inr (.inl hother))
      · exact .inr (.inr (.inr (.inr (holds_of_released hreleased (.inr hnext)))))
    · intro hbeside r hreleased hrunning
      rw [mem_held_step hrequest hsound h]
      rcases mem_holdersBeside.mp (hbeside r hreleased ((hleft.live r).mp hrunning)) with
        hrow | hdrain | hother | hpointer | ⟨hholds, hkeeps⟩
      · exact .inl (.inl hrow)
      · exact .inr (.inl (.inl hdrain))
      · exact .inr (.inr (.inl hother))
      · exact .inl (.inr hpointer)
      · rcases holds_kept config σ input hholds with
          habandons | hpointer | hpassed | hnext
        · cases hkeeps habandons
        · exact .inl (.inr hpointer)
        · exact .inr (.inl (.inr hpassed))
        · exact .inr (.inr (.inr hnext))
  · -- a runtime that is launched is held by the request, or let go of
    intro r hr
    rcases mem_running ((hleft.live r).mp hr) with hlive | hlaunch
    · exact .inl hlive
    · rcases held_of_launch hlaunch with habandons | hnext
      · exact .inr (.inl (List.mem_append_left _ habandons))
      · right; right
        rw [mem_held_step hrequest hsound h]
        exact .inr (.inr (.inr hnext))
  · -- what was held is held, unless it was named by the row that is written, or abandoned
    intro r hr
    rw [mem_held_step hrequest hsound h]
    rcases mem_held.mp hr with ⟨row, hrow, hr⟩ | hdrain | ⟨other, hother, hr⟩
    · by_cases hwrites : request.phase.writes = some row.kind
      · right
        apply List.mem_append_right
        rw [hwrites, Option.bind_some, Option.mem_toList, ServiceSystem.pointed,
          Table.find?_of_mem hrow]
        apply hr
      · exact .inl (.inl (.inl ⟨row, hrow, hwrites, hr⟩))
    · exact .inl (.inr (.inl (.inl hdrain)))
    · by_cases hid : other.id = requestId
      · have hsame : other = request := by
          have hfound := Table.find?_of_mem hother
          rw [hid, hrequest] at hfound
          apply (Option.some.inj hfound).symm
        subst hsame
        rcases holds_kept config σ input hr with
          habandons | hpointer | hpassed | hnext
        · exact .inr (List.mem_append_left _ habandons)
        · exact .inl (.inl (.inr hpointer))
        · exact .inl (.inr (.inl (.inr hpassed)))
        · exact .inl (.inr (.inr (.inr hnext)))
      · exact .inl (.inr (.inr (.inl ⟨other, hother, hid, hr⟩)))

/-! ### A step of a drain -/

section Drains

variable {outcome : CommandOutcome} {drain : Drain} {serviceId : Id}

/-- What rows name after a step of a drain. -/
theorem named_drain :
  (∃ row ∈ ((drain.step σ outcome).1.services σ.services).rows, row.runtime = some r)
    ↔ ∃ row ∈ σ.services.rows, ¬ (drain.stage = .write ∧ row.kind = drain.record.kind)
      ∧ row.runtime = some r
  := by
  cases hstage : drain.stage with
  | stop =>
      have hservices : (drain.step σ outcome).1.services σ.services = σ.services := by
        simp only [Drain.step, hstage]
        split
        · rfl
        · rw [stopEffect]
          split <;> rfl
      rw [hservices]
      simp
  | read =>
      have hservices : (drain.step σ outcome).1.services σ.services = σ.services := by
        simp only [Drain.step, hstage]
        rfl
      rw [hservices]
      simp
  | write =>
      have hservices : (drain.step σ outcome).1.services σ.services
          = updateNotebookServiceRuntime σ.services drain.record.kind
            { runtimeStatus := "stopped" } := by
        simp only [Drain.step, hstage]
        rfl
      rw [hservices, named_setRuntime none (fun row _ => runtime_setRuntime_cleared row _)]
      constructor
      · rintro (⟨row, hrow, hne, hr⟩ | ⟨-, hr⟩)
        · use row, hrow
          use fun h => hne (by rw [h.2]), hr
        · cases hr
      · rintro ⟨row, hrow, hne, hr⟩
        left
        use row, hrow
        use fun h => hne ⟨rfl, (Option.some.inj h).symm⟩, hr

/-- A step of a drain launches nothing and registers no drain. -/
theorem effect_drain :
  (∀ runtime, (drain.step σ outcome).1 ≠ .launch runtime)
    ∧ ∀ previous, (drain.step σ outcome).1 ≠ .drain previous
  := by
  have hstop : ∀ runtime : Runtime, (∀ other, stopEffect runtime outcome ≠ .launch other)
      ∧ ∀ previous, stopEffect runtime outcome ≠ .drain previous := by
    intro runtime
    rw [stopEffect]
    split <;> simp
  rw [Drain.step]
  split
  · split
    · simp
    · apply hstop
  · simp
  · simp

/-- A drain holds nothing after its first step. -/
theorem holds_drain_next {stage : DrainStage} (h : (drain.step σ outcome).2 = some stage) :
  stage ≠ .stop
  := by
  rw [Drain.step] at h
  split at h
  · split at h
    · cases h
      simp
    · dsimp only at h
      split at h
      · cases h
        simp
      · cases h
  · dsimp only at h
    split at h
    · cases h
      simp
    · cases h
  · cases h

/-- What drains hold when one of them is at another stage, which holds nothing. -/
theorem drains_setStage {next : Option DrainStage} (hnext : next ≠ some .stop) :
  (∃ other ∈ (σ.setStage serviceId next).drains.rows, r ∈ other.holds)
    ↔ ∃ other ∈ σ.drains.rows, other.serviceId ≠ serviceId ∧ r ∈ other.holds
  := by
  cases next with
  | none => simp [ServiceSystem.setStage, Table.mem_delete, and_assoc]
  | some stage =>
      have hholds : ∀ other : Drain, r ∉ Drain.holds { other with stage := stage } := by
        intro other hr
        cases stage with
        | stop => cases hnext rfl
        | read => cases hr
        | write => cases hr
      simp only [ServiceSystem.setStage, Table.mem_update]
      constructor
      · rintro ⟨_, ⟨old, hold, rfl⟩, hr⟩
        by_cases hid : old.serviceId = serviceId
        · rw [if_pos (decide_eq_true hid)] at hr
          cases hholds old hr
        · rw [if_neg (by simpa using hid)] at hr
          use old, hold
      · rintro ⟨old, hold, hne, hr⟩
        use old
        use ⟨old, hold, by simp [hne]⟩

/-- Another stage of a drain changes neither rows, requests nor what is running. -/
theorem setStage_rest (σ : ServiceSystem) (serviceId : Id) (next : Option DrainStage) :
  (σ.setStage serviceId next).services = σ.services ∧ (σ.setStage serviceId next).live = σ.live
    ∧ (σ.setStage serviceId next).requests = σ.requests
  := by
  cases next <;> exact ⟨rfl, rfl, rfl⟩

/-- Who holds a runtime beside a step of a drain. -/
theorem mem_holdersBesideDrain :
  r ∈ σ.holdersBesideDrain drain
    ↔ (∃ row ∈ σ.services.rows, ¬ (drain.stage = .write ∧ row.kind = drain.record.kind)
        ∧ row.runtime = some r)
      ∨ (∃ other ∈ σ.drains.rows, other.serviceId ≠ drain.serviceId ∧ r ∈ other.holds)
      ∨ ∃ request ∈ σ.requests.rows, r ∈ request.phase.holds
  := by
  simp [ServiceSystem.holdersBesideDrain, Table.select, and_assoc, imp_iff_not_or]

/-- Who holds a runtime after a step of a drain. -/
theorem mem_held_drain (hdrain : σ.drains.find? serviceId = some drain)
    (h : (drain.step σ outcome).1.apply σ = some τ) :
  r ∈ (τ.setStage serviceId (drain.step σ outcome).2).held ↔ r ∈ σ.holdersBesideDrain drain
  := by
  obtain ⟨hservices, -, hrequests⟩ :=
    setStage_rest τ serviceId (drain.step σ outcome).2
  have hleft := leaves_of_apply h
  have hdrains : τ.drains = σ.drains := by
    rw [hleft.drains]
    apply drains_eq effect_drain.2
  have hnext : (drain.step σ outcome).2 ≠ some .stop := fun h => holds_drain_next h rfl
  have hid : drain.serviceId = serviceId := Table.key_of_find? hdrain
  rw [mem_held, hservices, hrequests, hleft.services, hleft.requests, named_drain,
    drains_setStage hnext, hdrains, mem_holdersBesideDrain, hid]

/-- A step of a drain leaks nothing exactly when everything that it lets go of, and that is
still running, is held beside it. -/
theorem noneLeaked_drain (hnone : σ.NoneLeaked) (hdrain : σ.drains.find? serviceId = some drain)
    (h : (drain.step σ outcome).1.apply σ = some τ) :
  (τ.setStage serviceId (drain.step σ outcome).2).NoneLeaked
    ↔ ∀ r ∈ drain.releases σ, r ∈ drain.runningAfter σ outcome →
      r ∈ σ.holdersBesideDrain drain
  := by
  obtain ⟨-, hlive, -⟩ := setStage_rest τ serviceId (drain.step σ outcome).2
  have hleft := leaves_of_apply h
  rw [ServiceSystem.NoneLeaked, hlive, ← running_drain,
    Custody.accounted_step (drain.releases σ) hnone]
  · simp only [mem_held_drain hdrain h, hleft.live]
  · intro r hr
    rcases mem_running ((hleft.live r).mp hr) with hlive | hlaunch
    · exact .inl hlive
    · cases effect_drain.1 r hlaunch
  · intro r hr
    rw [mem_held_drain hdrain h, mem_holdersBesideDrain]
    rcases mem_held.mp hr with ⟨row, hrow, hr⟩ | ⟨other, hother, hr⟩ | hrequest
    · by_cases hwrites : drain.stage = .write ∧ row.kind = drain.record.kind
      · right
        rw [Drain.releases, hwrites.1, ← hwrites.2, Option.mem_toList, ServiceSystem.pointed,
          Table.find?_of_mem hrow]
        apply hr
      · exact .inl (.inl ⟨row, hrow, hwrites, hr⟩)
    · by_cases hid : other.serviceId = drain.serviceId
      · have hsame : other = drain := by
          have hfound := Table.find?_of_mem hother
          rw [hid, Table.key_of_find? hdrain, hdrain] at hfound
          apply (Option.some.inj hfound).symm
        subst hsame
        right
        rw [Drain.holds] at hr
        rw [Drain.releases]
        split at hr
        case h_1 => apply hr
        case h_2 => cases hr
        case h_3 => cases hr
      · exact .inl (.inr (.inl ⟨other, hother, hid, hr⟩))
    · exact .inl (.inr (.inr hrequest))

end Drains

/-! ### Names -/

/-- What is left between dashes does not begin with one. -/
theorem stripDashes_head {chars rest : List Char} {c : Char} (h : stripDashes chars = c :: rest) :
  c ≠ '-'
  := by
  have hprefix : (c :: rest) <+: chars.dropWhile (fun c => c = '-') := by
    rw [← h]
    apply List.rdropWhile_prefix
  obtain ⟨tail, htail⟩ := hprefix
  have hhead := List.head?_dropWhile_not (fun c => decide (c = '-')) chars
  rw [← htail] at hhead
  simpa using hhead

/-- Something is left of a text that is not all dashes. -/
theorem stripDashes_ne_nil {chars : List Char} {c : Char} (hc : c ∈ chars) (hdash : c ≠ '-') :
  stripDashes chars ≠ []
  := by
  intro h
  rw [stripDashes, List.rdropWhile_eq_nil_iff] at h
  cases hdrop : chars.dropWhile (fun c => decide (c = '-')) with
  | nil =>
      rw [List.dropWhile_eq_nil_iff] at hdrop
      apply hdash
      simpa using hdrop c hc
  | cons d rest =>
      have hhead := List.head?_dropWhile_not (fun c => decide (c = '-')) chars
      rw [hdrop] at hhead h
      have hd := h d List.mem_cons_self
      simp_all

/-- The name of a Kubernetes object begins with something other than a dash. -/
theorem kubernetesName_head (settings : ApiSettings) (value : String) :
  ∃ c rest, (kubernetesName settings value).toList = c :: rest ∧ c ≠ '-'
  := by
  rw [kubernetesName]
  split
  · exact ⟨'g', "oblin-worker".toList, rfl, by decide⟩
  · rename_i hname
    cases hstrip : stripDashes ((collapseDashes ((settings.lower value).toList.map
        (fun c => if settings.isalnum c then c else '-'))).take 63) with
    | nil =>
        rw [hstrip] at hname
        cases hname rfl
    | cons c rest =>
        rw [String.toList_ofList]
        exact ⟨c, rest, rfl, stripDashes_head hstrip⟩

/-- A managed runtime has a name. -/
theorem notebookServiceRuntimeName_ne_empty (settings : ApiSettings) (kind sourceHash : String)
    (suffix : Option String) :
  notebookServiceRuntimeName settings kind sourceHash suffix ≠ ""
  := by
  have hofList : ∀ {chars : List Char}, chars ≠ [] → String.ofList chars ≠ "" := by
    intro chars hchars h
    apply hchars
    simpa using h
  cases suffix with
  | none =>
      apply hofList
      obtain ⟨c, rest, hname, hdash⟩ := kubernetesName_head settings
        ("gk-nbsvc-" ++ kind ++ "-" ++ String.ofList (sourceHash.toList.take 12))
      rw [hname]
      apply stripDashes_ne_nil (c := c) _ hdash
      simp
  | some suffix =>
      apply hofList
      obtain ⟨c, rest, hname, hdash⟩ := kubernetesName_head settings suffix
      rw [hname]
      apply stripDashes_ne_nil (c := c) _ hdash
      simp

/-! ### What requests know -/

/-- A backend that runs a service has a name. -/
theorem backend_of_proof {runtime : Runtime} {stage : StartStage} {outcome : CommandOutcome}
    (h : startResult config runtime stage outcome = .proof) :
  runtime.backend ≠ ""
  := by
  intro hempty
  have hnone : serviceBackend "" = none := by decide
  rw [startResult, hempty, hnone] at h
  cases h

/-- A start that begins knows its runtime. -/
theorem sound_startManaged (config : ServiceConfig) (purpose : StartPurpose)
    (record : NotebookServiceRecord) (suffix : Option String) :
  (startManaged config purpose record suffix).Sound
  := ⟨rfl, notebookServiceRuntimeName_ne_empty _ _ _ _⟩

/-- The search for the replaced service knows the runtime that it ends with. -/
theorem sound_routeNext (config : ServiceConfig) (services : Table NotebookServiceRecord.kind)
    (token : String) (record : NotebookServiceRecord) (published : List String) :
  (routeNext config services token record published).Sound
  := by
  cases published with
  | nil => apply sound_startManaged
  | cons kind published =>
      rw [routeNext]
      split
      · trivial
      · split <;> trivial

/-- What a request knows of its runtime it still knows after a step. -/
theorem ServicePhase.Sound.step (h : phase.Sound)
    (hnext : (phase.step config σ input).2 = some next) :
  next.Sound
  := by
  cases phase with
  | launching purpose record runtime stage =>
      simp only [ServicePhase.step] at hnext
      cases hresult : startResult config runtime stage input.outcome with
      | next stage' =>
          rw [hresult] at hnext
          obtain rfl := Option.some.inj hnext
          apply h
      | proof =>
          rw [hresult] at hnext
          obtain rfl := Option.some.inj hnext
          have hnameable : runtime.Nameable record.kind :=
            ⟨h.1, backend_of_proof hresult, h.2⟩
          cases purpose with
          | validate => trivial
          | start => apply hnameable
          | route previous => apply hnameable
      | error =>
          rw [hresult] at hnext
          cases purpose <;> cases hnext <;> trivial
      | raised =>
          rw [hresult] at hnext
          cases hnext
  | declare principal projectId request =>
      simp only [ServicePhase.step] at hnext
      split at hnext <;> cases hnext
      trivial
  | read access kind operation =>
      simp only [ServicePhase.step] at hnext
      split at hnext <;> cases hnext
      cases operation with
      | validate => apply sound_startManaged
      | start => trivial
      | stop => trivial
      | route published => trivial
  | validateStop kind runtime =>
      simp only [ServicePhase.step] at hnext
      split at hnext <;> cases hnext
      trivial
  | restartMark record =>
      cases hnext
      cases record.runtime with
      | none => apply sound_startManaged
      | some old => trivial
  | restartStop record old =>
      simp only [ServicePhase.step] at hnext
      split at hnext <;> cases hnext
      trivial
  | restartClear record =>
      cases hnext
      apply sound_startManaged
  | startRegister record runtime =>
      cases hnext
      apply h
  | startPoint kind runtime serviceId =>
      simp only [ServicePhase.step] at hnext
      split at hnext <;> cases hnext
      apply h
  | startProbe kind runtime serviceId =>
      simp only [ServicePhase.step] at hnext
      split at hnext
      · cases hnext
      · dsimp only at hnext
        split at hnext <;> cases hnext
        apply h
  | startUndo kind runtime serviceId =>
      simp only [ServicePhase.step] at hnext
      split at hnext <;> cases hnext
      apply h
  | stopRuntime record =>
      simp only [ServicePhase.step] at hnext
      split at hnext
      · cases hnext
        trivial
      · dsimp only at hnext
        split at hnext <;> cases hnext
        trivial
  | stopMark record =>
      cases hnext
      trivial
  | routeFind record published =>
      cases hnext
      apply sound_routeNext
  | routeService record candidate serviceId published =>
      cases hnext
      split
      · apply sound_startManaged
      · trivial
  | routeRegister record runtime previous =>
      cases hnext
      apply h
  | routeProbe kind runtime serviceId previous =>
      simp only [ServicePhase.step] at hnext
      split at hnext <;> cases hnext
      split
      · apply h
      · trivial
  | routePoint kind runtime serviceId previous =>
      simp only [ServicePhase.step] at hnext
      split at hnext
      · obtain ⟨previous, -, rfl⟩ := Option.map_eq_some_iff.mp hnext
        trivial
      · cases hnext
  | routeMark previous =>
      cases hnext
      trivial
  | save _ _ | validateWrite _ _ | startFailed _ | startUndoWrite _ _ _ | stopWrite _
  | routeUndo _ _ | routeDrain _ => cases hnext

/-- A row whose service runs has an active service after the effect. -/
def ServiceEffect.Valid : ServiceEffect → Prop
  | .save record => record.runtimeStatus = "running" → record.activeServiceId.isSome = true
  | .setRuntime _ runtime =>
      runtime.runtimeStatus = "running" → runtime.activeServiceId.isSome = true
  | _ => True

/-- Steps of requests are valid. -/
theorem valid_step :
  (phase.step config σ input).1.Valid
  := by
  cases hwrites : phase.writes with
  | none =>
      rcases effect_of_writes_none config σ input hwrites with
        hneutral | ⟨_, _, _, rfl, hlaunch⟩ | ⟨previous, rfl⟩
      · generalize (phase.step config σ input).1 = effect at hneutral
        cases effect <;> trivial
      · rw [hlaunch]
        trivial
      · trivial
  | some kind =>
      cases phase with
      | save projectId request =>
          intro hrunning
          exact absurd (show "declared" = "running" from hrunning) (by decide)
      | validateWrite kind ok =>
          intro hrunning
          cases ok with
          | false => exact absurd (show "failed" = "running" from hrunning) (by decide)
          | true => exact absurd (show "validated" = "running" from hrunning) (by decide)
      | restartClear record =>
          intro hrunning
          exact absurd (show "stopped" = "running" from hrunning) (by decide)
      | startFailed kind =>
          intro hrunning
          exact absurd (show "failed" = "running" from hrunning) (by decide)
      | stopWrite kind =>
          intro hrunning
          exact absurd (show "stopped" = "running" from hrunning) (by decide)
      | startPoint _ _ _ => exact fun _ => rfl
      | startUndoWrite _ _ _ => exact fun _ => rfl
      | routePoint _ _ _ _ => exact fun _ => rfl
      | _ => cases hwrites

/-- Steps of drains are valid. -/
theorem valid_drain {outcome : CommandOutcome} {drain : Drain} :
  (drain.step σ outcome).1.Valid
  := by
  rw [Drain.step]
  split
  · split
    · trivial
    · rw [stopEffect]
      split <;> trivial
  · trivial
  · intro hrunning
    exact absurd (show "stopped" = "running" from hrunning) (by decide)

/-! ### Runs -/

/-- What holds in every state: requests know their runtimes, and a service that runs has an
active long service. -/
structure ServiceSystem.Sound (σ : ServiceSystem) : Prop where
  phases : ∀ request ∈ σ.requests.rows, request.phase.Sound
  running : ∀ row ∈ σ.services.rows, row.runtimeStatus = "running" →
    row.activeServiceId.isSome = true

/-- Nothing runs at first. -/
theorem sound_init :
  ServiceSystem.init.Sound
  := by
  constructor
  · intro request hrequest
    cases hrequest
  · intro row hrow
    cases hrow

/-- A valid effect keeps what holds in every state. -/
theorem ServiceSystem.Sound.apply {effect : ServiceEffect} (hσ : σ.Sound) (hvalid : effect.Valid)
    (h : effect.apply σ = some τ) :
  τ.Sound
  := by
  constructor
  case phases =>
    rw [(leaves_of_apply h).requests]
    apply hσ.phases
  case running =>
    rw [(leaves_of_apply h).services]
    cases effect with
    | save record =>
        intro row hrow
        rcases Table.mem_upsert.mp hrow with rfl | ⟨hrow, -⟩
        · apply hvalid
        · apply hσ.running row hrow
    | setRuntime kind runtime =>
        intro row hrow
        simp only [ServiceEffect.services, updateNotebookServiceRuntime, Table.mem_update] at hrow
        obtain ⟨old, hold, rfl⟩ := hrow
        split
        · apply hvalid
        · apply hσ.running old hold
    | nothing | saveLongService _ | probeLongService _ _ _ | markLongService _ _ | launch _
    | remove _ | drain _ => apply hσ.running

/-- A request that goes on to a phase that knows its runtime keeps what holds. -/
theorem ServiceSystem.Sound.setPhase (hσ : σ.Sound) {requestId : Id}
    {next : Option ServicePhase} (hnext : ∀ phase, next = some phase → phase.Sound) :
  (σ.setPhase requestId next).Sound
  := by
  constructor
  case phases =>
    cases next with
    | none =>
        intro request hrequest
        apply hσ.phases request (Table.mem_delete.mp hrequest).1
    | some phase =>
        intro request hrequest
        simp only [ServiceSystem.setPhase, Table.mem_update] at hrequest
        obtain ⟨old, hold, rfl⟩ := hrequest
        split
        · apply hnext phase rfl
        · apply hσ.phases old hold
  case running =>
    rw [(setPhase_rest _ requestId next).1]
    apply hσ.running

/-- A request that comes in knows nothing yet. -/
theorem sound_openService {settings : ApiSettings} {call : ServiceCall}
    (h : openService settings call = .ok phase) :
  phase.Sound
  := by
  cases call with
  | create principal request =>
      obtain ⟨_, -, h⟩ := Except.bind_eq_ok.mp h
      obtain ⟨_, -, h⟩ := Except.bind_eq_ok.mp h
      obtain ⟨_, -, h⟩ := Except.bind_eq_ok.mp h
      cases h
      trivial
  | validate _ _ | start _ _ | stop _ _ | startRepository _ _ _ _ | stopRepository _ _ _ =>
      obtain ⟨_, -, h⟩ := Except.bind_eq_ok.mp h
      cases h
      trivial

/-- What holds in every state is kept by every step. -/
theorem ServiceSystem.Sound.step {a : ServiceAction} (hσ : σ.Sound)
    (h : serviceStep config σ a = some τ) :
  τ.Sound
  := by
  cases serviceStep_cases h with
  | refuse => apply hσ
  | receive hopen hinsert =>
      constructor
      case phases =>
        intro request hrequest
        rw [Table.rows_insert? hinsert] at hrequest
        rcases List.mem_append.mp hrequest with hrequest | hrequest
        · apply hσ.phases request hrequest
        · obtain rfl := List.mem_singleton.mp hrequest
          apply sound_openService hopen
      case running => apply hσ.running
  | advance hrequest heffect =>
      apply (hσ.apply valid_step heffect).setPhase
      intro next hnext
      apply (hσ.phases _ (Table.mem_of_find? hrequest)).step hnext
  | @retire serviceId outcome drain υ hdrain heffect =>
      have hυ := hσ.apply valid_drain heffect
      obtain ⟨hservices, -, hrequests⟩ := setStage_rest υ serviceId (drain.step σ outcome).2
      constructor
      · rw [hrequests]
        apply hυ.phases
      · rw [hservices]
        apply hυ.running
  | @probe serviceId probedAt statusCode _ heffect =>
      have hvalid : ServiceEffect.Valid (.probeLongService serviceId probedAt statusCode) := trivial
      apply hσ.apply hvalid heffect
  | @mark serviceId status _ heffect =>
      have hvalid : ServiceEffect.Valid (.markLongService serviceId status) := trivial
      apply hσ.apply hvalid heffect

/-- A step of a validation changes no row before it writes its outcome. -/
theorem writes_of_validates {kind : String} (h : phase.validates = some kind) :
  phase.writes = none ∨ ∃ ok, phase = .validateWrite kind ok
  := by
  cases phase with
  | validateWrite kind' ok =>
      obtain rfl := Option.some.inj h
      exact .inr ⟨ok, rfl⟩
  | read _ _ _ | launching _ _ _ _ | validateStop _ _ => exact .inl rfl
  | _ => cases h

/-- A step of a validation leaves the columns of a service that runs as they are exactly when
it does not write its outcome over one. -/
theorem validationKeeps_iff {requestId : Id} {request : ServiceRequest} (hσ : σ.Sound)
    (hrequest : σ.requests.find? requestId = some request)
    (h : (request.phase.step config σ input).1.apply σ = some τ) :
  ValidationKeeps σ (.advance requestId input)
      (τ.setPhase requestId (request.phase.step config σ input).2)
    ↔ request.phase.validatesIdle σ = true
  := by
  have hservices : (τ.setPhase requestId (request.phase.step config σ input).2).services
      = (request.phase.step config σ input).1.services σ.services := by
    rw [(setPhase_rest _ requestId _).1, (leaves_of_apply h).services]
  constructor
  · intro hkeeps
    cases hphase : request.phase with
    | validateWrite kind ok =>
        rw [ServicePhase.validatesIdle, Option.all_eq_true]
        intro row hrow
        rw [decide_eq_true_iff]
        intro hrunning
        obtain ⟨row', hrow', -, -, hactive⟩ :=
          hkeeps request kind row hrequest (by rw [hphase]; rfl) hrow hrunning
        rw [hservices, hphase] at hrow'
        simp only [ServicePhase.step, ServiceEffect.services, updateNotebookServiceRuntime,
          Table.find?_update, hrow, Option.map_some, Table.key_of_find? hrow, decide_true,
          if_true, Option.some.injEq] at hrow'
        have hsome := hσ.running row (Table.mem_of_find? hrow) hrunning
        rw [← hactive, ← hrow'] at hsome
        cases hsome
    | _ => rfl
  · intro hidle request' kind row hrequest' hvalidates hrow hrunning
    obtain rfl := Option.some.inj (hrequest.symm.trans hrequest')
    rcases writes_of_validates hvalidates with hwrites | ⟨ok, hphase⟩
    · use row
      rw [hservices, (services_of_writes_none hwrites σ.services).1]
      exact ⟨hrow, rfl, rfl, rfl⟩
    · rw [hphase, ServicePhase.validatesIdle, hrow] at hidle
      simp [hrunning] at hidle

/-- A step leaks no runtime and keeps the columns of a validated service that runs, exactly
under the condition on steps. -/
theorem keepsRuntimes_iff {a : ServiceAction} (hσ : σ.Sound) (hnone : σ.NoneLeaked)
    (h : serviceStep config σ a = some τ) :
  τ.NoneLeaked ∧ ValidationKeeps σ a τ ↔ keepsRuntimes config σ a = true
  := by
  cases serviceStep_cases h with
  | refuse => simpa [keepsRuntimes, ValidationKeeps] using hnone
  | @receive requestId call phase requests hopen hinsert =>
      have hτ : ServiceSystem.NoneLeaked { σ with requests := requests } := by
        intro r hr
        rw [mem_held, Table.rows_insert? hinsert]
        rcases mem_held.mp (hnone r hr) with hrow | hdrain | ⟨request, hrequest, hheld⟩
        · exact .inl hrow
        · exact .inr (.inl hdrain)
        · exact .inr (.inr ⟨request, List.mem_append_left _ hrequest, hheld⟩)
      simp [keepsRuntimes, ValidationKeeps, hτ]
  | advance hrequest heffect =>
      have hsound := hσ.phases _ (Table.mem_of_find? hrequest)
      rw [noneLeaked_request hnone hrequest hsound heffect,
        validationKeeps_iff hσ hrequest heffect]
      simp [keepsRuntimes, hrequest, requestKeepsRuntimes, imp_iff_not_or]
  | retire hdrain heffect =>
      rw [noneLeaked_drain hnone hdrain heffect]
      simp [keepsRuntimes, hdrain, drainKeepsRuntimes, ValidationKeeps, imp_iff_not_or]
  | probe heffect | mark heffect =>
      obtain rfl := Option.some.inj heffect
      simp only [keepsRuntimes, ValidationKeeps, and_true, iff_true]
      apply hnone

/-- No runtime is leaked or lost in a run, and no validation changes the columns of a service
that runs, exactly when no step of the run lets go of a runtime that is still running and that
nobody else holds, or writes the outcome of a validation over a service that runs. -/
theorem runtimes_accounted (config : ServiceConfig) (as : List ServiceAction) :
  Transition.Along (serviceStep config) (fun σ a τ => τ.NoneLeaked ∧ ValidationKeeps σ a τ)
      ServiceSystem.init as
    ↔ Transition.Along (serviceStep config) (fun σ a _ => keepsRuntimes config σ a = true)
      ServiceSystem.init as
  := by
  have hinit : ServiceSystem.init.Sound ∧ ServiceSystem.init.NoneLeaked :=
    ⟨sound_init, Custody.accounted_nil _⟩
  constructor
  · apply Transition.along_of_invariant (I := fun σ => σ.Sound ∧ σ.NoneLeaked) _ hinit
    rintro σ a τ ⟨hσ, hnone⟩ hkept h
    exact ⟨⟨hσ.step h, hkept.1⟩, (keepsRuntimes_iff hσ hnone h).mp hkept⟩
  · apply Transition.along_of_invariant (I := fun σ => σ.Sound ∧ σ.NoneLeaked) _ hinit
    rintro σ a τ ⟨hσ, hnone⟩ hkeeps h
    have hkept := (keepsRuntimes_iff hσ hnone h).mpr hkeeps
    exact ⟨⟨hσ.step h, hkept.1⟩, hkept⟩

end Phases

/-! ### A service that is validated while it runs -/

/-- Docker without a network. -/
def dockerServices : ServiceConfig where
  settings := .sample
  backend := "docker"
  dockerNetwork := false

/-- An administrator. -/
def admin : Principal where
  userId := "root"
  role := .admin
  projectId := none

/-- The steps of a request, each as it goes when nothing fails. -/
def goOn (requestId : Id) (steps : ℕ) : List ServiceAction :=
  List.replicate steps (.advance requestId { freshId := "l1" })

/-- A service is declared and started. -/
def startedRun : List ServiceAction :=
  [.receive "c" (.create admin { kind := "svc", source := "app" })] ++ goOn "c" 2
    ++ [.receive "s" (.start admin "svc")] ++ goOn "s" 9

/-- Nothing is lost in a run that declares a service and starts it. -/
example : (Transition.runUnder (serviceStep dockerServices) (keepsRuntimes dockerServices)
    .init startedRun).any (fun σ => decide (σ.live.length = 1)) = true
  := by
  decide +kernel

/-- The service that runs is validated up to its outcome. -/
def validatingRun : List ServiceAction :=
  startedRun ++ [.receive "v" (.validate admin "svc")] ++ goOn "v" 6

/-- Writing the outcome of a validation over a service that runs makes its row forget the
runtime, which goes on running. -/
theorem validation_loses_runtime :
  ¬ ∀ (config : ServiceConfig) (as : List ServiceAction),
    Transition.Along (serviceStep config) (fun σ a τ => τ.NoneLeaked ∧ ValidationKeeps σ a τ)
      ServiceSystem.init as
  := by
  intro h
  have hleak : (Transition.run (serviceStep dockerServices) .init
      (validatingRun ++ [.advance "v" {}])).any
      (fun σ => σ.live.any (fun runtime => decide (runtime ∉ σ.held))) = true := by
    decide +kernel
  obtain ⟨τ, hrun, hlost⟩ := (Option.any_eq_true _ _).mp hleak
  obtain ⟨runtime, hlive, hheld⟩ := List.any_eq_true.mp hlost
  obtain ⟨σ, -, -, hnone, -⟩ := Transition.along_last (h dockerServices _) hrun
  apply of_decide_eq_true hheld
  apply hnone runtime hlive

end GoblinKing
