import GoblinKing.Api.DrainPhases

/-!
# Drains are safe, and may be forgotten

What the phases say about every run: a callback is started once and in time, and no relay is
accepted while a drain is current. A drain is forgotten when an unregister is cancelled that has
claimed the callback and not yet called it.
-/

namespace GoblinKing

namespace DrainRegistry

variable {registry : DrainRegistry} {phase : DrainPhase}

/-! ### Safety -/

/-- At first there is no drain. -/
theorem initial_inPhase :
  initial.InPhase .quiet
  := by
  refine ⟨?_, ?_, ?_⟩
  · rintro state ⟨⟩
  · rintro index task ⟨⟩
  · constructor
    · rintro drain ⟨⟩
    · simp [initial]
    · simp [initial, DrainPhase.running]
    · apply List.nodup_nil

/-- No relay is registered, or the timeout of the drain has fired. -/
def mayStart (registry : DrainRegistry) (drain : ℕ) : Prop :=
  drain ∈ registry.timedOut
    ∨ ∃ state, registry.state = some state ∧ state.retire = some drain ∧ state.connections = []

/-- When the last relay has unregistered, or after the timeout, the callback runs. -/
theorem InPhase.mayStart {drain task : ℕ} (h : registry.InPhase (.retiring drain task)) :
  registry.mayStart drain
  := by
  obtain ⟨state, hstate, hretire, -, -, hempty | htimedOut⟩ := h.entry
  · exact .inr ⟨state, hstate, hretire, hempty⟩
  · exact .inl htimedOut

/-- Where a relay is accepted, all drains have finished. -/
theorem InPhase.finished_of_accepts (h : registry.InPhase phase) {websocket : WebSocket}
    (haccepts : (registry.register websocket).2 = true) {drain : ℕ}
    (hdrain : drain < registry.drains) :
  drain ∈ registry.finished
  := by
  rw [h.book.finished, h.register_accepts haccepts]
  exact ⟨hdrain, by rintro ⟨⟩⟩

/-- No entry is left of a drain that has finished. -/
theorem InPhase.retire_ne (h : registry.InPhase phase) {drain : ℕ}
    (hfinished : drain ∈ registry.finished) {state : DrainState}
    (hstate : registry.state = some state) :
  state.retire ≠ some drain
  := by
  intro hretire
  obtain ⟨-, hcurrent⟩ := (h.book.finished drain).mp hfinished
  cases hdrain : phase.drain? with
  | none =>
      obtain rfl := drain?_eq_none.mp hdrain
      rw [(h.entry state hstate).1] at hretire
      cases hretire
  | some current =>
      obtain ⟨_, hother, hretire'⟩ := h.entry_retire hdrain
      obtain rfl := Option.some.inj (hstate.symm.trans hother)
      apply hcurrent
      rw [hdrain, ← hretire', hretire]

/-! ### Forgotten drains -/

end DrainRegistry

/-- A task will start the callback of a drain: a live timeout task, or one that has claimed it. -/
def DrainTask.willStart (drain : ℕ) : DrainTask → Bool
  | .sleeping cancelled => !cancelled
  | .closing claimed | .awaiting claimed _ => decide (claimed = drain)
  | .retiring _ | .ended => false

namespace DrainRegistry

variable {registry : DrainRegistry} {phase : DrainPhase}

/-- A drain took effect, its callback was not started, and nobody will start it: no task, and no
relay of its entry that will still unregister. -/
def Forgets (registry : DrainRegistry) (drain : ℕ) : Prop :=
  drain < registry.drains ∧ drain ∉ registry.started
    ∧ (∀ task ∈ registry.tasks, task.willStart drain = false)
    ∧ ∀ state, registry.state = some state → state.retire = some drain →
        ∀ websocket ∈ state.connections, websocket ∉ registry.relays

/-- An idle task starts no callback. -/
theorem willStart_of_idle {task : DrainTask} (h : task.idle = true) (drain : ℕ) :
  task.willStart drain = false
  := by
  cases task with
  | sleeping cancelled => cases cancelled <;> first | rfl | cases h
  | ended => rfl
  | closing _ | awaiting _ _ | retiring _ => cases h

/-- A drain is forgotten in the phase of this name, and in no other. -/
theorem InPhase.forgets_iff (h : registry.InPhase phase) :
  (∃ drain, registry.Forgets drain) ↔ phase.isForgotten = true
  := by
  constructor
  · rintro ⟨drain, hcounted, hnot, htasks, -⟩
    rw [h.book.started, h.book.finished] at hnot
    have hcurrent : phase.drain? = some drain := by
      by_contra hother
      apply hnot (.inl ⟨hcounted, hother⟩)
    have hentry := h.entry
    cases phase with
    | quiet => cases hcurrent
    | forgotten _ => rfl
    | draining _ _ =>
        obtain ⟨state, -, -, -, -, hsleeping⟩ := hentry
        cases htasks _ (List.mem_of_getElem? hsleeping)
    | claimed _ _ =>
        cases hcurrent
        obtain ⟨state, -, -, -, ⟨hclosing, -⟩ | ⟨⟨_, hawaiting⟩, -⟩⟩ := hentry
        · have hwill := htasks _ (List.mem_of_getElem? hclosing)
          simp [DrainTask.willStart] at hwill
        · have hwill := htasks _ (List.mem_of_getElem? hawaiting)
          simp [DrainTask.willStart] at hwill
    | retiring _ _ => cases hnot (.inr ⟨rfl, hcurrent⟩)
  · intro hforgotten
    cases phase with
    | quiet | draining _ _ | claimed _ _ | retiring _ _ => cases hforgotten
    | forgotten drain =>
        obtain ⟨state, hstate, -, -, hempty⟩ := h.entry
        refine ⟨drain, h.book.counted drain rfl, ?_, ?_, ?_⟩
        · rw [h.book.started, h.book.finished]
          simp [DrainPhase.drain?, DrainPhase.running]
        · intro task htask
          obtain ⟨index, hindex⟩ := List.getElem?_of_mem htask
          apply willStart_of_idle (h.idle index task hindex (by rintro ⟨⟩))
        · intro other hother _ websocket hwebsocket
          obtain rfl := Option.some.inj (hstate.symm.trans hother)
          rw [hempty] at hwebsocket
          cases hwebsocket

end DrainRegistry

/-- In every run, for every drain that takes effect: its callback is started at most once; it is
started when no relay is registered, or the timeout has fired; until it has finished no relay is
accepted; and then no entry is left of the drain. -/
theorem websocket_drain_safe (actions : List DrainAction) :
  Transition.Along drainStep (fun registry action registry' =>
    (∀ drain, registry'.started.count drain ≤ 1)
      ∧ (∀ drain ∈ registry'.started, drain ∉ registry.started → registry'.mayStart drain)
      ∧ (∀ websocket, action = .register websocket → (registry.register websocket).2 = true →
          ∀ drain < registry.drains, drain ∈ registry.finished)
      ∧ ∀ drain ∈ registry'.finished, ∀ state, registry'.state = some state →
          state.retire ≠ some drain) .initial actions
  := by
  apply Transition.along_of_invariant (I := fun registry => ∃ phase, registry.InPhase phase)
    (P := fun _ _ _ => True) _ ⟨_, DrainRegistry.initial_inPhase⟩ Transition.along_true
  rintro registry action registry' ⟨phase, h⟩ - hstep
  obtain ⟨phase', h', -, hstarted⟩ := h.step hstep
  refine ⟨⟨phase', h'⟩, ?_, ?_, ?_, ?_⟩
  · apply List.nodup_iff_count_le_one.mp h'.book.once
  · intro drain hdrain hnew
    rcases hstarted with hsame | ⟨current, task, rfl, hone⟩
    · rw [hsame] at hdrain
      cases hnew hdrain
    · rw [hone, List.mem_append, List.mem_singleton] at hdrain
      obtain rfl := hdrain.resolve_left hnew
      apply h'.mayStart
  · rintro websocket - haccepts drain hdrain
    apply h.finished_of_accepts haccepts hdrain
  · intro drain hdrain state hstate
    apply h'.retire_ne hdrain hstate

/-- In every run no drain is forgotten in any state that is reached, exactly when no unregister is
cancelled between its claim of the callback and the call. -/
theorem drain_remembered_iff (actions : List DrainAction) :
  Transition.Along drainStep (fun _ _ registry => ¬∃ drain, registry.Forgets drain)
      .initial actions
    ↔ Transition.Along drainStep (fun _ action _ => action.cancelsClaim = false)
      .initial actions
  := by
  have hinitial : ∃ phase, DrainRegistry.initial.InPhase phase ∧ phase.isForgotten = false :=
    ⟨_, DrainRegistry.initial_inPhase, rfl⟩
  constructor
  · apply Transition.along_of_invariant
      (I := fun registry => ∃ phase, registry.InPhase phase ∧ phase.isForgotten = false) _ hinitial
    rintro registry action registry' ⟨phase, h, hphase⟩ hforgets hstep
    obtain ⟨phase', h', hphase', -⟩ := h.step hstep
    rw [h'.forgets_iff, Bool.not_eq_true] at hforgets
    rw [hforgets, hphase, Bool.false_or] at hphase'
    exact ⟨⟨phase', h', hforgets⟩, hphase'.symm⟩
  · apply Transition.along_of_invariant
      (I := fun registry => ∃ phase, registry.InPhase phase ∧ phase.isForgotten = false) _ hinitial
    rintro registry action registry' ⟨phase, h, hphase⟩ hcancel hstep
    obtain ⟨phase', h', hphase', -⟩ := h.step hstep
    rw [hphase, hcancel, Bool.or_false] at hphase'
    exact ⟨⟨phase', h', hphase'⟩, by rw [h'.forgets_iff, hphase']; decide⟩

/-- The last relay unregisters, and is cancelled where it awaits the timeout task. -/
theorem cancelled_drain_forgotten :
  ¬∀ actions registry, Transition.run drainStep .initial actions = some registry →
    ¬∃ drain, registry.Forgets drain
  := by
  intro h
  apply h [.register 1, .drain, .unregister 1, .cancel 1] _ rfl
  use 0
  refine ⟨by decide, by decide, by decide, ?_⟩
  rintro state ⟨⟩ - websocket ⟨⟩

end GoblinKing
