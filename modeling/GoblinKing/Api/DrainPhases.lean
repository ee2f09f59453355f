import GoblinKing.Api.WebSocketDrain

/-!
# The phases of a drain

One drain is current at a time. It waits for relays, is claimed by one task, and retires the old
runtime in this task; a claim whose task is cancelled is forgotten. The registry is in one of
these phases after every step, and only the task that has the callback can do anything.
-/

namespace GoblinKing

/-- The book of the drains, one at a time: all but the current one have finished, and those are
started that have finished and the current one when it runs. -/
structure DrainBook (current : Option ℕ) (running : Bool) (registry : DrainRegistry) : Prop where
  counted : ∀ drain, current = some drain → drain < registry.drains
  finished : ∀ drain, drain ∈ registry.finished ↔ drain < registry.drains ∧ current ≠ some drain
  started : ∀ drain, drain ∈ registry.started
    ↔ drain ∈ registry.finished ∨ running = true ∧ current = some drain
  once : registry.started.Nodup

/-- How far the current drain has got, with the task that has its callback. -/
inductive DrainPhase where
  | quiet
  | draining (drain task : ℕ)
  | claimed (drain task : ℕ)
  | retiring (drain task : ℕ)
  /-- the callback is claimed by a task that has ended -/
  | forgotten (drain : ℕ)
  deriving DecidableEq, Repr

/-- The current drain. -/
def DrainPhase.drain? : DrainPhase → Option ℕ
  | .quiet => none
  | .draining drain _ | .claimed drain _ | .retiring drain _ | .forgotten drain => some drain

/-- The task that has the callback. -/
def DrainPhase.task? : DrainPhase → Option ℕ
  | .quiet | .forgotten _ => none
  | .draining _ task | .claimed _ task | .retiring _ task => some task

/-- The callback runs. -/
def DrainPhase.running : DrainPhase → Bool
  | .retiring _ _ => true
  | _ => false

/-- The callback is forgotten. -/
def DrainPhase.isForgotten : DrainPhase → Bool
  | .forgotten _ => true
  | _ => false

/-- A task that does nothing to the registry any more. -/
def DrainTask.idle : DrainTask → Bool
  | .sleeping true | .ended => true
  | _ => false

/-- All tasks are idle, except perhaps one. -/
def IdleBut (task? : Option ℕ) (tasks : List DrainTask) : Prop :=
  ∀ index task, tasks[index]? = some task → task? ≠ some index → task.idle = true

namespace DrainRegistry

/-- The entry of the registry, and the task that has the callback, in a phase. -/
def entryIn (registry : DrainRegistry) : DrainPhase → Prop
  | .quiet => ∀ state, registry.state = some state →
      state.retire = none ∧ state.callbackStarted = false
  | .draining drain task => ∃ state, registry.state = some state
      ∧ state.retire = some drain ∧ state.callbackStarted = false
      ∧ state.timeoutTask = some task ∧ registry.tasks[task]? = some (.sleeping false)
  | .claimed drain task => ∃ state, registry.state = some state
      ∧ state.retire = some drain ∧ state.callbackStarted = true
      ∧ (registry.tasks[task]? = some (.closing drain) ∧ drain ∈ registry.timedOut
        ∨ (∃ timeoutTask, registry.tasks[task]? = some (.awaiting drain timeoutTask))
          ∧ state.connections = [])
  | .retiring drain task => ∃ state, registry.state = some state
      ∧ state.retire = some drain ∧ state.callbackStarted = true
      ∧ registry.tasks[task]? = some (.retiring drain)
      ∧ (state.connections = [] ∨ drain ∈ registry.timedOut)
  | .forgotten drain => ∃ state, registry.state = some state
      ∧ state.retire = some drain ∧ state.callbackStarted = true ∧ state.connections = []

/-- The registry is in a phase. Only the task that has the callback is not idle. -/
structure InPhase (registry : DrainRegistry) (phase : DrainPhase) : Prop where
  entry : registry.entryIn phase
  idle : IdleBut phase.task? registry.tasks
  book : DrainBook phase.drain? phase.running registry

/-- At first nothing is registered. -/
def initial : DrainRegistry := {}

variable {registry : DrainRegistry} {phase : DrainPhase}

/-! ### The book -/

/-- A drain takes effect when there is none. -/
theorem book_begin {registry' : DrainRegistry} (h : DrainBook none false registry)
    (hdrains : registry'.drains = registry.drains + 1)
    (hstarted : registry'.started = registry.started)
    (hfinished : registry'.finished = registry.finished) :
  DrainBook (some registry.drains) false registry'
  := by
  constructor
  · rintro drain ⟨⟩
    rw [hdrains]
    apply Nat.lt_succ_self
  · intro drain
    rw [hfinished, h.finished, hdrains]
    simp only [ne_eq, reduceCtorEq, not_false_eq_true, and_true, Option.some.injEq]
    omega
  · intro drain
    rw [hstarted, hfinished, h.started]
    simp
  · rw [hstarted]
    apply h.once

/-- The callback of the current drain is called. -/
theorem book_start {registry' : DrainRegistry} {drain : ℕ}
    (h : DrainBook (some drain) false registry)
    (hdrains : registry'.drains = registry.drains)
    (hstarted : registry'.started = registry.started ++ [drain])
    (hfinished : registry'.finished = registry.finished) :
  DrainBook (some drain) true registry'
  := by
  constructor
  · rw [hdrains]
    apply h.counted
  · rw [hdrains, hfinished]
    apply h.finished
  · intro other
    rw [hstarted, hfinished, List.mem_append, h.started]
    simp [eq_comm]
  · have hnew : drain ∉ registry.started := by
      rw [h.started, h.finished]
      simp
    rw [hstarted, ← List.concat_eq_append]
    apply h.once.concat hnew

/-- The callback of the current drain ends. -/
theorem book_end {registry' : DrainRegistry} {drain : ℕ}
    (h : DrainBook (some drain) true registry)
    (hdrains : registry'.drains = registry.drains)
    (hstarted : registry'.started = registry.started)
    (hfinished : registry'.finished = registry.finished ++ [drain]) :
  DrainBook none false registry'
  := by
  have hcounted := h.counted drain rfl
  constructor
  · intro other hother
    cases hother
  · intro other
    rw [hdrains, hfinished, List.mem_append, h.finished, List.mem_singleton]
    simp only [ne_eq, Option.some.injEq, reduceCtorEq, not_false_eq_true, and_true]
    omega
  · intro other
    rw [hstarted, hfinished, List.mem_append, h.started]
    simp [eq_comm]
  · rw [hstarted]
    apply h.once

/-- What the book is about stays the same. -/
theorem book_congr {registry' : DrainRegistry} {current : Option ℕ} {running : Bool}
    (h : DrainBook current running registry)
    (hdrains : registry'.drains = registry.drains)
    (hstarted : registry'.started = registry.started)
    (hfinished : registry'.finished = registry.finished) :
  DrainBook current running registry'
  := by
  constructor
  · rw [hdrains]
    apply h.counted
  · rw [hdrains, hfinished]
    apply h.finished
  · rw [hstarted, hfinished]
    apply h.started
  · rw [hstarted]
    apply h.once

/-! ### Tasks -/

/-- A new task is the only one that is not idle. -/
theorem idleBut_concat {tasks : List DrainTask} (h : IdleBut none tasks) (task : DrainTask) :
  IdleBut (some tasks.length) (tasks ++ [task])
  := by
  intro index found hfound hother
  rw [List.getElem?_append] at hfound
  split at hfound
  case isTrue =>
    apply h index found hfound
    rintro ⟨⟩
  case isFalse hle =>
    obtain ⟨hlt, -⟩ := List.getElem?_eq_some_iff.mp hfound
    rw [List.length_singleton] at hlt
    cases hother (congrArg some (by omega))

/-- A task that ends is idle. -/
theorem idleBut_ended {task? : Option ℕ} {tasks : List DrainTask} (h : IdleBut task? tasks)
    (task : ℕ) :
  IdleBut task? (tasks.set task .ended)
  := by
  intro index found hfound hother
  rw [List.getElem?_set] at hfound
  split at hfound
  case isTrue =>
    split at hfound
    case isTrue =>
      rw [← Option.some.inj hfound]
      rfl
    case isFalse => cases hfound
  case isFalse => apply h index found hfound hother

/-- The task that is not idle is suspended elsewhere, or is made idle. -/
theorem idleBut_set {tasks : List DrainTask} {task : ℕ} (h : IdleBut (some task) tasks)
    {place : DrainTask} {task? : Option ℕ} (hplace : task? ≠ some task → place.idle = true) :
  IdleBut task? (tasks.set task place)
  := by
  intro index found hfound hother
  rw [List.getElem?_set] at hfound
  split at hfound
  case isTrue heq =>
    subst heq
    split at hfound
    case isTrue =>
      obtain rfl := Option.some.inj hfound
      apply hplace hother
    case isFalse => cases hfound
  case isFalse hne =>
    apply h index found hfound
    intro heq
    apply hne (Option.some.inj heq)

/-- Another task stays where it is. -/
theorem getElem?_set_other {tasks : List DrainTask} {task other : ℕ} {old found : DrainTask}
    (hold : tasks[task]? = some old) (h : tasks[other]? = some found) (hne : found ≠ old)
    (place : DrainTask) :
  (tasks.set task place)[other]? = some found
  := by
  rw [List.getElem?_set_ne, h]
  rintro rfl
  apply hne (Option.some.inj (h.symm.trans hold))

/-- What a task does after it is suspended elsewhere. -/
theorem getElem?_set_self {tasks : List DrainTask} {task : ℕ} {old : DrainTask}
    (h : tasks[task]? = some old) (place : DrainTask) :
  (tasks.set task place)[task]? = some place
  := by
  obtain ⟨hlt, -⟩ := List.getElem?_eq_some_iff.mp h
  rw [List.getElem?_set, if_pos rfl, if_pos hlt]

/-! ### The calls -/

/-- The phase stays when only the entry changes. -/
theorem InPhase.withEntry (h : registry.InPhase phase) {registry' : DrainRegistry}
    (hentry : registry'.entryIn phase) (htasks : registry'.tasks = registry.tasks)
    (hdrains : registry'.drains = registry.drains)
    (hstarted : registry'.started = registry.started)
    (hfinished : registry'.finished = registry.finished) :
  registry'.InPhase phase
  := by
  refine ⟨hentry, ?_, book_congr h.book hdrains hstarted hfinished⟩
  rw [htasks]
  apply h.idle

/-- Outside the quiet phase there is an entry with a callback. -/
theorem InPhase.entry_retire (h : registry.InPhase phase) {drain : ℕ}
    (hdrain : phase.drain? = some drain) :
  ∃ state, registry.state = some state ∧ state.retire = some drain
  := by
  cases phase with
  | quiet => cases hdrain
  | draining _ _ | claimed _ _ | retiring _ _ | forgotten _ =>
      obtain ⟨state, hstate, hretire, -⟩ := h.entry
      cases hdrain
      exact ⟨state, hstate, hretire⟩

/-- A relay that registers while there is a callback changes nothing. -/
theorem register_of_retire {state : DrainState} {drain : ℕ} (hstate : registry.state = some state)
    (hretire : state.retire = some drain) (websocket : WebSocket) :
  registry.register websocket = (registry, false)
  := by
  cases registry
  subst hstate
  simp [register, hretire]

/-- A relay is only accepted in the quiet phase. -/
theorem InPhase.register_accepts (h : registry.InPhase phase) {websocket : WebSocket}
    (haccepts : (registry.register websocket).2 = true) :
  phase.drain? = none
  := by
  cases hdrain : phase.drain? with
  | none => rfl
  | some drain =>
      obtain ⟨state, hstate, hretire⟩ := h.entry_retire hdrain
      rw [register_of_retire hstate hretire] at haccepts
      cases haccepts

/-- There is no drain only in the quiet phase. -/
theorem drain?_eq_none : phase.drain? = none ↔ phase = .quiet
  := by
  cases phase <;> simp [DrainPhase.drain?]

/-- Without a drain the entry has no callback. -/
theorem InPhase.entry_quiet (h : registry.InPhase .quiet) :
  (registry.state.getD {}).retire = none ∧ (registry.state.getD {}).callbackStarted = false
  := by
  cases hstate : registry.state with
  | none => exact ⟨rfl, rfl⟩
  | some state => apply h.entry state hstate

/-- A relay that registers leaves the phase as it is. -/
theorem InPhase.register (h : registry.InPhase phase) (websocket : WebSocket) :
  (registry.register websocket).1.InPhase phase
  := by
  cases hdrain : phase.drain? with
  | none =>
      obtain rfl := drain?_eq_none.mp hdrain
      rw [DrainRegistry.register, if_neg (by simp [h.entry_quiet.1])]
      refine h.withEntry ?_ rfl rfl rfl rfl
      rintro state ⟨⟩
      apply h.entry_quiet
  | some drain =>
      obtain ⟨state, hstate, hretire⟩ := h.entry_retire hdrain
      rw [register_of_retire hstate hretire]
      apply h

/-- What an unregister does when the callback is claimed, or relays remain. -/
theorem unregister_keeps {state : DrainState} {drain : ℕ} {websocket : WebSocket}
    (hstate : registry.state = some state) (hretire : state.retire = some drain)
    (hkeeps : state.callbackStarted = true
      ∨ state.connections.filter (· ≠ websocket) ≠ []) :
  registry.unregister websocket = { registry with
    relays := registry.relays.filter (· ≠ websocket)
    state := some { state with connections := state.connections.filter (· ≠ websocket) } }
  := by
  rw [unregister]
  simp only [hstate]
  rw [if_neg (by simp [hretire]), if_neg]
  rintro ⟨hempty, hstarted⟩
  rcases hkeeps with hkeeps | hkeeps
  · apply hstarted hkeeps
  · apply hkeeps (List.isEmpty_iff.mp hempty)

/-- The last relay that unregisters claims the callback and cancels the timeout task. -/
theorem unregister_claims {state : DrainState} {drain task : ℕ} {websocket : WebSocket}
    (hstate : registry.state = some state) (hretire : state.retire = some drain)
    (hstarted : state.callbackStarted = false) (htimeout : state.timeoutTask = some task)
    (htask : registry.tasks[task]? = some (.sleeping false))
    (hempty : state.connections.filter (· ≠ websocket) = []) :
  registry.unregister websocket = (({ registry with
    relays := registry.relays.filter (· ≠ websocket)
    state := some ⟨[], some drain, true, some task⟩ }).suspend task (.sleeping true)).spawn
      (.awaiting drain task)
  := by
  rw [unregister]
  simp only [hstate, hempty, hretire, htimeout, hstarted]
  simp [cancelTask, htask]

/-- A relay that unregisters from an entry without a callback leaves such an entry, or none. -/
theorem InPhase.unregister_quiet (h : registry.InPhase .quiet) (websocket : WebSocket) :
  (registry.unregister websocket).InPhase .quiet
    ∧ (registry.unregister websocket).started = registry.started
  := by
  rw [unregister]
  dsimp only
  split
  case h_1 hstate =>
    constructor
    · refine h.withEntry ?_ rfl rfl rfl rfl
      intro state
      simp only [hstate]
      rintro ⟨⟩
    · rfl
  case h_2 state hstate =>
    obtain ⟨hretire, hstarted⟩ := h.entry state hstate
    split
    case isTrue =>
      constructor
      · refine h.withEntry ?_ rfl rfl rfl rfl
        rintro state ⟨⟩
      · rfl
    case isFalse hremain =>
      rw [if_neg (fun hempty => hremain ⟨hempty.1, by simp [hretire]⟩)]
      constructor
      · refine h.withEntry ?_ rfl rfl rfl rfl
        rintro state ⟨⟩
        exact ⟨hretire, hstarted⟩
      · rfl

/-- An entry whose callback is claimed keeps its phase when relays unregister. -/
theorem InPhase.unregister_claimed (h : registry.InPhase phase) {state : DrainState} {drain : ℕ}
    (hdrain : phase.drain? = some drain) (hstate : registry.state = some state)
    (hretire : state.retire = some drain) (hstarted : state.callbackStarted = true)
    (websocket : WebSocket) :
  (registry.unregister websocket).InPhase phase
    ∧ (registry.unregister websocket).started = registry.started
  := by
  rw [unregister_keeps hstate hretire (.inl hstarted)]
  constructor
  · refine h.withEntry ?_ rfl rfl rfl rfl
    have hentry := h.entry
    cases phase with
    | quiet => cases hdrain
    | draining _ _ =>
        obtain ⟨_, hother, -, hnot, -⟩ := hentry
        obtain rfl := Option.some.inj (hstate.symm.trans hother)
        rw [hstarted] at hnot
        cases hnot
    | claimed _ _ =>
        obtain ⟨_, hother, hretire, -, htask⟩ := hentry
        obtain rfl := Option.some.inj (hstate.symm.trans hother)
        refine ⟨_, rfl, hretire, hstarted, htask.imp_right ?_⟩
        rintro ⟨hawaiting, hempty⟩
        exact ⟨hawaiting, by simp [hempty]⟩
    | retiring _ _ =>
        obtain ⟨_, hother, hretire, -, htask, hremain⟩ := hentry
        obtain rfl := Option.some.inj (hstate.symm.trans hother)
        refine ⟨_, rfl, hretire, hstarted, htask, hremain.imp_left ?_⟩
        intro hempty
        simp [hempty]
    | forgotten _ =>
        obtain ⟨_, hother, hretire, -, hempty⟩ := hentry
        obtain rfl := Option.some.inj (hstate.symm.trans hother)
        exact ⟨_, rfl, hretire, hstarted, by simp [hempty]⟩
  · rfl

/-- The last relay that unregisters while a drain waits claims the callback. -/
theorem InPhase.unregister_draining {drain task : ℕ} (h : registry.InPhase (.draining drain task))
    (websocket : WebSocket) :
  ∃ phase', (registry.unregister websocket).InPhase phase'
    ∧ (registry.unregister websocket).started = registry.started
    ∧ phase'.isForgotten = false
  := by
  obtain ⟨state, hstate, hretire, hstarted, htimeout, htask⟩ := h.entry
  by_cases hempty : state.connections.filter (· ≠ websocket) = []
  · rw [unregister_claims hstate hretire hstarted htimeout htask hempty]
    use .claimed drain registry.tasks.length
    refine ⟨⟨?_, ?_, ?_⟩, rfl, rfl⟩
    · refine ⟨_, rfl, rfl, rfl, .inr ⟨⟨task, ?_⟩, rfl⟩⟩
      rw [← List.length_set]
      exact List.getElem?_concat_length
    · have hcancelled : IdleBut none (registry.tasks.set task (.sleeping true)) :=
        idleBut_set h.idle (fun _ => rfl)
      have hclaimed := idleBut_concat hcancelled (.awaiting drain task)
      rw [List.length_set] at hclaimed
      exact hclaimed
    · exact book_congr h.book rfl rfl rfl
  · rw [unregister_keeps hstate hretire (.inr hempty)]
    use .draining drain task
    refine ⟨?_, rfl, rfl⟩
    refine h.withEntry ?_ rfl rfl rfl rfl
    exact ⟨_, rfl, hretire, hstarted, htimeout, htask⟩

/-- A drain takes effect in the quiet phase: it starts the callback, or creates the timeout
task. -/
theorem InPhase.drain_quiet (h : registry.InPhase .quiet) :
  ∃ phase', registry.drain.InPhase phase'
    ∧ (registry.drain.started = registry.started
      ∨ ∃ drain task, phase' = .retiring drain task
        ∧ registry.drain.started = registry.started ++ [drain])
    ∧ phase'.isForgotten = false
  := by
  rw [DrainRegistry.drain, if_neg (by simp [h.entry_quiet.1])]
  dsimp only
  split
  case isTrue hempty =>
    use .retiring registry.drains registry.tasks.length
    refine ⟨⟨?_, ?_, ?_⟩, .inr ⟨_, _, rfl, rfl⟩, rfl⟩
    · refine ⟨_, rfl, rfl, rfl, ?_, .inl (List.isEmpty_iff.mp hempty)⟩
      exact List.getElem?_concat_length
    · exact idleBut_concat h.idle _
    · have hbegin : DrainBook (some registry.drains) false
          { registry with drains := registry.drains + 1 } := book_begin h.book rfl rfl rfl
      exact book_start hbegin rfl rfl rfl
  case isFalse =>
    use .draining registry.drains registry.tasks.length
    refine ⟨⟨?_, ?_, ?_⟩, .inl rfl, rfl⟩
    · refine ⟨_, rfl, rfl, h.entry_quiet.2, rfl, ?_⟩
      exact List.getElem?_concat_length
    · exact idleBut_concat h.idle _
    · exact book_begin h.book rfl rfl rfl

/-! ### The tasks -/

/-- A task that is not idle has the callback, and is where the phase says. -/
theorem InPhase.holder (h : registry.InPhase phase) {index : ℕ} {task : DrainTask}
    (htask : registry.tasks[index]? = some task) (hbusy : task.idle = false) :
  (∃ drain, phase = .draining drain index ∧ task = .sleeping false)
    ∨ (∃ drain, phase = .claimed drain index
      ∧ (task = .closing drain ∨ ∃ timeoutTask, task = .awaiting drain timeoutTask))
    ∨ ∃ drain, phase = .retiring drain index ∧ task = .retiring drain
  := by
  have hholder : phase.task? = some index := by
    by_contra hother
    rw [h.idle index task htask hother] at hbusy
    cases hbusy
  have hentry := h.entry
  cases phase with
  | quiet | forgotten _ => cases hholder
  | draining drain _ =>
      cases hholder
      obtain ⟨state, -, -, -, -, hsleeping⟩ := hentry
      obtain rfl := Option.some.inj (htask.symm.trans hsleeping)
      exact .inl ⟨drain, rfl, rfl⟩
  | claimed drain _ =>
      cases hholder
      obtain ⟨state, -, -, -, ⟨hclosing, -⟩ | ⟨⟨timeoutTask, hawaiting⟩, -⟩⟩ := hentry
      · obtain rfl := Option.some.inj (htask.symm.trans hclosing)
        exact .inr (.inl ⟨drain, rfl, .inl rfl⟩)
      · obtain rfl := Option.some.inj (htask.symm.trans hawaiting)
        exact .inr (.inl ⟨drain, rfl, .inr ⟨timeoutTask, rfl⟩⟩)
  | retiring drain _ =>
      cases hholder
      obtain ⟨state, -, -, -, hretiring, -⟩ := hentry
      obtain rfl := Option.some.inj (htask.symm.trans hretiring)
      exact .inr (.inr ⟨drain, rfl, rfl⟩)

/-- A timeout task that is not cancelled is that of the current drain, which waits. -/
theorem InPhase.of_sleeping (h : registry.InPhase phase) {task : ℕ}
    (htask : registry.tasks[task]? = some (.sleeping false)) :
  ∃ drain, phase = .draining drain task
  := by
  rcases h.holder htask rfl with ⟨drain, hphase, -⟩ | ⟨_, -, hplace | ⟨_, hplace⟩⟩ | ⟨_, -, hplace⟩
  · exact ⟨drain, hphase⟩
  all_goals cases hplace

/-- A task that closes websockets has claimed the callback of the current drain. -/
theorem InPhase.of_closing (h : registry.InPhase phase) {task drain : ℕ}
    (htask : registry.tasks[task]? = some (.closing drain)) :
  phase = .claimed drain task
  := by
  rcases h.holder htask rfl with ⟨_, -, hplace⟩ | ⟨_, rfl, hplace | ⟨_, hplace⟩⟩ | ⟨_, -, hplace⟩
  all_goals cases hplace
  rfl

/-- An unregister that awaits the timeout task has claimed the callback of the current drain. -/
theorem InPhase.of_awaiting (h : registry.InPhase phase) {task drain timeoutTask : ℕ}
    (htask : registry.tasks[task]? = some (.awaiting drain timeoutTask)) :
  phase = .claimed drain task
  := by
  rcases h.holder htask rfl with ⟨_, -, hplace⟩ | ⟨_, rfl, hplace | ⟨_, hplace⟩⟩ | ⟨_, -, hplace⟩
  all_goals cases hplace
  rfl

/-- A task in a callback runs that of the current drain. -/
theorem InPhase.of_retiring (h : registry.InPhase phase) {task drain : ℕ}
    (htask : registry.tasks[task]? = some (.retiring drain)) :
  phase = .retiring drain task
  := by
  rcases h.holder htask rfl with ⟨_, -, hplace⟩ | ⟨_, -, hplace | ⟨_, hplace⟩⟩ | ⟨_, rfl, hplace⟩
  all_goals cases hplace
  rfl

/-- A timeout task whose sleep is over claims the callback. -/
theorem InPhase.forceDrain {drain task : ℕ} (h : registry.InPhase (.draining drain task)) :
  (registry.forceDrain task).InPhase (.claimed drain task)
    ∧ (registry.forceDrain task).started = registry.started
  := by
  obtain ⟨state, hstate, hretire, hstarted, -, htask⟩ := h.entry
  rw [DrainRegistry.forceDrain]
  simp only [hstate, hstarted, hretire]
  refine ⟨⟨?_, ?_, ?_⟩, rfl⟩
  · refine ⟨_, rfl, rfl, rfl, .inl ⟨getElem?_set_self htask _, ?_⟩⟩
    apply List.mem_append_right _ (List.mem_singleton_self drain)
  · refine idleBut_set h.idle ?_
    intro hother
    cases hother rfl
  · exact book_congr h.book rfl rfl rfl

/-- The task that has claimed the callback starts it. -/
theorem InPhase.retire {drain task : ℕ} (h : registry.InPhase (.claimed drain task)) :
  (registry.retire task drain).InPhase (.retiring drain task)
    ∧ (registry.retire task drain).started = registry.started ++ [drain]
  := by
  obtain ⟨state, hstate, hretire, hstarted, hclaim⟩ := h.entry
  have htask : ∃ old, registry.tasks[task]? = some old := by
    rcases hclaim with ⟨hclosing, -⟩ | ⟨⟨_, hawaiting⟩, -⟩
    · exact ⟨_, hclosing⟩
    · exact ⟨_, hawaiting⟩
  obtain ⟨old, htask⟩ := htask
  refine ⟨⟨?_, ?_, ?_⟩, rfl⟩
  · refine ⟨state, hstate, hretire, hstarted, getElem?_set_self htask _, ?_⟩
    rcases hclaim with ⟨-, htimedOut⟩ | ⟨-, hempty⟩
    · apply Or.inr htimedOut
    · apply Or.inl hempty
  · refine idleBut_set h.idle ?_
    intro hother
    cases hother rfl
  · exact book_start h.book rfl rfl rfl

/-- When the callback ends there is no drain any more. -/
theorem InPhase.endRetire {drain task : ℕ} (h : registry.InPhase (.retiring drain task)) :
  (registry.endRetire task drain).InPhase .quiet
  := by
  refine ⟨?_, idleBut_set h.idle (fun _ => rfl), book_end h.book rfl rfl rfl⟩
  intro state hstate
  cases hstate

/-- A timeout task that was cancelled ends. -/
theorem InPhase.stop (h : registry.InPhase phase) {task : ℕ}
    (htask : registry.tasks[task]? = some (.sleeping true)) :
  (registry.suspend task .ended).InPhase phase
  := by
  refine ⟨?_, idleBut_ended h.idle task, book_congr h.book rfl rfl rfl⟩
  have hentry := h.entry
  cases phase with
  | quiet => exact hentry
  | forgotten _ => exact hentry
  | draining drain holder =>
      obtain ⟨state, hstate, hretire, hstarted, htimeout, hsleeping⟩ := hentry
      refine ⟨state, hstate, hretire, hstarted, htimeout, ?_⟩
      exact getElem?_set_other htask hsleeping (by decide) _
  | claimed drain holder =>
      obtain ⟨state, hstate, hretire, hstarted, hclaim⟩ := hentry
      refine ⟨state, hstate, hretire, hstarted, ?_⟩
      rcases hclaim with ⟨hclosing, htimedOut⟩ | ⟨⟨timeoutTask, hawaiting⟩, hempty⟩
      · exact .inl ⟨getElem?_set_other htask hclosing (by rintro ⟨⟩) _, htimedOut⟩
      · exact .inr ⟨⟨timeoutTask, getElem?_set_other htask hawaiting (by rintro ⟨⟩) _⟩, hempty⟩
  | retiring drain holder =>
      obtain ⟨state, hstate, hretire, hstarted, hretiring, hremain⟩ := hentry
      refine ⟨state, hstate, hretire, hstarted, ?_, hremain⟩
      exact getElem?_set_other htask hretiring (by rintro ⟨⟩) _

/-- When an unregister is cancelled that has claimed the callback, the drain is forgotten. -/
theorem InPhase.cancel {drain task timeoutTask : ℕ} (h : registry.InPhase phase)
    (htask : registry.tasks[task]? = some (.awaiting drain timeoutTask)) :
  (registry.suspend task .ended).InPhase (.forgotten drain)
  := by
  obtain rfl := h.of_awaiting htask
  obtain ⟨state, hstate, hretire, hstarted, ⟨hclosing, -⟩ | ⟨-, hempty⟩⟩ := h.entry
  · cases htask.symm.trans hclosing
  · refine ⟨⟨state, hstate, hretire, hstarted, hempty⟩, idleBut_set h.idle (fun _ => rfl), ?_⟩
    exact book_congr h.book rfl rfl rfl

/-! ### Steps -/

/-- A step leads to a phase in which no more has happened than that the current callback was
started. -/
def Leads (registry' : DrainRegistry) (forgets : Bool) (started : List ℕ) : Prop :=
  ∃ phase', registry'.InPhase phase' ∧ phase'.isForgotten = forgets
    ∧ (registry'.started = started
      ∨ ∃ drain task, phase' = .retiring drain task ∧ registry'.started = started ++ [drain])

/-- An unregister keeps the phase, or claims the callback. -/
theorem InPhase.unregister (h : registry.InPhase phase) (websocket : WebSocket) :
  Leads (registry.unregister websocket) phase.isForgotten registry.started
  := by
  have hentry := h.entry
  cases phase with
  | quiet =>
      obtain ⟨hphase, hstarted⟩ := h.unregister_quiet websocket
      exact ⟨_, hphase, rfl, .inl hstarted⟩
  | draining drain task =>
      obtain ⟨phase', hphase, hstarted, hremembered⟩ := h.unregister_draining websocket
      exact ⟨phase', hphase, hremembered, .inl hstarted⟩
  | claimed drain task | retiring drain task | forgotten drain =>
      obtain ⟨state, hstate, hretire, hclaimed, -⟩ := hentry
      obtain ⟨hphase, hstarted⟩ := h.unregister_claimed rfl hstate hretire hclaimed websocket
      exact ⟨_, hphase, rfl, .inl hstarted⟩

/-- A drain takes effect when there is none, and else changes nothing. -/
theorem InPhase.drain (h : registry.InPhase phase) :
  Leads registry.drain phase.isForgotten registry.started
  := by
  cases hdrain : phase.drain? with
  | none =>
      obtain rfl := drain?_eq_none.mp hdrain
      obtain ⟨phase', hphase, hstarted, hremembered⟩ := h.drain_quiet
      exact ⟨phase', hphase, hremembered, hstarted⟩
  | some drain =>
      obtain ⟨state, hstate, hretire⟩ := h.entry_retire hdrain
      have hsame : registry.drain = registry := by
        cases registry
        subst hstate
        simp [DrainRegistry.drain, hretire]
      rw [hsame]
      exact ⟨phase, h, rfl, .inl rfl⟩

/-- What a step does to the phase: a callback is forgotten exactly when an unregister is cancelled
that has claimed it. -/
theorem InPhase.step {registry' : DrainRegistry} {action : DrainAction}
    (h : registry.InPhase phase) (hstep : drainStep registry action = some registry') :
  Leads registry' (phase.isForgotten || action.cancelsClaim) registry.started
  := by
  cases action with
  | register websocket =>
      cases hstep
      refine ⟨phase, h.register websocket, by simp [DrainAction.cancelsClaim], .inl ?_⟩
      rw [DrainRegistry.register]
      split <;> rfl
  | unregister websocket =>
      cases hstep
      simpa [DrainAction.cancelsClaim] using h.unregister websocket
  | abandon websocket =>
      cases hstep
      refine ⟨phase, ?_, by simp [DrainAction.cancelsClaim], .inl rfl⟩
      refine h.withEntry ?_ rfl rfl rfl rfl
      apply h.entry
  | drain =>
      cases hstep
      simpa [DrainAction.cancelsClaim] using h.drain
  | timeout task =>
      rw [drainStep] at hstep
      split at hstep
      case h_1 htask =>
        cases hstep
        obtain ⟨drain, rfl⟩ := h.of_sleeping htask
        obtain ⟨hphase, hstarted⟩ := h.forceDrain
        exact ⟨_, hphase, rfl, .inl hstarted⟩
      case h_2 => cases hstep
  | stop task =>
      rw [drainStep] at hstep
      split at hstep
      case h_1 htask =>
        cases hstep
        exact ⟨phase, h.stop htask, by simp [DrainAction.cancelsClaim], .inl rfl⟩
      case h_2 => cases hstep
  | closed task =>
      rw [drainStep] at hstep
      split at hstep
      case h_1 drain htask =>
        cases hstep
        obtain rfl := h.of_closing htask
        obtain ⟨hphase, hstarted⟩ := h.retire
        exact ⟨_, hphase, rfl, .inr ⟨drain, task, rfl, hstarted⟩⟩
      case h_2 => cases hstep
  | resume task =>
      rw [drainStep] at hstep
      split at hstep
      case h_1 drain timeoutTask htask =>
        split at hstep
        case isTrue =>
          cases hstep
          obtain rfl := h.of_awaiting htask
          obtain ⟨hphase, hstarted⟩ := h.retire
          exact ⟨_, hphase, rfl, .inr ⟨drain, task, rfl, hstarted⟩⟩
        case isFalse => cases hstep
      case h_2 => cases hstep
  | finish task =>
      rw [drainStep] at hstep
      split at hstep
      case h_1 drain htask =>
        cases hstep
        obtain rfl := h.of_retiring htask
        exact ⟨_, h.endRetire, rfl, .inl rfl⟩
      case h_2 => cases hstep
  | cancel task =>
      rw [drainStep] at hstep
      split at hstep
      case h_1 drain timeoutTask htask =>
        cases hstep
        exact ⟨_, h.cancel htask, by simp [DrainPhase.isForgotten, DrainAction.cancelsClaim],
          .inl rfl⟩
      case h_2 => cases hstep

end DrainRegistry

end GoblinKing
