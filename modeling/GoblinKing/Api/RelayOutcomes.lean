import GoblinKing.Api.WebSocketRelay

/-!
# What a relay records and returns

No run of a relay sends a message of the client that is too large. A relay audits one terminal
outcome, and returns the one that it has recorded, in the runs where the task that comes to its result
first completes in time and no result that ranks higher is returned, and where nothing raises at the
end after a result was recorded.
-/

namespace GoblinKing

/-- The task that comes to an outcome. -/
def RelayOutcome.party : RelayOutcome → RelayParty
  | .messageTooLarge | .clientClosed => .client
  | .upstreamClosed => .upstream
  | .idleTimeout => .watchdog

/-- Outcomes have different priorities. -/
theorem RelayOutcome.priority_injective :
  Function.Injective RelayOutcome.priority
  := by
  intro outcome outcome' h
  cases outcome <;> cases outcome' <;> first | rfl | cases h

namespace RelayTask

variable {task : RelayTask} {result : ServiceWebSocketProxyResult}

@[simp] theorem result?_cancel :
  task.cancel.result? = task.returned?
  := by
  cases task <;> rfl

@[simp] theorem returned?_cancel :
  task.cancel.returned? = task.returned?
  := by
  cases task <;> rfl

theorem result?_of_returned? (h : task.returned? = some result) :
  task.result? = some result
  := by
  cases task with
  | returned other => exact h
  | _ => cases h

theorem result?_of_atWork (h : task.atWork = true) :
  task.result? = none
  := by
  cases task with
  | waiting => rfl
  | sending payload => rfl
  | _ => cases h

end RelayTask

namespace Relay

variable {config : ServiceWebSocketProxyConfig} {relay relay' : Relay} {party other : RelayParty}
  {task : RelayTask} {result : ServiceWebSocketProxyResult}

/-! ### The tasks of a relay -/

theorem task_setTask :
  (relay.setTask task party).task other = if other = party then task else relay.task other
  := by
  cases party <;> cases other <;> rfl

@[simp] theorem phase_setTask : (relay.setTask task party).phase = relay.phase
  := by
  cases party <;> rfl

@[simp] theorem calls_setTask : (relay.setTask task party).calls = relay.calls
  := by
  cases party <;> rfl

@[simp] theorem recorded_setTask : (relay.setTask task party).recorded = relay.recorded
  := by
  cases party <;> rfl

@[simp] theorem sent_setTask : (relay.setTask task party).sent = relay.sent
  := by
  cases party <;> rfl

@[simp] theorem returned_setTask : (relay.setTask task party).returned = relay.returned
  := by
  cases party <;> rfl

@[simp] theorem audits_setTask : (relay.setTask task party).audits = relay.audits
  := by
  cases party <;> rfl

/-- The results of the completed tasks are what these have returned. -/
theorem mem_results :
  result ∈ relay.results ↔ ∃ party, (relay.task party).returned? = some result
  := by
  rw [results, List.mem_filterMap]
  constructor
  · rintro ⟨task, htask, hresult⟩
    simp only [List.mem_cons, List.not_mem_nil, or_false] at htask
    rcases htask with rfl | rfl | rfl
    · use .client, hresult
    · use .upstream, hresult
    · use .watchdog, hresult
  · rintro ⟨party, hresult⟩
    use relay.task party
    constructor
    · cases party <;> simp [Relay.task]
    · exact hresult

/-- The relay with the tasks cancelled that have not completed. -/
def cancelled (relay : Relay) : Relay :=
  { relay with
    client := relay.client.cancel
    upstream := relay.upstream.cancel
    watchdog := relay.watchdog.cancel }

theorem task_cancelled :
  relay.cancelled.task party = (relay.task party).cancel
  := by
  cases party <;> rfl

theorem results_cancelled :
  relay.cancelled.results = relay.results
  := by
  simp only [results, cancelled, List.filterMap_cons, RelayTask.returned?_cancel, List.filterMap_nil]

/-- The relay returns a result that ranks highest, or no task has returned one. -/
theorem collect_cases (relay : Relay) :
  (∃ result ∈ relay.results,
      (∀ other ∈ relay.results, other.outcome.priority ≤ result.outcome.priority)
      ∧ relay.collect = { relay.cancelled with phase := .leaving none, returned := some result })
    ∨ relay.results = []
      ∧ ∃ failure, relay.collect = { relay.cancelled with phase := .leaving (some failure) }
  := by
  rw [← results_cancelled]
  cases hbest : relay.cancelled.results.argmax (fun result => result.outcome.priority) with
  | some result =>
      left
      use result, List.argmax_mem hbest
      constructor
      · intro other hother
        apply List.le_of_mem_argmax (f := fun result : ServiceWebSocketProxyResult =>
          result.outcome.priority) hother hbest
      · rw [collect]
        dsimp only
        rw [cancelled] at hbest ⊢
        rw [hbest]
  | none =>
      right
      use List.argmax_eq_none.mp hbest
      rw [collect]
      dsimp only
      rw [cancelled] at hbest ⊢
      rw [hbest]
      dsimp only
      split_ifs
      · use upstreamUnavailable
      · use ⟨1011, "relay failed"⟩

/-- A relay that leaves ends with its result, or fails. -/
theorem leave_cases (relay : Relay) (failure : Option RelayFailure) (failed : Bool) :
  (failure = none ∧ failed = false ∧ relay.leave failure failed = { relay with phase := .ended })
    ∨ ((∃ raised, failure = some raised) ∨ failed = true)
      ∧ ∃ reported, relay.leave failure failed = relay.fail reported
  := by
  cases failed with
  | true => exact .inr ⟨.inr rfl, upstreamUnavailable, by cases failure <;> rfl⟩
  | false =>
      cases failure with
      | none => exact .inl ⟨rfl, rfl, rfl⟩
      | some raised => exact .inr ⟨.inl ⟨raised, rfl⟩, raised, rfl⟩

/-! ### What a step does -/

/-- The relay goes on after an action that lets it collect the results. -/
def collects (relay : Relay) : RelayAction → Bool
  | .firstCompleted => relay.allDone
  | .graceOver => true
  | _ => false

/-- What a step can do. -/
inductive Move (config : ServiceWebSocketProxyConfig) (relay : Relay) : RelayAction → Relay → Prop
    where
  | idle {a : RelayAction} : Move config relay a relay
  | refuse {error : OpeningError} (early : relay.phase = .opening) :
      Move config relay (.refused error) (relay.fail error.failure)
  | enter {a : RelayAction} {phase : RelayPhase} {activity : ℚ}
      (early : relay.phase = .opening ∨ relay.phase = .accepting) (later : phase ≠ .ended) :
      Move config relay a { relay with phase := phase, activity := activity }
  | work {a : RelayAction} {party : RelayParty} {task : RelayTask} {counters : RelayCounters}
      {activity : ℚ} {sent : List RelayPayload} (runs : relay.running = true)
      (before : (relay.task party).result? = none) (after : task.result? = none)
      (sizes : ∀ payload ∈ sent, payload ∈ relay.sent ∨ payloadSize payload ≤ config.maxMessageBytes) :
      Move config relay a ({ relay with
        counters := counters
        activity := activity
        sent := sent }.setTask task party)
  | conclude {a : RelayAction} {party : RelayParty} {outcome : RelayOutcome} {closeCode : ℤ}
      {reason : String} (runs : relay.running = true)
      (before : (relay.task party).result? = none) (own : outcome.party = party) :
      Move config relay a (relay.conclude party outcome closeCode reason)
  | close {party : RelayParty} {failed : Bool} {result : ServiceWebSocketProxyResult}
      (runs : relay.running = true) (closing : relay.task party = .closing result) :
      Move config relay (.closes party failed) (relay.closes party result failed)
  | wait (relaying : relay.phase = .relaying) (some : relay.allDone = false) :
      Move config relay .firstCompleted { relay with phase := .grace }
  | collect {a : RelayAction} (runs : relay.running = true) (collects : relay.collects a = true) :
      Move config relay a relay.collect
  | leave {failure : Option RelayFailure} {failed : Bool} (leaving : relay.phase = .leaving failure) :
      Move config relay (.leaves failed) (relay.leave failure failed)

/-- One more payload that is not too large is sent. -/
theorem sent_payload {payload : RelayPayload} (h : ¬ payloadSize payload > config.maxMessageBytes) :
  ∀ sent ∈ relay.sent ++ [payload],
    sent ∈ relay.sent ∨ payloadSize sent ≤ config.maxMessageBytes
  := by
  intro sent hsent
  rcases List.mem_append.mp hsent with hsent | hsent
  · exact .inl hsent
  · obtain rfl := List.mem_singleton.mp hsent
    exact .inr (not_lt.mp h)

/-- A message is relayed, dropped, or too large, or there will be no more. -/
theorem move_clientReceives (message : ClientMessage) {a : RelayAction}
    (hruns : relay.running = true) (hclient : relay.client = .waiting) :
  Move config relay a (relay.clientReceives config message)
  := by
  have hbefore : (relay.task .client).result? = none := by
    rw [Relay.task, hclient]
    rfl
  cases message with
  | disconnect code reason => exact .conclude hruns hbefore rfl
  | receive text bytes =>
      rw [clientReceives]
      cases hpayload : text.map RelayPayload.text <|> bytes.map RelayPayload.bytes with
      | none => exact .idle
      | some payload =>
          dsimp only
          split_ifs with hsize
          · exact .conclude hruns hbefore rfl
          · have hsend : Move config relay a
                (({ relay with sent := relay.sent ++ [payload] }).setTask (.sending payload) .client) :=
              .work hruns hbefore rfl (sent_payload hsize)
            exact hsend

/-- A task goes on without a result, and nothing more is sent to the upstream. -/
theorem move_next {a : RelayAction} {counters : RelayCounters} {activity : ℚ}
    (party : RelayParty) (task : RelayTask) (hruns : relay.running = true)
    (hbefore : (relay.task party).result? = none) (hafter : task.result? = none) :
  Move config relay a ({ relay with counters := counters, activity := activity }.setTask task party)
  := .work hruns hbefore hafter (fun _ => .inl)

/-- A step that is enabled under a condition. -/
theorem of_enabled {p : Prop} [Decidable p] {next : Relay}
    (h : (if p then some next else none) = some relay') :
  p ∧ next = relay'
  := by
  obtain ⟨hp, hnext⟩ := Option.ite_none_right_eq_some.mp h
  exact ⟨hp, Option.some.inj hnext⟩

/-- Every step is one of the moves. -/
theorem move_of_step {a : RelayAction} (h : relayStep config relay a = some relay') :
  Move config relay a relay'
  := by
  cases a with
  | refused error =>
      obtain ⟨hphase, rfl⟩ := of_enabled h
      exact .refuse hphase
  | opened =>
      obtain ⟨hphase, rfl⟩ := of_enabled h
      exact .enter (.inl hphase) (by simp)
  | accepted now =>
      obtain ⟨hphase, rfl⟩ := of_enabled h
      exact .enter (.inr hphase) (by simp)
  | notAccepted =>
      obtain ⟨hphase, rfl⟩ := of_enabled h
      exact .enter (.inr hphase) (by simp)
  | clientReceives message =>
      obtain ⟨⟨hruns, hclient⟩, rfl⟩ := of_enabled h
      exact move_clientReceives message hruns hclient
  | clientSent now =>
      rw [relayStep] at h
      split at h
      case h_1 payload hclient =>
        obtain ⟨hruns, rfl⟩ := of_enabled h
        have hnext : Move config relay (.clientSent now) (({ relay with
            counters := (relay.clientSent payload now).counters
            activity := now }).setTask .waiting .client) :=
          move_next .client .waiting hruns (by rw [task, hclient]; rfl) rfl
        exact hnext
      case h_2 => cases h
  | upstreamReceives payload =>
      obtain ⟨⟨hruns, hupstream⟩, rfl⟩ := of_enabled h
      exact move_next .upstream (.sending payload) hruns (by rw [task, hupstream]; rfl) rfl
  | upstreamSent now =>
      rw [relayStep] at h
      split at h
      case h_1 payload hupstream =>
        obtain ⟨hruns, rfl⟩ := of_enabled h
        have hnext : Move config relay (.upstreamSent now) (({ relay with
            counters := (relay.upstreamSent payload now).counters
            activity := now }).setTask .waiting .upstream) :=
          move_next .upstream .waiting hruns (by rw [task, hupstream]; rfl) rfl
        exact hnext
      case h_2 => cases h
  | upstreamCloses code reason =>
      obtain ⟨⟨hruns, hupstream⟩, rfl⟩ := of_enabled h
      exact .conclude hruns (RelayTask.result?_of_atWork hupstream) rfl
  | watchdogWakes now =>
      obtain ⟨⟨hruns, hwatchdog⟩, rfl⟩ := of_enabled h
      rw [watchdogWakes]
      split_ifs
      · exact .idle
      · exact .conclude hruns (by rw [task, hwatchdog]; rfl) rfl
  | raises party =>
      obtain ⟨⟨hruns, -, htask⟩, rfl⟩ := of_enabled h
      exact move_next party .raised hruns (RelayTask.result?_of_atWork htask) rfl
  | closes party failed =>
      rw [relayStep] at h
      split at h
      case h_1 result hclosing =>
        obtain ⟨hruns, rfl⟩ := of_enabled h
        exact .close hruns hclosing
      case h_2 => cases h
  | firstCompleted =>
      obtain ⟨⟨hphase, -⟩, rfl⟩ := of_enabled h
      split_ifs with hall
      · exact .collect (by simp [running, hphase]) hall
      · exact .wait hphase (by simpa using hall)
  | graceOver =>
      obtain ⟨hphase, rfl⟩ := of_enabled h
      exact .collect (by simp [running, hphase]) rfl
  | leaves failed =>
      rw [relayStep] at h
      split at h
      case h_1 failure hphase =>
        obtain rfl := Option.some.inj h
        exact .leave hphase
      case h_2 => cases h

/-! ### What every run keeps -/

/-- What holds of every relay. The first result is recorded, and each task has one that is its own. -/
structure Coherent (config : ServiceWebSocketProxyConfig) (relay : Relay) : Prop where
  sizes : ∀ payload ∈ relay.sent, payloadSize payload ≤ config.maxMessageBytes
  recorded : relay.recorded = true ↔ relay.calls ≠ []
  single : relay.calls.length ≤ 1
  results : ∀ party result, (relay.task party).result? = some result →
    result.outcome.party = party ∧ relay.calls ≠ []
  early : relay.phase = .opening ∨ relay.phase = .accepting → relay.calls = []
  audits : relay.phase ≠ .ended → relay.audits = relay.calls.map recordResult

/-- A relay that runs is past its beginning and before its end. -/
theorem phase_of_running (h : relay.running = true) :
  ¬ (relay.phase = .opening ∨ relay.phase = .accepting) ∧ relay.phase ≠ .ended
  := by
  rcases of_decide_eq_true h with h | h <;> rw [h] <;> decide

/-- The first result is recorded. -/
theorem finish_cases (h : Coherent config relay) (result : ServiceWebSocketProxyResult) :
  relay.calls ≠ [] ∧ relay.finish result = relay
    ∨ relay.calls = [] ∧ relay.finish result = { relay with
        recorded := true
        calls := [result]
        audits := relay.audits ++ [recordResult result] }
  := by
  rw [finish]
  split_ifs with hrecorded
  · exact .inl ⟨h.recorded.mp hrecorded, rfl⟩
  · have hcalls : relay.calls = [] := by
      by_contra hcalls
      exact hrecorded (h.recorded.mpr hcalls)
    right
    use hcalls
    rw [hcalls, List.nil_append]

/-- A relay stays coherent when a task finishes. -/
theorem Coherent.finish (h : Coherent config relay) (hruns : relay.running = true)
    (result : ServiceWebSocketProxyResult) :
  Coherent config (relay.finish result) ∧ (relay.finish result).calls ≠ []
  := by
  obtain ⟨hearly, hend⟩ := phase_of_running hruns
  rcases finish_cases h result with ⟨hcalls, heq⟩ | ⟨hcalls, heq⟩
  · rw [heq]
    exact ⟨h, hcalls⟩
  · rw [heq]
    constructor
    · exact {
        sizes := h.sizes
        recorded := by simp
        single := le_refl 1
        results := fun party other hother => ⟨(h.results party other hother).1, List.cons_ne_nil _ _⟩
        early := fun hphase => absurd hphase hearly
        audits := fun _ => by simp [h.audits hend, hcalls] }
    · exact List.cons_ne_nil _ _

/-- A relay stays coherent when a task goes on with a result of its own or with none. -/
theorem Coherent.setTask (h : Coherent config relay)
    (hresult : ∀ result, task.result? = some result →
      result.outcome.party = party ∧ relay.calls ≠ []) :
  Coherent config (relay.setTask task party)
  := by
  constructor
  · rw [sent_setTask]
    exact h.sizes
  · rw [recorded_setTask, calls_setTask]
    exact h.recorded
  · rw [calls_setTask]
    exact h.single
  · intro other result
    rw [task_setTask, calls_setTask]
    split_ifs with hother
    · subst hother
      exact hresult result
    · exact h.results other result
  · rw [phase_setTask, calls_setTask]
    exact h.early
  · rw [phase_setTask, audits_setTask, calls_setTask]
    exact h.audits

/-- A relay stays coherent when it collects the results. -/
theorem Coherent.cancelled (h : Coherent config relay) (hruns : relay.running = true)
    {phase : RelayPhase} {returned : Option ServiceWebSocketProxyResult}
    (hphase : ¬ (phase = .opening ∨ phase = .accepting)) :
  Coherent config { relay.cancelled with phase := phase, returned := returned }
  := by
  constructor
  · exact h.sizes
  · exact h.recorded
  · exact h.single
  · intro party result hresult
    have htask : (relay.cancelled.task party).result? = some result := hresult
    rw [task_cancelled, RelayTask.result?_cancel] at htask
    exact h.results party result (RelayTask.result?_of_returned? htask)
  · exact fun hearly => absurd hearly hphase
  · exact fun _ => h.audits (phase_of_running hruns).2

/-- A relay that ends is coherent. -/
theorem Coherent.ended (h : Coherent config relay) (audits : List RelayAudit) :
  Coherent config { relay with phase := .ended, audits := audits }
  := by
  constructor
  · exact h.sizes
  · exact h.recorded
  · exact h.single
  · exact h.results
  · rintro (hphase | hphase) <;> cases hphase
  · exact fun hphase => absurd rfl hphase

/-- Every step keeps a relay coherent. -/
theorem Coherent.step {a : RelayAction} (h : Coherent config relay)
    (hstep : relayStep config relay a = some relay') :
  Coherent config relay'
  := by
  cases move_of_step hstep with
  | idle => exact h
  | refuse => exact h.ended _
  | enter hearly hlater =>
      have hcalls := h.early hearly
      have hend : relay.phase ≠ .ended := by
        rcases hearly with hearly | hearly <;> rw [hearly] <;> decide
      exact { h with
        early := fun _ => hcalls
        audits := fun _ => h.audits hend }
  | work hruns hbefore hafter hsizes =>
      apply Coherent.setTask
      · exact { h with
          sizes := fun payload hpayload => (hsizes payload hpayload).elim (h.sizes payload) id }
      · intro result hresult
        rw [hafter] at hresult
        cases hresult
  | conclude hruns hbefore hown =>
      obtain ⟨hfinished, hcalls⟩ := h.finish hruns _
      apply hfinished.setTask
      intro result hresult
      obtain rfl := Option.some.inj hresult
      exact ⟨hown, hcalls⟩
  | close hruns hclosing =>
      apply h.setTask
      intro other hother
      split_ifs at hother
      · cases hother
      · obtain rfl := Option.some.inj hother
        exact h.results _ _ (by rw [hclosing]; rfl)
  | wait hphase =>
      exact { h with
        early := by rintro (hphase | hphase) <;> cases hphase
        audits := fun _ => h.audits (by rw [hphase]; decide) }
  | collect hruns =>
      rcases relay.collect_cases with ⟨result, -, -, hcollect⟩ | ⟨-, failure, hcollect⟩ <;> rw [hcollect]
      · exact h.cancelled hruns (by simp)
      · exact h.cancelled hruns (by simp)
  | leave hphase =>
      rcases leave_cases relay _ _ with ⟨-, -, hleave⟩ | ⟨-, failure, hleave⟩ <;> rw [hleave]
      · exact h.ended _
      · exact h.ended _

/-! ### Which runs keep the record -/

/-- The result that is recorded is among those of the completed tasks, and none of these ranks
higher. -/
def recorderLeads (relay : Relay) : Bool :=
  relay.calls.all (fun recorded => relay.results.contains recorded
    && relay.results.all (fun result => decide (result.outcome.priority ≤ recorded.outcome.priority)))

/-- The recorded result leads when the relay collects the results, and nothing raises at the end after a
result was recorded. -/
def keepsRecord (relay : Relay) (a : RelayAction) : Bool :=
  (!relay.collects a || relay.recorderLeads) && (decide (a ≠ .leaves true) || relay.calls.isEmpty)

/-- One terminal outcome is audited, and what the relay returns is what it has recorded. -/
structure Accounted (relay : Relay) : Prop where
  audited : relay.audits.length ≤ 1
  returned : ∀ result, relay.returned = some result → ∃ recorded, relay.calls = [recorded]
    ∧ recorded.outcome = result.outcome ∧ recorded.closeCode = result.closeCode

/-- What holds of a relay as long as the record is kept. -/
structure Kept (relay : Relay) : Prop where
  failing : ∀ failure, relay.phase = .leaving (some failure) → relay.calls = []
  returned : ∀ result, relay.returned = some result → relay.calls = [result]
  ended : relay.phase = .ended → relay.audits.length ≤ 1

/-- A result that ranks as high as another one of a completed task is that one. -/
theorem eq_of_priority_eq (h : Coherent config relay) {other : ServiceWebSocketProxyResult}
    (hresult : result ∈ relay.results) (hother : other ∈ relay.results)
    (hpriority : result.outcome.priority = other.outcome.priority) :
  result = other
  := by
  obtain ⟨party, htask⟩ := mem_results.mp hresult
  obtain ⟨party', htask'⟩ := mem_results.mp hother
  have hparty := (h.results party result (RelayTask.result?_of_returned? htask)).1
  have hparty' := (h.results party' other (RelayTask.result?_of_returned? htask')).1
  rw [RelayOutcome.priority_injective hpriority, hparty'] at hparty
  subst hparty
  exact Option.some.inj (htask.symm.trans htask')

/-- When the recorded result leads, the relay returns it, and fails only when there is none. -/
theorem Kept.collect (hkept : Kept relay) (h : Coherent config relay)
    (hleads : relay.recorderLeads = true) :
  Kept relay.collect
  := by
  rw [recorderLeads, List.all_eq_true] at hleads
  rcases relay.collect_cases with ⟨result, hresult, hbest, hcollect⟩ | ⟨hnone, failure, hcollect⟩ <;>
    rw [hcollect]
  · obtain ⟨party, htask⟩ := mem_results.mp hresult
    have hcalls := (h.results party result (RelayTask.result?_of_returned? htask)).2
    obtain ⟨recorded, rest, heq⟩ := List.exists_cons_of_ne_nil hcalls
    have hsingle := h.single
    rw [heq, List.length_cons] at hsingle
    obtain rfl := List.eq_nil_of_length_eq_zero (Nat.le_zero.mp (Nat.le_of_succ_le_succ hsingle))
    have hrecorded := hleads recorded (heq ▸ List.mem_cons_self)
    rw [Bool.and_eq_true, List.contains_iff_mem, List.all_eq_true] at hrecorded
    have hpriority := of_decide_eq_true (hrecorded.2 result hresult)
    have hsame := eq_of_priority_eq h hrecorded.1 hresult
      (le_antisymm (hbest recorded hrecorded.1) hpriority)
    constructor
    · intro failure hphase
      cases hphase
    · intro returned hreturned
      obtain rfl := Option.some.inj hreturned
      exact heq.trans (by rw [hsame])
    · intro hphase
      cases hphase
  · have hcalls : relay.calls = [] := by
      rw [List.eq_nil_iff_forall_not_mem]
      intro recorded hrecorded
      have hmem := hleads recorded hrecorded
      rw [hnone] at hmem
      cases hmem
    constructor
    · exact fun _ _ => hcalls
    · exact hkept.returned
    · intro hphase
      cases hphase

/-- The record is kept when a task goes on. -/
theorem Kept.setTask (h : Kept relay) (task : RelayTask) (party : RelayParty) :
  Kept (relay.setTask task party)
  := by
  constructor
  · rw [phase_setTask, calls_setTask]
    exact h.failing
  · rw [returned_setTask, calls_setTask]
    exact h.returned
  · rw [phase_setTask, audits_setTask]
    exact h.ended

/-- The record is kept when a task finishes. -/
theorem Kept.finish (h : Kept relay) (hcoherent : Coherent config relay) (hruns : relay.running = true)
    (result : ServiceWebSocketProxyResult) :
  Kept (relay.finish result)
  := by
  rcases finish_cases hcoherent result with ⟨-, heq⟩ | ⟨hcalls, heq⟩ <;> rw [heq]
  · exact h
  · constructor
    · intro failure hphase
      have hphase : relay.phase = .leaving (some failure) := hphase
      rcases of_decide_eq_true hruns with hruns | hruns <;> rw [hphase] at hruns <;> cases hruns
    · intro returned hreturned
      have hcalled := h.returned returned hreturned
      rw [hcalls] at hcalled
      cases hcalled
    · exact fun hend => absurd hend (phase_of_running hruns).2

/-- A relay that fails without a recorded result has one audit. -/
theorem Kept.fail (h : Kept relay) (hcoherent : Coherent config relay) (hphase : relay.phase ≠ .ended)
    (hcalls : relay.calls = []) (failure : RelayFailure) :
  Kept (relay.fail failure)
  := by
  constructor
  · intro failure hphase
    cases hphase
  · exact h.returned
  · intro _
    rw [Relay.fail, hcoherent.audits hphase, hcalls]
    exact le_refl 1

/-- A step that keeps the record. -/
theorem Kept.step {a : RelayAction} (h : Kept relay) (hcoherent : Coherent config relay)
    (hguard : relay.keepsRecord a = true) (hstep : relayStep config relay a = some relay') :
  Kept relay'
  := by
  rw [keepsRecord, Bool.and_eq_true, Bool.or_eq_true, Bool.or_eq_true] at hguard
  obtain ⟨hleads, hleaves⟩ := hguard
  cases move_of_step hstep with
  | idle => exact h
  | refuse hphase =>
      apply h.fail hcoherent
      · rw [hphase]
        decide
      · exact hcoherent.early (.inl hphase)
  | enter hearly hlater =>
      exact {
        failing := fun _ _ => hcoherent.early hearly
        returned := h.returned
        ended := fun hend => absurd hend hlater }
  | work =>
      apply Kept.setTask
      exact ⟨h.failing, h.returned, h.ended⟩
  | conclude hruns => exact (h.finish hcoherent hruns _).setTask _ _
  | close => exact h.setTask _ _
  | wait =>
      constructor
      · intro failure hphase
        cases hphase
      · exact h.returned
      · intro hphase
        cases hphase
  | collect hruns hcollects =>
      apply h.collect hcoherent
      rw [hcollects] at hleads
      simpa using hleads
  | @leave failure failed hphase =>
      have hend : relay.phase ≠ .ended := by
        rw [hphase]
        simp
      rcases leave_cases relay failure failed with ⟨-, -, hleave⟩ | ⟨hraised, reported, hleave⟩ <;>
        rw [hleave]
      · constructor
        · intro failure hphase
          cases hphase
        · exact h.returned
        · intro _
          have haudits := hcoherent.audits hend
          have hsingle := hcoherent.single
          rw [← List.length_map recordResult, ← haudits] at hsingle
          exact hsingle
      · apply h.fail hcoherent hend
        rcases hraised with ⟨raised, rfl⟩ | rfl
        · exact h.failing raised hphase
        · simpa using hleaves

/-- Where the record is kept, one outcome is audited and the recorded result is returned. -/
theorem Kept.accounted (h : Kept relay) (hcoherent : Coherent config relay) :
  Accounted relay
  := by
  constructor
  · by_cases hend : relay.phase = .ended
    · exact h.ended hend
    · rw [hcoherent.audits hend, List.length_map]
      exact hcoherent.single
  · intro result hresult
    use result, h.returned result hresult

theorem coherent_initial (config : ServiceWebSocketProxyConfig) :
  Coherent config {}
  := by
  constructor
  · intro payload hpayload
    cases hpayload
  · simp
  · exact Nat.zero_le 1
  · rintro (_ | _ | _) result hresult <;> cases hresult
  · exact fun _ => rfl
  · exact fun _ => rfl

theorem kept_initial :
  Kept {}
  := by
  constructor
  · intro failure hphase
    cases hphase
  · intro result hresult
    cases hresult
  · intro hphase
    cases hphase

end Relay

open Transition

/-- No relay sends a message of the client to the upstream that is too large. A relay all of whose steps
keep the record audits at most one terminal outcome, and what it returns has the outcome and the close
code of the one result that was recorded. -/
theorem relay_outcome (config : ServiceWebSocketProxyConfig) :
  (∀ relay, Reaches (relayStep config) {} relay →
    ∀ payload ∈ relay.sent, payloadSize payload ≤ config.maxMessageBytes)
  ∧ ∀ relay, Path (relayStep config) (fun relay a => relay.keepsRecord a = true) {} relay →
    relay.Accounted
  := by
  have hcoherent : ∀ relay, Reaches (relayStep config) {} relay → relay.Coherent config :=
    fun relay h => h.invariant (fun _ _ _ hs _ hstep => hs.step hstep)
      (Relay.coherent_initial config)
  constructor
  · intro relay h
    exact (hcoherent relay h).sizes
  · intro relay h
    have hboth : relay.Coherent config ∧ relay.Kept :=
      h.invariant (I := fun relay => relay.Coherent config ∧ relay.Kept)
        (fun _ _ _ hs hguard hstep => ⟨hs.1.step hstep, hs.2.step hs.1 hguard hstep⟩)
        ⟨Relay.coherent_initial config, Relay.kept_initial⟩
    exact hboth.2.accounted hboth.1

/-- A relay that is idle for five minutes. -/
def idleRun : List RelayAction :=
  [.opened, .accepted 0, .clientReceives (.receive (some "ping") none), .clientSent 1,
    .watchdogWakes 301, .closes .watchdog false, .firstCompleted, .graceOver, .leaves false]

/-- The relay sends one message, and records and returns its timeout. -/
theorem relay_outcome_idleRun :
  ∃ relay, runUnder (relayStep {}) Relay.keepsRecord {} idleRun = some relay
    ∧ relay.sent = [.text "ping"] ∧ relay.returned.isSome = true
    ∧ (∀ payload ∈ relay.sent,
      payloadSize payload ≤ ({} : ServiceWebSocketProxyConfig).maxMessageBytes)
    ∧ relay.Accounted
  := by
  have hrun : (runUnder (relayStep {}) Relay.keepsRecord {} idleRun).any (fun relay =>
      relay.sent = [.text "ping"] ∧ relay.returned.isSome = true) = true := by
    decide +kernel
  obtain ⟨relay, hrelay, hprop⟩ := (Option.any_eq_true _ _).mp hrun
  obtain ⟨hsent, hreturned⟩ := of_decide_eq_true hprop
  have hpath := path_of_runUnder hrelay
  use relay, hrelay, hsent, hreturned
  exact ⟨(relay_outcome {}).1 relay hpath.reaches, (relay_outcome {}).2 relay hpath⟩

/-- The client leaves and the close of the upstream raises. -/
def raisingRun : List RelayAction :=
  [.opened, .accepted 0, .clientReceives (.disconnect (some 1000) none), .closes .client true,
    .firstCompleted, .graceOver, .leaves false]

/-- The client leaves, and the upstream closes its side. -/
def leavingRun : List RelayAction :=
  [.opened, .accepted 0, .clientReceives (.disconnect (some 1000) none),
    .closes .client false, .upstreamCloses (some 1000) none, .closes .upstream false,
    .firstCompleted, .graceOver, .leaves false]

/-- One run audits a success and a failure, another one records that the client has closed and returns
that the upstream has. -/
theorem two_outcomes :
  (∃ relay, run (relayStep {}) {} raisingRun = some relay
    ∧ relay.audits.map RelayAudit.outcome = [.success, .failed] ∧ ¬ relay.Accounted)
  ∧ ∃ relay, run (relayStep {}) {} leavingRun = some relay
    ∧ relay.calls.map ServiceWebSocketProxyResult.outcome = [.clientClosed]
    ∧ relay.returned.map ServiceWebSocketProxyResult.outcome = some .upstreamClosed
    ∧ ¬ relay.Accounted
  := by
  constructor
  · have hrun : (run (relayStep {}) {} raisingRun).any (fun relay =>
        relay.audits.map RelayAudit.outcome = [.success, .failed]) = true := by
      decide +kernel
    obtain ⟨relay, hrelay, hprop⟩ := (Option.any_eq_true _ _).mp hrun
    have haudits := of_decide_eq_true hprop
    use relay, hrelay, haudits
    intro h
    have haudited := h.audited
    rw [← List.length_map RelayAudit.outcome, haudits] at haudited
    exact absurd haudited (by decide)
  · have hrun : (run (relayStep {}) {} leavingRun).any (fun relay =>
        relay.calls.map ServiceWebSocketProxyResult.outcome = [.clientClosed]
        ∧ relay.returned.map ServiceWebSocketProxyResult.outcome = some .upstreamClosed) = true := by
      decide +kernel
    obtain ⟨relay, hrelay, hprop⟩ := (Option.any_eq_true _ _).mp hrun
    obtain ⟨hcalls, hreturned⟩ := of_decide_eq_true hprop
    use relay, hrelay, hcalls, hreturned
    intro h
    obtain ⟨result, hresult, houtcome⟩ := Option.map_eq_some_iff.mp hreturned
    obtain ⟨recorded, hrecorded, hsame, -⟩ := h.returned result hresult
    rw [hrecorded, List.map_singleton, hsame, houtcome] at hcalls
    cases hcalls

end GoblinKing
