import Mathlib.Data.List.Basic

/-!
# Computations that emit events

A computation emits events one after the other and ends with a value or with an exception; what it
has emitted before an exception stays emitted. A computation is silent on a set of events when it
emits none of them. It is concluded by a set of events when it ends with a value, and its last
event and no other one is among them.
-/

/-- What a computation has emitted, and how it has ended. -/
structure Emission (ε χ α : Type) where
  events : List ε
  outcome : Except χ α

namespace Emission

variable {ε χ α β : Type}

/-- The computation that emits nothing and ends like another one. -/
def ofExcept (outcome : Except χ α) : Emission ε χ α :=
  ⟨[], outcome⟩

/-- One computation after the other. -/
def andThen (x : Emission ε χ α) (f : α → Emission ε χ β) : Emission ε χ β :=
  match x.outcome with
  | .ok a => ⟨x.events ++ (f a).events, (f a).outcome⟩
  | .error error => ⟨x.events, .error error⟩

instance instMonadEmission : Monad (Emission ε χ) where
  pure a := ofExcept (.ok a)
  bind := andThen

/-- Emit an event. -/
def emit (event : ε) : Emission ε χ Unit :=
  ⟨[event], .ok ()⟩

/-- Go on with a handler behind the exceptions that it is for. -/
def catching (x : Emission ε χ α) (caught : χ → Bool) (handler : χ → Emission ε χ α) :
    Emission ε χ α :=
  match x.outcome with
  | .ok _ => x
  | .error error =>
      if caught error then
        ⟨x.events ++ (handler error).events, (handler error).outcome⟩
      else
        x

/-- Emit other events in place of the events. -/
def relabel {ε' : Type} (f : ε → ε') (x : Emission ε χ α) : Emission ε' χ α :=
  ⟨x.events.map f, x.outcome⟩

/-- Go on with a last computation whether there is an exception or not. An exception of the last
computation takes the place of the outcome. -/
def ensuring (x : Emission ε χ α) (last : Emission ε χ Unit) : Emission ε χ α :=
  match last.outcome with
  | .ok () => ⟨x.events ++ last.events, x.outcome⟩
  | .error error => ⟨x.events ++ last.events, .error error⟩

/-- The exception in an outcome. -/
def errorOf : Except χ α → Option χ
  | .ok _ => none
  | .error error => some error

/-- The exception that a computation ends with. -/
def fault (x : Emission ε χ α) : Option χ :=
  errorOf x.outcome

/-- Go on with the exception of a computation, or with none. -/
def attempted (x : Emission ε χ α) : Emission ε χ (Option χ) :=
  ⟨x.events, .ok x.fault⟩

section

variable {x : Emission ε χ α} {f : α → Emission ε χ β}

/-- What follows a value comes behind what has been emitted before. -/
theorem bind_of_ok {a : α} (h : x.outcome = .ok a) :
  x >>= f = ⟨x.events ++ (f a).events, (f a).outcome⟩
  := by
  change andThen x f = _
  rw [andThen, h]

/-- A sequence ends with what its parts end with. -/
theorem outcome_bind :
  (x >>= f).outcome = x.outcome >>= fun a => (f a).outcome
  := by
  cases h : x.outcome with
  | ok a =>
      rw [bind_of_ok h]
      rfl
  | error error =>
      change (andThen x f).outcome = _
      rw [andThen, h]
      rfl

theorem outcome_ofExcept {outcome : Except χ α} :
  (ofExcept outcome : Emission ε χ α).outcome = outcome
  := rfl

/-- Nothing follows an exception. -/
theorem bind_of_error {error : χ} (h : x.outcome = .error error) :
  x >>= f = ⟨x.events, .error error⟩
  := by
  change andThen x f = _
  rw [andThen, h]

/-- A computation without an exception returns a value. -/
theorem fault_eq_none :
  x.fault = none ↔ ∃ a, x.outcome = .ok a
  := by
  cases h : x.outcome with
  | ok a => simp [fault, errorOf, h]
  | error error => simp [fault, errorOf, h]

/-- A sequence raises what its first part raises, or else what its second part raises. -/
theorem fault_bind_unit {x : Emission ε χ Unit} {f : Unit → Emission ε χ β} :
  (x >>= f).fault = x.fault.or (f ()).fault
  := by
  cases h : x.outcome with
  | ok a => simp [bind_of_ok h, fault, errorOf, h]
  | error error => simp [bind_of_error h, fault, errorOf, h]

/-- Behind a handler without exceptions, only those are left that it is not for. -/
theorem fault_catching {caught : χ → Bool} {handler : χ → Emission ε χ α}
    (hhandler : ∀ error, (handler error).fault = none) :
  (x.catching caught handler).fault = x.fault.filter (fun error => !caught error)
  := by
  cases h : x.outcome with
  | ok a => simp [catching, fault, errorOf, h]
  | error error =>
      have hfault : x.fault = some error := by rw [fault, h, errorOf]
      rw [catching, h, hfault]
      by_cases hcaught : caught error
      · rw [Option.filter_some_neg (by simp [hcaught])]
        simpa [hcaught, fault] using hhandler error
      · rw [Option.filter_some_pos (by simp [hcaught])]
        simp [hcaught, hfault]

/-- What a sequence emits is emitted by one of its parts. -/
theorem mem_events_bind {event : ε} (h : event ∈ (x >>= f).events) :
  event ∈ x.events ∨ ∃ a, x.outcome = .ok a ∧ event ∈ (f a).events
  := by
  cases hx : x.outcome with
  | ok a =>
      rw [bind_of_ok hx] at h
      rcases List.mem_append.mp h with h | h
      · left
        exact h
      · right
        exact ⟨a, rfl, h⟩
  | error error =>
      rw [bind_of_error hx] at h
      left
      exact h

end

/-- A computation emits events of a set only. -/
def Every (p : ε → Prop) (x : Emission ε χ α) : Prop :=
  ∀ event ∈ x.events, p event

section

variable {p : ε → Prop} {x : Emission ε χ α} {f : α → Emission ε χ β}

/-- A computation without events emits none outside of a set. -/
theorem every_ofExcept {outcome : Except χ α} : Every p (ofExcept outcome : Emission ε χ α)
  := by
  intro event hevent
  cases hevent

/-- An event of a set is emitted. -/
theorem every_emit {event : ε} (h : p event) : Every p (emit event : Emission ε χ Unit)
  := by
  intro other hother
  rw [List.mem_singleton.mp hother]
  exact h

/-- A sequence emits events of a set when its parts do, the second one behind each value that the first
one returns. -/
theorem Every.bind (hx : Every p x) (hf : ∀ a, x.outcome = .ok a → Every p (f a)) :
  Every p (x >>= f)
  := by
  intro event hevent
  rcases mem_events_bind hevent with h | ⟨a, ha, h⟩
  · apply hx event h
  · apply hf a ha event h

/-- Behind an outcome, only what follows emits events. -/
theorem Every.behind {outcome : Except χ α} (hf : ∀ a, outcome = .ok a → Every p (f a)) :
  Every p (ofExcept outcome >>= f)
  := every_ofExcept.bind hf

/-- An event of a set is emitted before others. -/
theorem Every.emit_bind {event : ε} {f : Unit → Emission ε χ β} (h : p event) (hf : Every p (f ())) :
  Every p (emit event >>= f)
  := (every_emit h).bind (fun _ _ => hf)

end

/-- A computation emits no event of a set. -/
def Silent (p : ε → Prop) (x : Emission ε χ α) : Prop :=
  ∀ event ∈ x.events, ¬ p event

/-- A computation returns a value, and its last event and no other one is in a set. -/
def Concluded (p : ε → Prop) (x : Emission ε χ α) : Prop :=
  (∃ a, x.outcome = .ok a) ∧
    ∃ before last, x.events = before ++ [last] ∧ p last ∧ ∀ event ∈ before, ¬ p event

section

variable {p : ε → Prop} {x : Emission ε χ α} {f : α → Emission ε χ β}

/-- A computation without events is silent. -/
theorem silent_ofExcept {outcome : Except χ α} : Silent p (ofExcept outcome : Emission ε χ α)
  := by
  intro event hevent
  cases hevent

/-- A value is silent. -/
theorem silent_pure {a : α} : Silent p (pure a : Emission ε χ α)
  := silent_ofExcept

/-- An event that is not in a set is silent on it. -/
theorem silent_emit {event : ε} (h : ¬ p event) : Silent p (emit event : Emission ε χ Unit)
  := by
  intro other hother
  rw [List.mem_singleton.mp hother]
  exact h

/-- A sequence of silent computations is silent. -/
theorem Silent.bind (hx : Silent p x) (hf : ∀ a, Silent p (f a)) :
  Silent p (x >>= f)
  := by
  intro event hevent
  rcases mem_events_bind hevent with h | ⟨a, -, h⟩
  · apply hx event h
  · apply hf a event h

/-- A silent computation with a silent handler is silent. -/
theorem Silent.catching {caught : χ → Bool} {handler : χ → Emission ε χ α} (hx : Silent p x)
    (hhandler : ∀ error, Silent p (handler error)) :
  Silent p (x.catching caught handler)
  := by
  unfold Emission.catching
  split
  case h_1 => exact hx
  case h_2 error _ =>
    split
    case isTrue =>
      intro event hevent
      rcases List.mem_append.mp hevent with h | h
      · apply hx event h
      · apply hhandler error event h
    case isFalse => exact hx

/-- Behind a silent computation, only what follows decides how a sequence is concluded. -/
theorem Silent.concluded_bind (hx : Silent p x) :
  Concluded p (x >>= f) ↔ ∃ a, x.outcome = .ok a ∧ Concluded p (f a)
  := by
  cases h : x.outcome with
  | error error => simp [Concluded, bind_of_error h]
  | ok a =>
      simp only [Concluded, bind_of_ok h, Except.ok.injEq, exists_eq_left']
      apply and_congr_right
      intro _
      constructor
      · rintro ⟨before, last, hevents, hlast, hbefore⟩
        rcases List.eq_nil_or_concat' (f a).events with hnil | ⟨rest, last', hrest⟩
        · exfalso
          rw [hnil, List.append_nil] at hevents
          apply hx last _ hlast
          rw [hevents]
          simp
        · rw [hrest, ← List.append_assoc] at hevents
          obtain ⟨hinit, hsame⟩ := List.append_inj' hevents rfl
          use rest, last, by rw [hrest, List.singleton_inj.mp hsame], hlast
          intro event hevent
          apply hbefore event
          rw [← hinit]
          apply List.mem_append_right _ hevent
      · rintro ⟨before, last, hevents, hlast, hbefore⟩
        use x.events ++ before, last
        rw [hevents, List.append_assoc]
        use rfl, hlast
        intro event hevent
        rcases List.mem_append.mp hevent with h | h
        · apply hx event h
        · apply hbefore event h

/-- An event of a set and a value behind it are concluded. -/
theorem concluded_emit {event : ε} {a : α} (h : p event) :
  Concluded p ((do emit event; pure a) : Emission ε χ α)
  := by
  constructor
  · exact ⟨a, rfl⟩
  · use [], event, rfl, h
    intro other hother
    cases hother

end

end Emission
