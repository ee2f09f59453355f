import GoblinKing.Library.Transition
import Mathlib.Data.List.Basic

/-!
# Attempts within a budget

A task is attempted until an attempt is final. An attempt is final when its outcome is not one
that may be repeated, or when the budget of repetitions is used up; and a worker may refuse to
go through with an attempt it has begun, which is final too.

However the workers take, put back and attempt the task, all outcomes but the last may be
repeated, and there is at most one attempt more than the budget says.
-/

namespace Retry

/-- Where a task stands. -/
inductive Stage (ω : Type) where
  /-- there is no task yet -/
  | absent
  /-- it waits for a worker -/
  | queued
  /-- it waits for a worker, after an attempt that is to be repeated -/
  | retrying
  /-- a worker has taken it -/
  | leased (w : ω)
  /-- the worker has begun an attempt -/
  | begun (w : ω)
  /-- the attempt is on record -/
  | opened (w : ω)
  /-- an attempt was final -/
  | ended

/-- A task with the outcomes of the attempts that have ended, oldest first. -/
structure State (ω β : Type) where
  stage : Stage ω
  budget : ℕ
  outcomes : List β

/-- What can happen to a task. -/
inductive Action (ω β : Type) where
  | submit (budget : ℕ)
  | claim (w : ω)
  | putBack
  | begin
  | record
  | settle (outcome : β)
  | refuse (outcome : β)

variable {ω β : Type}

/-- Before there is a task. -/
def init : State ω β :=
  ⟨.absent, 0, []⟩

variable (repeatable : β → Bool)

/-- The stage after an attempt was settled. -/
def settled (s : State ω β) (outcome : β) : Stage ω :=
  if repeatable outcome && decide (s.outcomes.length + 1 ≤ s.budget) then .retrying else .ended

/-- The steps of a task. -/
def step (s : State ω β) : Action ω β → Option (State ω β)
  | .submit budget =>
      match s.stage with
      | .absent => some ⟨.queued, budget, []⟩
      | _ => none
  | .claim w =>
      match s.stage with
      | .queued | .retrying => some { s with stage := .leased w }
      | _ => none
  | .putBack =>
      match s.stage with
      | .leased _ => some { s with stage := .queued }
      | _ => none
  | .begin =>
      match s.stage with
      | .leased w => some { s with stage := .begun w }
      | _ => none
  | .record =>
      match s.stage with
      | .begun w => some { s with stage := .opened w }
      | _ => none
  | .settle outcome =>
      match s.stage with
      | .opened _ =>
          some { s with
            stage := settled repeatable s outcome
            outcomes := s.outcomes ++ [outcome] }
      | _ => none
  | .refuse outcome =>
      match s.stage with
      | .begun _ => some { s with stage := .ended, outcomes := s.outcomes ++ [outcome] }
      | _ => none

/-- All outcomes but the last may be repeated, and as long as the task has not ended also the
last, with an attempt left in the budget. -/
structure Invariant (s : State ω β) : Prop where
  repeated : ∀ outcome ∈ s.outcomes.dropLast, repeatable outcome = true
  length_le : s.outcomes.length ≤ s.budget + 1
  unended : s.stage ≠ .ended →
    (∀ outcome ∈ s.outcomes, repeatable outcome = true) ∧ s.outcomes.length ≤ s.budget

variable {repeatable}

/-- There are no outcomes before there is a task. -/
theorem invariant_init : Invariant repeatable (init : State ω β)
  := by
  constructor <;> simp [init]

/-- A step that leaves the outcomes and does not end the task keeps the invariant. -/
theorem Invariant.move {s : State ω β} (h : Invariant repeatable s) (hstage : s.stage ≠ .ended)
    (stage : Stage ω) :
  Invariant repeatable { s with stage := stage }
  := by
  constructor
  · apply h.repeated
  · apply h.length_le
  · intro _
    apply h.unended hstage

/-- An attempt with one more outcome keeps the invariant, when it is repeated only within the
budget and as its outcome says. -/
theorem Invariant.attempt {s : State ω β} (h : Invariant repeatable s) (hstage : s.stage ≠ .ended)
    {stage : Stage ω} {outcome : β}
    (hrepeat : stage ≠ .ended → repeatable outcome = true ∧ s.outcomes.length + 1 ≤ s.budget) :
  Invariant repeatable { s with stage := stage, outcomes := s.outcomes ++ [outcome] }
  := by
  obtain ⟨hall, hlength⟩ := h.unended hstage
  constructor
  · intro o ho
    rw [List.dropLast_concat] at ho
    apply hall o ho
  · simpa using hlength
  · intro hunended
    obtain ⟨hrepeatable, hleft⟩ := hrepeat hunended
    constructor
    · intro o ho
      rcases List.mem_append.mp ho with ho | ho
      · apply hall o ho
      · rwa [List.mem_singleton.mp ho]
    · simpa using hleft

/-- An attempt that is not final has an outcome that may be repeated, and the budget allows it. -/
theorem of_settled_ne {s : State ω β} {outcome : β}
    (h : settled repeatable s outcome ≠ .ended) :
  repeatable outcome = true ∧ s.outcomes.length + 1 ≤ s.budget
  := by
  rw [settled] at h
  split at h
  case isTrue hrepeat => simpa using hrepeat
  case isFalse => cases h rfl

/-- Every step keeps the invariant. -/
theorem Invariant.step {s t : State ω β} {a : Action ω β} (h : Invariant repeatable s)
    (hstep : step repeatable s a = some t) :
  Invariant repeatable t
  := by
  obtain ⟨stage, budget, outcomes⟩ := s
  cases a with
  | submit budget =>
      cases stage <;> cases hstep
      constructor <;> simp
  | claim w => cases stage <;> cases hstep <;> apply h.move (by simp)
  | putBack =>
      cases stage <;> cases hstep
      apply h.move (by simp)
  | begin =>
      cases stage <;> cases hstep
      apply h.move (by simp)
  | record =>
      cases stage <;> cases hstep
      apply h.move (by simp)
  | settle outcome =>
      cases stage <;> cases hstep
      apply h.attempt (by simp) of_settled_ne
  | refuse outcome =>
      cases stage <;> cases hstep
      apply h.attempt (by simp)
      intro hended
      cases hended rfl

/-- The invariant holds in every state that is reached. -/
theorem Invariant.reaches {s t : State ω β} (h : Transition.Reaches (Retry.step repeatable) s t)
    (hs : Invariant repeatable s) :
  Invariant repeatable t
  := Transition.Path.invariant (fun _ _ _ hi _ hstep => hi.step hstep) h hs

/-- An attempt that has begun goes on record, or is refused. -/
theorem of_step_begun {s t : State ω β} {a : Action ω β} {w : ω} (hs : s.stage = .begun w)
    (h : step repeatable s a = some t) :
  (a = .record ∧ t = { s with stage := .opened w })
    ∨ ∃ outcome, a = .refuse outcome
      ∧ t = { s with stage := .ended, outcomes := s.outcomes ++ [outcome] }
  := by
  cases a <;> simp only [step, hs, reduceCtorEq, Option.some.injEq] at h
  case record =>
    left
    exact ⟨rfl, h.symm⟩
  case refuse outcome =>
    right
    exact ⟨outcome, rfl, h.symm⟩

/-- An attempt that is on record is settled. -/
theorem of_step_opened {s t : State ω β} {a : Action ω β} {w : ω} (hs : s.stage = .opened w)
    (h : step repeatable s a = some t) :
  ∃ outcome, a = .settle outcome ∧ t = { s with
    stage := settled repeatable s outcome
    outcomes := s.outcomes ++ [outcome] }
  := by
  cases a <;> simp only [step, hs, reduceCtorEq, Option.some.injEq] at h
  case settle outcome => exact ⟨outcome, rfl, h.symm⟩

/-- A task that has ended takes no step. -/
theorem step_of_ended {s : State ω β} (hs : s.stage = .ended) (a : Action ω β) :
  step repeatable s a = none
  := by
  cases a <;> simp [step, hs]

/-- A task waits for a repetition only after an attempt on record. -/
theorem of_step_retrying {s t : State ω β} {a : Action ω β} (h : step repeatable s a = some t)
    (ht : t.stage = .retrying) :
  ∃ w, s.stage = .opened w
  := by
  obtain ⟨stage, budget, outcomes⟩ := s
  cases stage with
  | opened w => use w
  | _ =>
      cases a <;> simp only [step, reduceCtorEq, Option.some.injEq] at h
      all_goals
        subst h
        cases ht

/-- The budget of a task that is there does not change. -/
theorem budget_eq_of_step {s t : State ω β} {a : Action ω β} (h : step repeatable s a = some t)
    (hs : s.stage ≠ .absent) :
  t.budget = s.budget
  := by
  obtain ⟨stage, budget, outcomes⟩ := s
  cases a <;> cases stage <;> cases h <;> first | rfl | cases hs rfl

end Retry
