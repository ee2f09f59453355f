import Mathlib.Data.List.Basic

/-!
# Workflows

A workflow is a relation between statuses: which status may follow which. A trail is the
list of the statuses that an item has had, the last one first. When every way into a status
leads through the same statuses before, every trail that ends there has passed through them,
in their order.
-/

namespace Workflow

variable {S : Type}

/-- A trail from the initial status, the last status first. -/
inductive Trail (allowed : S → S → Prop) (initial : S) : List S → Prop where
  | start : Trail allowed initial [initial]
  | move {current target : S} {trail : List S} (htrail : Trail allowed initial (current :: trail))
      (hallowed : allowed current target) : Trail allowed initial (target :: current :: trail)

/-- The milestones of every status, the last one first: what a trail to the status has
passed. -/
structure Milestones (allowed : S → S → Prop) (initial : S) (milestones : S → List S) : Prop where
  start : (milestones initial).Sublist [initial]
  move : ∀ current target, allowed current target →
    (milestones target).Sublist (target :: milestones current)

/-- A trail has passed the milestones of its last status, in their order. -/
theorem Trail.passed {allowed : S → S → Prop} {initial : S} {milestones : S → List S}
    (hmilestones : Milestones allowed initial milestones) {current : S} {trail : List S}
    (h : Trail allowed initial (current :: trail)) :
  (milestones current).Sublist (current :: trail)
  := by
  generalize hwhole : current :: trail = whole at h
  induction h generalizing current trail with
  | start =>
      obtain ⟨rfl, rfl⟩ := List.cons.inj hwhole
      apply hmilestones.start
  | move htrail hallowed ih =>
      obtain ⟨rfl, rfl⟩ := List.cons.inj hwhole
      apply (hmilestones.move _ _ hallowed).trans
      apply List.Sublist.cons_cons _ (ih rfl)

end Workflow
