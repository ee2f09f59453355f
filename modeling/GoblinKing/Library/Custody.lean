import Mathlib.Data.List.Basic

/-!
# Custody

Resources that are started and stopped at places, and the parties that hold them. A place has
one live resource at a time. A live resource that nobody holds is leaked. When a step of one
party changes what is live and what is held, nothing is leaked exactly when everything the
step lets go of, and that is still live, is held by someone after it.
-/

namespace Custody

variable {ρ π : Type}

/-- Every live resource is held. -/
def Accounted (live held : List ρ) : Prop :=
  ∀ r ∈ live, r ∈ held

/-- Nothing is leaked where nothing is live. -/
theorem accounted_nil (held : List ρ) :
  Accounted [] held
  := by
  intro r hr
  cases hr

/-- The rule for a step. What is live after it was live before, is let go of, or is held; what
was held is held, or is let go of. -/
theorem accounted_step {live live' held held' : List ρ} (released : List ρ)
    (h : Accounted live held)
    (hlive : ∀ r ∈ live', r ∈ live ∨ r ∈ released ∨ r ∈ held')
    (hheld : ∀ r ∈ held, r ∈ held' ∨ r ∈ released) :
  Accounted live' held' ↔ ∀ r ∈ released, r ∈ live' → r ∈ held'
  := by
  constructor
  · intro haccounted r _ hr
    apply haccounted r hr
  · intro hreleased r hr
    rcases hlive r hr with hold | hgone | hheld'
    · rcases hheld r (h r hold) with hheld' | hgone
      · apply hheld'
      · apply hreleased r hgone hr
    · apply hreleased r hgone hr
    · apply hheld'

variable [DecidableEq π] (place : ρ → π)

/-- Start a resource; `none` when its place is taken. -/
def start (r : ρ) (live : List ρ) : Option (List ρ) :=
  if live.any (fun s => place s = place r) then none else some (r :: live)

/-- Stop what is live at a place. -/
def stop (k : π) (live : List ρ) : List ρ :=
  live.filter (fun s => place s ≠ k)

variable {place}

/-- What is live after a start. -/
theorem mem_start {r s : ρ} {live live' : List ρ} (h : start place r live = some live') :
  s ∈ live' ↔ s = r ∨ s ∈ live
  := by
  rw [start] at h
  split at h
  · cases h
  · obtain rfl := Option.some.inj h
    apply List.mem_cons

/-- What is live after a stop. -/
theorem mem_stop {k : π} {s : ρ} {live : List ρ} :
  s ∈ stop place k live ↔ s ∈ live ∧ place s ≠ k
  := by
  simp [stop]

end Custody
