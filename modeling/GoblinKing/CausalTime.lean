import GoblinKing.Contracts

/-!
# Causal time

The floor that places a timestamp strictly after its causal predecessors.
-/

namespace GoblinKing

/-- The first instant that a `datetime` can hold. -/
def datetimeMin : Instant := -62135596800000000

/-- The last instant that a `datetime` can hold. -/
def datetimeMax : Instant := 253402300799999999

/-- `MINIMUM_CAUSAL_STEP`: one microsecond. -/
def minimumCausalStep : Instant := 1

/-- A timestamp strictly after every supplied causal predecessor: the candidate when it
is, and one step after the latest predecessor otherwise. -/
def causallyAfter (predecessors : List (Option Instant)) (candidate : Instant) : Instant :=
  match (predecessors.filterMap id).max? with
  | none => candidate
  | some floor => if floor < candidate then candidate else floor + minimumCausalStep

/-- The timestamp is strictly after every predecessor. -/
theorem lt_causallyAfter {predecessors : List (Option Instant)} {t : Instant}
    (h : some t ∈ predecessors) (candidate : Instant) :
  t < causallyAfter predecessors candidate
  := by
  have hmem : t ∈ predecessors.filterMap id := List.mem_filterMap.mpr ⟨some t, h, rfl⟩
  rw [causallyAfter]
  cases hmax : (predecessors.filterMap id).max? with
  | none =>
      rw [List.max?_eq_none_iff] at hmax
      rw [hmax] at hmem
      cases hmem
  | some floor =>
      have hle : t ≤ floor := (List.max?_eq_some_iff.mp hmax).2 t hmem
      dsimp only
      split
      case isTrue h => exact lt_of_le_of_lt hle h
      case isFalse => exact Int.lt_add_one_iff.mpr hle

/-- The timestamp is not before its candidate. -/
theorem le_causallyAfter (predecessors : List (Option Instant)) (candidate : Instant) :
  candidate ≤ causallyAfter predecessors candidate
  := by
  rw [causallyAfter]
  split
  · apply le_refl
  · split
    case isTrue => apply le_refl
    case isFalse h => exact le_trans (not_lt.mp h) (Int.le_add_one (le_refl _))

end GoblinKing
