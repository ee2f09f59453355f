import Mathlib.Data.Finset.Card

/-!
# Admission

Items occupy places, and some of the items that do are admitted. An item takes its place
before it is admitted, and is admitted when fewer than a limit of other items occupy a
place. That items which are not admitted count as well is what keeps the number of admitted
items within the limit: of two items that are tried at the same time, at least one sees the
other.
-/

namespace Admission

/-- The items that occupy a place and those that are admitted, never more than the limit. -/
structure Places (ι : Type) (limit : ℕ) where
  occupied : Finset ι
  admitted : Finset ι
  occupies : admitted ⊆ occupied
  card_le : admitted.card ≤ limit

variable {ι : Type} [DecidableEq ι] {limit : ℕ}

/-- No item occupies a place. -/
def Places.empty : Places ι limit where
  occupied := ∅
  admitted := ∅
  occupies := Finset.Subset.refl ∅
  card_le := Nat.zero_le limit

/-- Items take places and leave them. What leaves its place is not admitted any more. -/
def Places.occupy (places : Places ι limit) (occupied : Finset ι) : Places ι limit where
  occupied := occupied
  admitted := places.admitted ∩ occupied
  occupies := Finset.inter_subset_right
  card_le := (Finset.card_le_card Finset.inter_subset_left).trans places.card_le

/-- When other items occupy fewer places than the limit, the admitted items with one more
are within the limit. -/
theorem Places.card_insert_le (places : Places ι limit) {i : ι}
    (hroom : (places.occupied.erase i).card < limit) :
  (insert i places.admitted).card ≤ limit
  := by
  have hsubset : insert i places.admitted ⊆ insert i (places.occupied.erase i) := by
    intro j hj
    rw [Finset.mem_insert] at hj
    rw [Finset.mem_insert, Finset.mem_erase]
    by_cases hi : j = i
    · exact .inl hi
    · right
      use hi
      apply places.occupies (hj.resolve_left hi)
  calc (insert i places.admitted).card
      ≤ (insert i (places.occupied.erase i)).card := Finset.card_le_card hsubset
    _ ≤ (places.occupied.erase i).card + 1 := Finset.card_insert_le _ _
    _ ≤ limit := hroom

/-- An item is admitted, if it still occupies a place. -/
def Places.enter (places : Places ι limit) (i : ι)
    (hroom : (places.occupied.erase i).card < limit) : Places ι limit where
  occupied := places.occupied
  admitted := insert i places.admitted ∩ places.occupied
  occupies := Finset.inter_subset_right
  card_le := (Finset.card_le_card Finset.inter_subset_left).trans (places.card_insert_le hroom)

/-- What was admitted and still occupies a place is admitted. -/
@[simp]
theorem Places.mem_occupy {places : Places ι limit} {occupied : Finset ι} {i : ι} :
  i ∈ (places.occupy occupied).admitted ↔ i ∈ places.admitted ∧ i ∈ occupied
  := Finset.mem_inter

/-- What is admitted after an admission. -/
@[simp]
theorem Places.mem_enter {places : Places ι limit} {i j : ι}
    {hroom : (places.occupied.erase i).card < limit} :
  j ∈ (places.enter i hroom).admitted
    ↔ (j = i ∨ j ∈ places.admitted) ∧ j ∈ places.occupied
  := by
  simp [enter]

end Admission
