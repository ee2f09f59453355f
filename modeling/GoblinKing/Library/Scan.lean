import Mathlib.Data.List.Basic
import Mathlib.Data.List.Nodup
import Mathlib.Data.Nat.Basic
import Mathlib.Order.Basic

/-!
# Scans

A client reads the rows of a numbered table page by page: each page has the first of the wanted
rows whose numbers are above that of the row it has received last. Meanwhile rows are deleted, and
new ones get higher numbers. The client receives the rows in the order of their numbers, and has
received all wanted rows when a page is empty.
-/

namespace Scan

variable {ρ : Type}

/-- The rows are in the order of their numbers, which are all different. -/
abbrev Increasing (number : ρ → ℕ) (rows : List ρ) : Prop :=
  rows.Pairwise (fun first second => number first < number second)

/-- A row comes after all that was received, of which the last has the highest number. -/
def after (number : ρ → ℕ) (received : List ρ) (row : ρ) : Bool :=
  received.getLast?.all (fun last => decide (number last < number row))

/-- The next page: the first of the wanted rows that come after what was received. -/
def page (number : ρ → ℕ) (wanted : ρ → Bool) (limit : ℕ) (rows received : List ρ) : List ρ :=
  (rows.filter (fun row => wanted row && after number received row)).take limit

/-- What was received so far is in order, and no wanted row was passed over. -/
structure Complete (number : ρ → ℕ) (wanted : ρ → Bool) (rows received : List ρ) : Prop where
  increasing : Increasing number received
  covered : ∀ row ∈ rows, wanted row = true → after number received row = false → row ∈ received

section

variable {number : ρ → ℕ} {wanted : ρ → Bool} {limit : ℕ} {rows received : List ρ}

/-- A row comes after what was received when its number is above the last one. -/
theorem after_iff {row : ρ} :
  after number received row = true ↔ ∀ last ∈ received.getLast?, number last < number row
  := by
  simp [after, Option.all_eq_true]

/-- The last of the rows that were received in order has the highest number. -/
theorem Increasing.le_last (h : Increasing number received) {row last : ρ} (hrow : row ∈ received)
    (hlast : last ∈ received.getLast?) :
  number row ≤ number last
  := by
  obtain ⟨front, rfl⟩ := List.getLast?_eq_some_iff.mp hlast
  rcases List.mem_append.mp hrow with hrow | hrow
  · exact ((List.pairwise_append.mp h).2.2 row hrow last (List.mem_singleton_self last)).le
  · rw [List.mem_singleton.mp hrow]

/-- A row that comes after what was received has a number above all that was received. -/
theorem Increasing.lt_of_after (h : Increasing number received) {row row' : ρ}
    (hafter : after number received row = true) (hrow : row' ∈ received) :
  number row' < number row
  := by
  cases hlast : received.getLast? with
  | none =>
      rw [List.getLast?_eq_none_iff.mp hlast] at hrow
      cases hrow
  | some last => exact (h.le_last hrow hlast).trans_lt (after_iff.mp hafter last hlast)

/-- What is before a row of the front of a list in order is in the front. -/
theorem Increasing.mem_take (h : Increasing number rows) {row row' : ρ} (hrow : row ∈ rows)
    (hrow' : row' ∈ rows.take limit) (hle : number row ≤ number row') :
  row ∈ rows.take limit
  := by
  rw [← List.take_append_drop limit rows] at h hrow
  rcases List.mem_append.mp hrow with hrow | hrow
  · exact hrow
  · exact absurd ((List.pairwise_append.mp h).2.2 row' hrow' row hrow) hle.not_gt

/-- After the front of a list in order come the other rows. -/
theorem Increasing.filter_after_take (h : Increasing number rows) (n : ℕ) :
  rows.filter (after number (rows.take n)) = rows.drop n
  := by
  have hsplit := h
  rw [← List.take_append_drop n rows] at hsplit
  obtain ⟨hfront, -, hbefore⟩ := List.pairwise_append.mp hsplit
  have hnone : (rows.take n).filter (after number (rows.take n)) = [] := by
    apply List.filter_eq_nil_iff.mpr
    intro row hrow hafter
    exact (Increasing.lt_of_after hfront hafter hrow).ne rfl
  have hall : (rows.drop n).filter (after number (rows.take n)) = rows.drop n := by
    apply List.filter_eq_self.mpr
    intro row hrow
    apply after_iff.mpr
    intro last hlast
    exact hbefore last (List.mem_of_getLast? hlast) row hrow
  calc rows.filter (after number (rows.take n))
      = (rows.take n ++ rows.drop n).filter (after number (rows.take n)) := by
        rw [List.take_append_drop]
    _ = rows.drop n := by
        rw [List.filter_append, hnone, hall, List.nil_append]

/-- Nothing is passed over before the first page. -/
theorem complete_nil :
  Complete number wanted rows []
  := ⟨List.Pairwise.nil, by simp [after]⟩

/-- A page has wanted rows of the table that come after what was received. -/
theorem mem_page {row : ρ} (h : row ∈ page number wanted limit rows received) :
  row ∈ rows ∧ wanted row = true ∧ after number received row = true
  := by
  have hfilter := List.mem_filter.mp (List.mem_of_mem_take h)
  exact ⟨hfilter.1, Bool.and_eq_true _ _ ▸ hfilter.2⟩

/-- Nothing is passed over by the next page. -/
theorem Complete.page (h : Complete number wanted rows received) (hrows : Increasing number rows) :
  Complete number wanted rows (received ++ Scan.page number wanted limit rows received)
  := by
  constructor
  · apply List.pairwise_append.mpr
    refine ⟨h.increasing, (hrows.filter _).sublist (List.take_sublist _ _), ?_⟩
    intro first hfirst second hsecond
    exact h.increasing.lt_of_after (mem_page hsecond).2.2 hfirst
  · intro row hrow hwanted hnot
    by_cases hafter : after number received row = true
    · -- the row is one of those from which the page is taken, and not after the last of these
      apply List.mem_append_right
      cases hlast : (Scan.page number wanted limit rows received).getLast? with
      | none =>
          rw [List.getLast?_eq_none_iff.mp hlast, List.append_nil, hafter] at hnot
          cases hnot
      | some last =>
          have hmem := List.mem_of_getLast? hlast
          have hle : number row ≤ number last := by
            by_contra hlt
            apply Bool.eq_false_iff.mp hnot
            rw [after_iff, List.getLast?_append, hlast]
            rintro _ ⟨⟩
            exact Nat.lt_of_not_le hlt
          have hfilter : row ∈ rows.filter (fun row => wanted row && after number received row) := by
            apply List.mem_filter.mpr
            simp [hrow, hwanted, hafter]
          exact Increasing.mem_take (hrows.filter _) hfilter hmem hle
    · apply List.mem_append_left
      exact h.covered row hrow hwanted (Bool.eq_false_iff.mpr hafter)

/-- Nothing is passed over when rows are deleted, and the new ones come after what was received. -/
theorem Complete.mono (h : Complete number wanted rows received) {rows' : List ρ}
    (hrows : ∀ row ∈ rows', row ∈ rows ∨ after number received row = true) :
  Complete number wanted rows' received
  := by
  use h.increasing
  intro row hrow hwanted hnot
  rcases hrows row hrow with hrow | hafter
  · exact h.covered row hrow hwanted hnot
  · cases hnot.symm.trans hafter

/-- When a page is empty, all wanted rows have been received. -/
theorem Complete.finished (h : Complete number wanted rows received) (hlimit : 0 < limit)
    (hpage : Scan.page number wanted limit rows received = []) {row : ρ} (hrow : row ∈ rows)
    (hwanted : wanted row = true) :
  row ∈ received
  := by
  apply h.covered row hrow hwanted
  apply Bool.eq_false_iff.mpr
  intro hafter
  rw [Scan.page, List.take_eq_nil_iff] at hpage
  rcases hpage with hpage | hpage
  · exact hlimit.ne' hpage
  · have hnone := List.filter_eq_nil_iff.mp hpage row hrow
    simp [hwanted, hafter] at hnone

/-- Rows that are different while their numbers are in order have different keys when the key of a
row on the page tells it from those that were received. -/
theorem nodup_map_page {κ : Type} {key : ρ → κ} (hreceived : (received.map key).Nodup)
    (hrows : (rows.map key).Nodup) (hincreasing : Increasing number received)
    (hkey : ∀ row ∈ received, ∀ row' ∈ rows, key row = key row' → row = row') :
  ((received ++ Scan.page number wanted limit rows received).map key).Nodup
  := by
  rw [List.map_append]
  apply hreceived.append
  · exact List.Nodup.sublist (((List.take_sublist _ _).trans List.filter_sublist).map key) hrows
  · intro k hk hk'
    obtain ⟨row, hrow, rfl⟩ := List.mem_map.mp hk
    obtain ⟨row', hrow', heq⟩ := List.mem_map.mp hk'
    obtain ⟨hmem, -, hafter⟩ := mem_page hrow'
    obtain rfl := hkey row hrow row' hmem heq.symm
    exact (hincreasing.lt_of_after hafter hrow).ne rfl

end

end Scan
