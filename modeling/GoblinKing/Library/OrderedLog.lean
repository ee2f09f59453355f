import Mathlib.Data.List.MinMax

/-!
# Ordered logs

A log numbers its rows from a counter, and stamps them with instants. A log is ordered when
later rows have higher numbers and later stamps, and no number is above the counter. Rows may
be taken out at any place; a row that is put in gets the next number of the counter, and a
stamp after that of the last row.
-/

namespace OrderedLog

variable {ρ τ : Type} [LinearOrder τ]

/-- The rows of a log are in order, and are numbered from the counter. -/
structure Ordered (number : ρ → ℕ) (stamp : ρ → τ) (rows : List ρ) (counter : ℕ) : Prop where
  increasing : rows.Pairwise (fun r s => number r < number s ∧ stamp r < stamp s)
  bounded : ∀ r ∈ rows, number r ≤ counter

variable {number : ρ → ℕ} {stamp : ρ → τ} {rows : List ρ} {counter : ℕ}

/-- The log without rows is ordered. -/
theorem ordered_nil (counter : ℕ) :
  Ordered number stamp [] counter
  := ⟨List.Pairwise.nil, by simp⟩

/-- Taking out rows keeps a log ordered. -/
theorem Ordered.sublist (h : Ordered number stamp rows counter) {rows' : List ρ}
    (hrows : rows'.Sublist rows) :
  Ordered number stamp rows' counter
  := by
  constructor
  · apply h.increasing.sublist hrows
  · intro r hr
    apply h.bounded r (hrows.subset hr)

/-- A row with the next number and a later stamp keeps a log ordered. -/
theorem Ordered.append (h : Ordered number stamp rows counter) {row : ρ}
    (hnumber : number row = counter + 1) (hstamp : ∀ r ∈ rows, stamp r < stamp row) :
  Ordered number stamp (rows ++ [row]) (counter + 1)
  := by
  constructor
  · rw [List.pairwise_append]
    refine ⟨h.increasing, List.pairwise_singleton _ _, ?_⟩
    intro r hr s hs
    rw [List.mem_singleton.mp hs]
    use (h.bounded r hr).trans_lt (by omega)
    apply hstamp r hr
  · intro r hr
    rcases List.mem_append.mp hr with hr | hr
    · apply (h.bounded r hr).trans (Nat.le_succ counter)
    · rw [List.mem_singleton.mp hr, hnumber]

/-- The stamps are in the order of the numbers. -/
theorem Ordered.stamp_lt (h : Ordered number stamp rows counter) {r s : ρ} (hr : r ∈ rows)
    (hs : s ∈ rows) (hlt : number r < number s) :
  stamp r < stamp s
  := by
  obtain ⟨i, hi, rfl⟩ := List.mem_iff_getElem.mp hr
  obtain ⟨j, hj, rfl⟩ := List.mem_iff_getElem.mp hs
  have hpairs := List.pairwise_iff_getElem.mp h.increasing
  rcases lt_trichotomy i j with hij | rfl | hij
  · apply (hpairs i j hi hj hij).2
  · cases lt_irrefl _ hlt
  · cases lt_asymm hlt (hpairs j i hj hi hij).1

/-- The row with the highest number has the latest stamp. -/
theorem Ordered.stamp_le_argmax (h : Ordered number stamp rows counter) {last : ρ}
    (hlast : rows.argmax number = some last) {r : ρ} (hr : r ∈ rows) :
  stamp r ≤ stamp last
  := by
  have hmember : last ∈ rows := List.argmax_mem hlast
  rcases (List.le_of_mem_argmax hr hlast).lt_or_eq with hlt | heq
  · apply (h.stamp_lt hr hmember hlt).le
  · obtain ⟨i, hi, rfl⟩ := List.mem_iff_getElem.mp hr
    obtain ⟨j, hj, rfl⟩ := List.mem_iff_getElem.mp hmember
    have hpairs := List.pairwise_iff_getElem.mp h.increasing
    rcases lt_trichotomy i j with hij | rfl | hij
    · apply (hpairs i j hi hj hij).2.le
    · apply le_refl
    · cases (hpairs j i hj hi hij).1.ne' heq

end OrderedLog
