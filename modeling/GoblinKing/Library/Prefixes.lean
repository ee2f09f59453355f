import Mathlib.Data.List.Perm.Subperm
import Mathlib.Data.List.TakeWhile

/-!
# Prefixes of lists without duplicates

Elements that are selected from the front of a list, by a condition that holds of a prefix or by
several prefixes at once. Where duplicates are erased, the union of prefixes is the longest of them.
-/

namespace List

variable {α : Type}

/-- A condition that holds of whatever stands in front of an element for which it holds selects a
prefix. -/
theorem filter_eq_takeWhile {p : α → Bool} {l : List α}
    (h : l.Pairwise (fun a b => p b = true → p a = true)) :
  l.filter p = l.takeWhile p
  := by
  induction l with
  | nil => rfl
  | cons a l ih =>
      obtain ⟨ha, hl⟩ := pairwise_cons.mp h
      by_cases hp : p a = true
      · rw [filter_cons_of_pos hp, takeWhile_cons_of_pos hp, ih hl]
      · rw [takeWhile_cons_of_neg hp, filter_eq_nil_iff]
        intro b hb hpb
        rcases mem_cons.mp hb with rfl | hb
        · exact hp hpb
        · exact hp (ha b hb hpb)

/-- In a list without duplicates, prefixes are inside each other in the order of their lengths. -/
theorem length_le_of_subset_take {l : List α} (hl : l.Nodup) {n m : ℕ} (hn : n ≤ l.length)
    (h : ∀ a ∈ l.take n, a ∈ l.take m) :
  n ≤ m
  := by
  have hlength := (hl.sublist (take_sublist n l)).subperm h |>.length_le
  rw [length_take, length_take] at hlength
  omega

variable [BEq α] [LawfulBEq α]

/-- Nothing is left twice when duplicates are erased. -/
theorem nodup_eraseDups (l : List α) :
  l.eraseDups.Nodup
  := by
  induction hlength : l.length using Nat.strong_induction_on generalizing l with
  | _ n ih =>
      cases l with
      | nil => simp
      | cons a l =>
          rw [eraseDups_cons, nodup_cons]
          constructor
          · rw [mem_eraseDups]
            simp
          · apply ih _ _ _ rfl
            rw [← hlength, length_cons, Nat.lt_succ_iff]
            apply length_filter_le

/-- Where there are no duplicates, none are erased. -/
theorem Nodup.eraseDups_eq {l : List α} (h : l.Nodup) :
  l.eraseDups = l
  := by
  induction l with
  | nil => rfl
  | cons a l ih =>
      obtain ⟨ha, hl⟩ := nodup_cons.mp h
      have hfilter : l.filter (fun b => !b == a) = l := by
        rw [filter_eq_self]
        intro b hb
        rw [Bool.not_eq_true', beq_eq_false_iff_ne]
        rintro rfl
        exact ha hb
      rw [eraseDups_cons, hfilter, ih hl]

/-- The union of two prefixes is the longer one. -/
theorem eraseDups_take_append_take {l : List α} (h : l.Nodup) (n m : ℕ) :
  (l.take n ++ l.take m).eraseDups = l.take (max n m)
  := by
  have hn := (h.sublist (take_sublist n l)).eraseDups_eq
  rw [eraseDups_append, hn, removeAll]
  rcases Nat.le_total m n with hmn | hnm
  · have hnone : (l.take m).filter (fun a => !(l.take n).elem a) = [] := by
      rw [filter_eq_nil_iff]
      intro a ha
      have hmem := (take_sublist_take_left hmn).subset ha
      simp [hmem]
    rw [hnone, max_eq_left hmn, eraseDups_nil, append_nil]
  · have hsplit : l.take m = l.take n ++ (l.drop n).take (m - n) := by
      rw [← take_add, Nat.add_sub_cancel' hnm]
    have hm := h.sublist (take_sublist m l)
    rw [hsplit] at hm
    obtain ⟨-, hback, hdisjoint⟩ := nodup_append.mp hm
    have hfilter : (l.take m).filter (fun a => !(l.take n).elem a) = (l.drop n).take (m - n) := by
      rw [hsplit, filter_append]
      have hfront : (l.take n).filter (fun a => !(l.take n).elem a) = [] := by
        rw [filter_eq_nil_iff]
        intro a ha
        simp [ha]
      have hrest : ((l.drop n).take (m - n)).filter (fun a => !(l.take n).elem a)
          = (l.drop n).take (m - n) := by
        rw [filter_eq_self]
        intro a ha
        have hnot : a ∉ l.take n := fun hmem => hdisjoint a hmem a ha rfl
        simp [hnot]
      rw [hfront, hrest, nil_append]
    rw [hfilter, hback.eraseDups_eq, max_eq_right hnm, hsplit]

end List
