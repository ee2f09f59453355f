import Mathlib.Data.List.DropRight
import Mathlib.Data.List.Basic
import Mathlib.Data.List.Infix
import Mathlib.Algebra.GroupWithZero.Nat

/-!
# Words joined by a separator

A text is read as words that are joined by a separator. Normalising a text removes the empty
words, that is, separators at its ends and repeated ones. A normalised text is tidy: it has at
least one word, and none of them is empty. Cutting a text keeps its front, without separators
at the end.

A cut of a tidy text loses at most one separator more than what is beyond its length. For this
reason two tidy texts that agree when they are cut agree when they are cut shorter.
-/

namespace Labels

variable {α : Type} [DecidableEq α] (sep : α)

/-- The words of a text. -/
def words (l : List α) : List (List α) :=
  (l.splitOn sep).filter (fun word => !word.isEmpty)

/-- The words of a text, joined again. -/
def collapse (l : List α) : List α :=
  [sep].intercalate (words sep l)

/-- A text without empty words. -/
def Tidy (l : List α) : Prop :=
  ∀ word ∈ l.splitOn sep, word ≠ []

instance (l : List α) : Decidable (Tidy sep l) :=
  inferInstanceAs (Decidable (∀ word ∈ l.splitOn sep, word ≠ []))

/-- The front of a text, without separators at its end. -/
def cut (n : ℕ) (l : List α) : List α :=
  (l.take n).rdropWhile (fun c => c = sep)

variable {sep}

/-! ### Words -/

/-- The words on both sides of a separator. -/
theorem words_append (a b : List α) :
  words sep (a ++ sep :: b) = words sep a ++ words sep b
  := by
  rw [words, List.splitOn_append_cons_self, List.filter_append]
  rfl

/-- A separator in front adds no word. -/
theorem words_cons (b : List α) :
  words sep (sep :: b) = words sep b
  := words_append [] b

/-- The words of a tidy text are all that it is split into. -/
theorem Tidy.words_eq {l : List α} (h : Tidy sep l) :
  words sep l = l.splitOn sep
  := by
  apply List.filter_eq_self.mpr
  intro word hword
  simpa using h word hword

/-- A tidy text is the same after it is normalised. -/
theorem Tidy.collapse_eq {l : List α} (h : Tidy sep l) :
  collapse sep l = l
  := by
  rw [collapse, h.words_eq, List.intercalate_splitOn]

/-- A text without separators is tidy, unless it is empty. -/
theorem tidy_of_not_mem {l : List α} (hne : l ≠ []) (h : sep ∉ l) :
  Tidy sep l
  := by
  intro word hword
  rw [List.splitOn_eq_singleton h, List.mem_singleton] at hword
  rw [hword]
  apply hne

/-- Two texts joined by a separator are tidy when both are. -/
theorem tidy_append {a b : List α} :
  Tidy sep (a ++ sep :: b) ↔ Tidy sep a ∧ Tidy sep b
  := by
  unfold Tidy
  rw [List.splitOn_append_cons_self]
  simp only [List.mem_append, or_imp, forall_and]

/-- A tidy text is not empty. -/
theorem Tidy.ne_nil {l : List α} (h : Tidy sep l) :
  l ≠ []
  := by
  rintro rfl
  apply h [] _ rfl
  rw [List.splitOn_nil]
  apply List.mem_singleton_self

/-- A tidy text does not begin with a separator. -/
theorem not_tidy_cons (b : List α) :
  ¬ Tidy sep (sep :: b)
  := by
  intro h
  apply (tidy_append (a := []).mp h).1.ne_nil rfl

/-- A tidy text does not end with a separator. -/
theorem not_tidy_concat (a : List α) :
  ¬ Tidy sep (a ++ [sep])
  := by
  intro h
  apply (tidy_append.mp h).2.ne_nil rfl

omit [DecidableEq α] in
/-- Separators that are the same on a text split it in the same way. -/
theorem splitOnP_congr {p q : α → Bool} {l : List α} (h : ∀ c ∈ l, p c = q c) :
  l.splitOnP p = l.splitOnP q
  := by
  induction l with
  | nil => rfl
  | cons c l ih =>
      rw [List.splitOnP_cons_eq_if_modifyHead, List.splitOnP_cons_eq_if_modifyHead,
        ih (fun d hd => h d (List.mem_cons_of_mem c hd)), h c List.mem_cons_self]

omit [DecidableEq α] in
/-- The pieces between separators are as long as the text, with a separator in front. -/
theorem sum_length_splitOnP (p : α → Bool) (l : List α) :
  ((l.splitOnP p).map (fun piece => piece.length + 1)).sum = l.length + 1
  := by
  induction l with
  | nil => rfl
  | cons c l ih =>
      rw [List.splitOnP_cons_eq_if_modifyHead]
      obtain ⟨head, tail, htail⟩ := List.exists_cons_of_ne_nil (List.splitOnP_ne_nil p l)
      rw [htail] at ih ⊢
      split
      · simpa [Nat.add_comm] using ih
      · simp only [List.modifyHead_cons, List.map_cons, List.sum_cons, List.length_cons] at ih ⊢
        omega

omit [DecidableEq α] in
/-- A character of a text is a separator, or a character of a piece between separators. -/
theorem mem_splitOnP {p : α → Bool} {c : α} {l : List α} (h : c ∈ l) :
  p c = true ∨ ∃ piece ∈ l.splitOnP p, c ∈ piece
  := by
  induction l with
  | nil => cases h
  | cons d l ih =>
      rw [List.splitOnP_cons_eq_if_modifyHead]
      obtain ⟨head, tail, htail⟩ := List.exists_cons_of_ne_nil (List.splitOnP_ne_nil p l)
      rw [htail, List.modifyHead_cons]
      rw [htail] at ih
      rcases List.mem_cons.mp h with rfl | h
      · by_cases hc : p c = true
        · exact .inl hc
        · right
          rw [if_neg hc]
          exact ⟨c :: head, List.mem_cons_self, List.mem_cons_self⟩
      · rcases ih h with hc | ⟨piece, hpiece, hmem⟩
        · exact .inl hc
        · right
          split
          · exact ⟨piece, List.mem_cons_of_mem [] hpiece, hmem⟩
          · rcases List.mem_cons.mp hpiece with rfl | hpiece
            · exact ⟨d :: piece, List.mem_cons_self, List.mem_cons_of_mem d hmem⟩
            · exact ⟨piece, List.mem_cons_of_mem _ hpiece, hmem⟩

omit [DecidableEq α] in
/-- A piece between separators holds none, and only characters of the text. -/
theorem of_mem_splitOnP {p : α → Bool} {c : α} {l piece : List α} (hpiece : piece ∈ l.splitOnP p)
    (h : c ∈ piece) :
  p c = false ∧ c ∈ l
  := by
  induction l generalizing piece with
  | nil =>
      obtain rfl := List.mem_singleton.mp hpiece
      cases h
  | cons d l ih =>
      rw [List.splitOnP_cons_eq_if_modifyHead] at hpiece
      split at hpiece
      case isTrue =>
        rcases List.mem_cons.mp hpiece with rfl | hpiece
        · cases h
        · obtain ⟨hc, hmem⟩ := ih hpiece h
          use hc, List.mem_cons_of_mem d hmem
      case isFalse hd =>
        obtain ⟨head, tail, htail⟩ := List.exists_cons_of_ne_nil (List.splitOnP_ne_nil p l)
        rw [htail] at hpiece ih
        rw [List.modifyHead_cons] at hpiece
        rcases List.mem_cons.mp hpiece with rfl | hpiece
        · rcases List.mem_cons.mp h with rfl | h
          · use Bool.eq_false_iff.mpr hd, List.mem_cons_self
          · obtain ⟨hc, hmem⟩ := ih List.mem_cons_self h
            use hc, List.mem_cons_of_mem d hmem
        · obtain ⟨hc, hmem⟩ := ih (List.mem_cons_of_mem head hpiece) h
          use hc, List.mem_cons_of_mem d hmem

/-- The pieces of a text whose characters are replaced. -/
theorem splitOn_map {β : Type} (f : β → α) (l : List β) :
  (l.map f).splitOn sep = (l.splitOnP (fun c => f c = sep)).map (List.map f)
  := by
  induction l with
  | nil => rfl
  | cons c l ih =>
      rw [List.map_cons, List.splitOn_cons_eq_if_modifyHead, ih,
        List.splitOnP_cons_eq_if_modifyHead]
      by_cases hc : f c = sep
      · simp [hc]
      · obtain ⟨head, tail, htail⟩ :=
          List.exists_cons_of_ne_nil (List.splitOnP_ne_nil (fun c => decide (f c = sep)) l)
        simp [hc, htail]

/-- The words of a normalised text are those of the text. -/
theorem splitOn_collapse {l : List α} (h : words sep l ≠ []) :
  (collapse sep l).splitOn sep = words sep l
  := by
  apply List.splitOn_intercalate sep _ h
  intro word hword hsep
  have hpiece := (List.mem_filter.mp hword).1
  rw [List.splitOn_eq_splitOnP] at hpiece
  simpa using (of_mem_splitOnP hpiece hsep).1

/-- A normalised text is tidy, if it has a word. -/
theorem tidy_collapse {l : List α} (h : words sep l ≠ []) :
  Tidy sep (collapse sep l)
  := by
  intro word hword
  rw [splitOn_collapse h] at hword
  simpa using (List.mem_filter.mp hword).2

omit [DecidableEq α] in
/-- A character of joined words is the separator, or a character of a word. -/
theorem mem_intercalate {c : α} (list : List (List α)) (h : c ∈ [sep].intercalate list) :
  c = sep ∨ ∃ word ∈ list, c ∈ word
  := by
  induction list with
  | nil => cases h
  | cons word rest ih =>
      cases rest with
      | nil =>
          rw [List.intercalate_singleton] at h
          exact .inr ⟨word, List.mem_cons_self, h⟩
      | cons next rest =>
          rw [List.intercalate_cons_cons, List.mem_append, List.mem_append] at h
          rcases h with (h | h) | h
          · exact .inr ⟨word, List.mem_cons_self, h⟩
          · exact .inl (List.mem_singleton.mp h)
          · rcases ih h with h | ⟨w, hw, h⟩
            · exact .inl h
            · exact .inr ⟨w, List.mem_cons_of_mem word hw, h⟩

/-- What stands before the first separator is read back. -/
theorem append_cons_inj_first {a a' b b' : List α} (ha : sep ∉ a) (ha' : sep ∉ a')
    (h : a ++ sep :: b = a' ++ sep :: b') :
  a = a' ∧ b = b'
  := by
  have hsplit := congrArg (List.splitOn sep) h
  rw [List.splitOn_append_cons_self_of_not_mem ha, List.splitOn_append_cons_self_of_not_mem ha',
    List.cons.injEq] at hsplit
  obtain ⟨rfl, -⟩ := hsplit
  use rfl
  apply List.tail_eq_of_cons_eq (List.append_cancel_left h)

/-- What stands after the last separator is read back. -/
theorem append_cons_inj_last {a a' b b' : List α} (hb : sep ∉ b) (hb' : sep ∉ b')
    (h : a ++ sep :: b = a' ++ sep :: b') :
  a = a' ∧ b = b'
  := by
  have hreverse := congrArg List.reverse h
  simp only [List.reverse_append, List.reverse_cons, List.append_assoc,
    List.singleton_append] at hreverse
  obtain ⟨hback, hfront⟩ := append_cons_inj_first
    (List.mem_reverse.not.mpr hb) (List.mem_reverse.not.mpr hb') hreverse
  exact ⟨List.reverse_inj.mp hfront, List.reverse_inj.mp hback⟩

/-! ### Cuts -/

/-- What is dropped from the end of a text is separators. -/
theorem exists_rdropWhile_append (sep : α) (l : List α) :
  ∃ k, l = l.rdropWhile (fun c => c = sep) ++ List.replicate k sep
  := by
  use (l.rtakeWhile (fun c => c = sep)).length
  conv_lhs => rw [← List.rdropWhile_append_rtakeWhile (p := fun c => decide (c = sep)) (l := l)]
  congr 1
  apply List.eq_replicate_iff.mpr
  use rfl
  intro c hc
  simpa using List.mem_rtakeWhile_imp hc

/-- Separators at the end of a text are dropped. -/
theorem rdropWhile_append_replicate (l : List α) (k : ℕ) :
  (l ++ List.replicate k sep).rdropWhile (fun c => c = sep) = l.rdropWhile (fun c => c = sep)
  := by
  induction k with
  | zero => rw [List.replicate_zero, List.append_nil]
  | succ k ih =>
      rw [List.replicate_succ', ← List.append_assoc,
        List.rdropWhile_concat_pos (fun c => decide (c = sep)) _ _ (decide_eq_true rfl), ih]

/-- Two texts of one length that agree without the separators at their ends are the same. -/
theorem eq_of_rdropWhile_eq {a b : List α}
    (h : a.rdropWhile (fun c => c = sep) = b.rdropWhile (fun c => c = sep))
    (hlength : a.length = b.length) :
  a = b
  := by
  obtain ⟨j, ha⟩ := exists_rdropWhile_append sep a
  obtain ⟨k, hb⟩ := exists_rdropWhile_append sep b
  have hjk : j = k := by
    have hla := congrArg List.length ha
    have hlb := congrArg List.length hb
    rw [List.length_append, List.length_replicate] at hla hlb
    rw [h] at hla
    omega
  rw [ha, hb, h, hjk]

/-- A text that does not end with a separator is not cut when it is short enough. -/
theorem Tidy.cut_of_length_le {l : List α} (h : Tidy sep l) {n : ℕ} (hn : l.length ≤ n) :
  cut sep n l = l
  := by
  rw [cut, List.take_of_length_le hn, List.rdropWhile_eq_self_iff]
  intro hl hlast
  have hsplit := List.dropLast_append_getLast hl
  rw [of_decide_eq_true hlast] at hsplit
  rw [← hsplit] at h
  apply not_tidy_concat l.dropLast h

/-- Cutting a text twice is cutting it at the shorter length. -/
theorem cut_cut (l : List α) {m n : ℕ} (hmn : m ≤ n) :
  cut sep m (cut sep n l) = cut sep m l
  := by
  obtain ⟨k, hk⟩ := exists_rdropWhile_append sep (l.take n)
  have htake : l.take m = (l.take n).take m := by
    rw [List.take_take, min_eq_left hmn]
  rw [cut, cut, cut, htake]
  conv_rhs => rw [hk, List.take_append, List.take_replicate, rdropWhile_append_replicate]

/-- Two texts that agree when they are cut agree when they are cut shorter. -/
theorem cut_eq_of_le {a b : List α} {m n : ℕ} (hmn : m ≤ n) (h : cut sep n a = cut sep n b) :
  cut sep m a = cut sep m b
  := by
  rw [← cut_cut a hmn, h, cut_cut b hmn]

/-- A cut is not longer than its length. -/
theorem length_cut_le (n : ℕ) (l : List α) :
  (cut sep n l).length ≤ n
  := by
  calc (cut sep n l).length ≤ (l.take n).length := (List.rdropWhile_prefix _ _).length_le
    _ ≤ n := List.length_take_le n l

/-- A cut of a text that does not begin with a separator is not empty. -/
theorem cut_cons {sep c : α} (h : c ≠ sep) (n : ℕ) (l : List α) :
  ∃ rest, cut sep (n + 1) (c :: l) = c :: rest
  := by
  have hfront : cut sep (n + 1) (c :: l) <+: c :: l :=
    (List.rdropWhile_prefix _ _).trans (List.take_prefix _ _)
  cases hcut : cut sep (n + 1) (c :: l) with
  | nil =>
      rw [cut, List.take_succ_cons, List.rdropWhile_eq_nil_iff] at hcut
      exact absurd (of_decide_eq_true (hcut c List.mem_cons_self)) h
  | cons d rest =>
      rw [hcut, List.cons_prefix_cons] at hfront
      use rest
      rw [hfront.1]

/-- No cut of a tidy text is empty. -/
theorem Tidy.cut_ne_nil {l : List α} (h : Tidy sep l) {n : ℕ} (hn : n ≠ 0) :
  cut sep n l ≠ []
  := by
  obtain ⟨c, rest, rfl⟩ := List.exists_cons_of_ne_nil h.ne_nil
  obtain ⟨m, rfl⟩ := Nat.exists_eq_succ_of_ne_zero hn
  have hc : c ≠ sep := by
    rintro rfl
    apply not_tidy_cons rest h
  obtain ⟨rest', hcut⟩ := cut_cons hc m rest
  rw [hcut]
  apply List.cons_ne_nil

/-- The end of a text is cut by itself, as long as a character of it is left. -/
theorem cut_append (p l : List α) {n : ℕ} (h : cut sep n l ≠ []) :
  cut sep (p.length + n) (p ++ l) = p ++ cut sep n l
  := by
  rw [cut, List.take_length_add_append]
  obtain ⟨k, hk⟩ := exists_rdropWhile_append sep (l.take n)
  rw [hk, ← List.append_assoc, rdropWhile_append_replicate, List.rdropWhile_eq_self_iff.mpr]
  · rfl
  · intro hne hlast
    unfold cut at h
    rw [List.getLast_append_of_ne_nil _ h] at hlast
    apply List.rdropWhile_last_not _ _ h hlast

/-- What is beyond the length of a cut does not matter. -/
theorem cut_append_of_le (p l : List α) {n : ℕ} (h : n ≤ p.length) :
  cut sep n (p ++ l) = cut sep n p
  := by
  rw [cut, cut, List.take_append_of_le_length h]

/-- Two texts of one length that agree when they are cut have the same front. -/
theorem cut_eq_cut_iff {a b : List α} (hlength : a.length = b.length) (n : ℕ) :
  cut sep n a = cut sep n b ↔ a.take n = b.take n
  := by
  constructor
  · intro h
    apply eq_of_rdropWhile_eq h
    rw [List.length_take, List.length_take, hlength]
  · intro h
    rw [cut, cut, h]

end Labels
