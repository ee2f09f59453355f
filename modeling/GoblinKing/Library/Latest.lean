import Mathlib.Data.List.MinMax

/-!
# The latest row under a key

A log of rows that carry a key and a time. The latest row under a key is the first of the
rows with that key whose time none of them exceeds. A row that is appended becomes the latest
one under its key when it is later than all rows with that key, and changes nothing under any
other key.
-/

namespace Latest

variable {ρ κ τ : Type} [DecidableEq κ] [LinearOrder τ]

/-- The latest row under a key. -/
def latest (key : ρ → κ) (time : ρ → τ) (rows : List ρ) (k : κ) : Option ρ :=
  (rows.filter (fun r => key r = k)).argmax time

variable {key : ρ → κ} {time : ρ → τ} {rows : List ρ} {k : κ}

/-- The latest row is a row with the key, and no row with the key is later. -/
theorem latest_spec {r : ρ} (h : latest key time rows k = some r) :
  r ∈ rows ∧ key r = k ∧ ∀ s ∈ rows, key s = k → time s ≤ time r
  := by
  have hmem : r ∈ rows.filter (fun r => key r = k) := List.argmax_mem h
  rw [List.mem_filter, decide_eq_true_eq] at hmem
  refine ⟨hmem.1, hmem.2, ?_⟩
  intro s hs hk
  have hs' : s ∈ rows.filter (fun r => key r = k) := List.mem_filter.mpr ⟨hs, decide_eq_true hk⟩
  apply List.le_of_mem_argmax hs' h

/-- There is no latest row exactly when no row has the key. -/
theorem latest_eq_none :
  latest key time rows k = none ↔ ∀ r ∈ rows, key r ≠ k
  := by
  simp [latest, List.filter_eq_nil_iff]

/-- A row that is appended changes nothing under another key. -/
theorem latest_concat_of_ne {row : ρ} (hk : key row ≠ k) :
  latest key time (rows ++ [row]) k = latest key time rows k
  := by
  rw [latest, List.filter_append, List.filter_singleton, decide_eq_false hk]
  simp [latest]

/-- A row that is appended is the latest under its key when all others are earlier. -/
theorem latest_concat_self {row : ρ} (hearlier : ∀ r ∈ rows, key r = key row → time r < time row) :
  latest key time (rows ++ [row]) (key row) = some row
  := by
  rw [latest, List.filter_append, List.filter_singleton, decide_eq_true rfl]
  simp only [cond_true]
  rw [List.argmax_concat]
  cases h : latest key time rows (key row) with
  | none =>
      rw [latest] at h
      rw [h]
  | some r =>
      obtain ⟨hr, hk, -⟩ := latest_spec h
      rw [latest] at h
      rw [h]
      exact if_pos (hearlier r hr hk)

/-- A row that is appended leaves the latest one in place when some row with its key is not
earlier. -/
theorem latest_concat_of_le {row r : ρ} (hr : r ∈ rows) (hk : key r = key row)
    (hle : time row ≤ time r) :
  latest key time (rows ++ [row]) (key row) = latest key time rows (key row)
  := by
  cases h : latest key time rows (key row) with
  | none => cases latest_eq_none.mp h r hr hk
  | some s =>
      obtain ⟨-, -, hlast⟩ := latest_spec h
      rw [latest, List.filter_append, List.filter_singleton, decide_eq_true rfl]
      simp only [cond_true]
      rw [latest] at h
      rw [List.argmax_concat, h]
      exact if_neg (hle.trans (hlast r hr hk)).not_gt

end Latest
