import GoblinKing.Library.Table
import Mathlib.Order.Basic
import Mathlib.Logic.Function.Basic

/-!
# Tables whose rows expire

A store may forget lazily: a row stays in its table until somebody looks for it, or sweeps the table, after
its time has come. Such a table stands for the map of everything that was put into it and not dropped. As
long as the clock does not go back, nobody who looks for a row can tell the two apart.
-/

namespace Table

variable {κ ρ τ : Type} {key : ρ → κ} [DecidableEq κ] [LinearOrder τ] (expiresAt : ρ → τ)

/-- The row under a key, unless it has expired. -/
def fresh? (t : Table key) (now : τ) (k : κ) : Option ρ :=
  (t.find? k).filter (fun r => decide (now < expiresAt r))

/-- Drop the row under a key. -/
def drop (t : Table key) (k : κ) : Table key :=
  t.delete (fun r => decide (key r = k))

/-- Drop every row that has expired. -/
def sweep (t : Table key) (now : τ) : Table key :=
  t.delete (fun r => decide (expiresAt r ≤ now))

/-- A table has the rows of a map, except for some that had expired at the horizon. -/
def StandsFor (t : Table key) (horizon : τ) (m : κ → Option ρ) : Prop :=
  ∀ k, t.find? k = m k ∨ (t.find? k = none ∧ ∃ r, m k = some r ∧ expiresAt r ≤ horizon)

variable {expiresAt} {t : Table key} {horizon now : τ} {m : κ → Option ρ}

/-- The empty table stands for the empty map. -/
theorem standsFor_empty (horizon : τ) :
  StandsFor expiresAt (empty : Table key) horizon (fun _ => none)
  := fun k => .inl (find?_empty k)

/-- What is found is in the map, whatever the clock does. -/
theorem StandsFor.find? (h : StandsFor expiresAt t horizon m) {k : κ} {r : ρ}
    (hr : t.find? k = some r) :
  m k = some r
  := by
  rcases h k with hsame | ⟨hnone, -⟩
  · rw [← hsame, hr]
  · rw [hr] at hnone
    cases hnone

/-- At a time that is not before the horizon, a fresh row is found exactly when it is in the map. -/
theorem StandsFor.fresh? (h : StandsFor expiresAt t horizon m) (hnow : horizon ≤ now) (k : κ) :
  t.fresh? expiresAt now k = (m k).filter (fun r => decide (now < expiresAt r))
  := by
  rcases h k with hsame | ⟨hnone, r, hr, hexpired⟩
  · rw [Table.fresh?, hsame]
  · have hlate : ¬ now < expiresAt r := not_lt.mpr (hexpired.trans hnow)
    rw [Table.fresh?, hnone, hr, Option.filter_none, Option.filter_some,
      if_neg (by rwa [decide_eq_true_eq])]

/-- The horizon may be later. -/
theorem StandsFor.mono (h : StandsFor expiresAt t horizon m) (hnow : horizon ≤ now) :
  StandsFor expiresAt t now m
  := by
  intro k
  rcases h k with hsame | ⟨hnone, r, hr, hexpired⟩
  · exact .inl hsame
  · exact .inr ⟨hnone, r, hr, hexpired.trans hnow⟩

/-- A row that is put into the table is put into the map. -/
theorem StandsFor.upsert (h : StandsFor expiresAt t horizon m) (r : ρ) :
  StandsFor expiresAt (t.upsert r) horizon (Function.update m (key r) (some r))
  := by
  intro k
  rw [find?_upsert]
  by_cases hk : key r = k
  · subst hk
    rw [if_pos rfl, Function.update_self]
    exact .inl rfl
  · rw [if_neg hk, Function.update_of_ne (Ne.symm hk)]
    exact h k

/-- A row that is dropped from the table is dropped from the map. -/
theorem StandsFor.drop (h : StandsFor expiresAt t horizon m) (k : κ) :
  StandsFor expiresAt (t.drop k) horizon (Function.update m k none)
  := by
  intro k'
  rw [Table.drop, find?_delete]
  by_cases hk : k' = k
  · subst hk
    rw [Function.update_self]
    left
    rw [Option.filter_eq_none_iff]
    intro r hr
    simp [key_of_find? hr]
  · rw [Function.update_of_ne hk]
    have hkept : (t.find? k').filter (fun r => !decide (key r = k)) = t.find? k' := by
      cases hfind : t.find? k' with
      | none => rfl
      | some r => simp [key_of_find? hfind, hk]
    rw [hkept]
    exact h k'

/-- Expired rows may be dropped from the table only. -/
theorem StandsFor.delete (h : StandsFor expiresAt t horizon m) (hnow : horizon ≤ now) {p : ρ → Bool}
    (hp : ∀ r ∈ t.rows, p r = true → expiresAt r ≤ now) :
  StandsFor expiresAt (t.delete p) now m
  := by
  intro k
  rw [find?_delete]
  cases hfind : t.find? k with
  | none =>
      have hk := h.mono hnow k
      rw [hfind] at hk
      rwa [Option.filter_none]
  | some r =>
      have hr := h.find? hfind
      rw [Option.filter_some, hr]
      by_cases hdrop : p r = true
      · rw [hdrop, Bool.not_true, if_neg Bool.false_ne_true]
        exact .inr ⟨rfl, r, rfl, hp r (mem_of_find? hfind) hdrop⟩
      · rw [Bool.not_eq_true] at hdrop
        rw [hdrop, Bool.not_false, if_pos rfl]
        exact .inl rfl

/-- A sweep does not change what the table stands for. -/
theorem StandsFor.sweep (h : StandsFor expiresAt t horizon m) (hnow : horizon ≤ now) :
  StandsFor expiresAt (t.sweep expiresAt now) now m
  := by
  apply h.delete hnow
  intro r _ hr
  simpa using hr

/-- Nor does it change when an expired row is dropped. -/
theorem StandsFor.drop_expired (h : StandsFor expiresAt t horizon m) (hnow : horizon ≤ now) {k : κ}
    {r : ρ} (hr : t.find? k = some r) (hexpired : expiresAt r ≤ now) :
  StandsFor expiresAt (t.drop k) now m
  := by
  apply h.delete hnow
  intro s hs hk
  rw [decide_eq_true_eq, ← key_of_find? hr] at hk
  rwa [t.eq_of_key_eq hs (mem_of_find? hr) hk]

omit [DecidableEq κ] in
/-- After a sweep no row has expired. -/
theorem lt_of_mem_sweep {r : ρ} (hr : r ∈ (t.sweep expiresAt now).rows) :
  now < expiresAt r
  := by
  obtain ⟨-, hkept⟩ := mem_delete.mp hr
  simpa using hkept

end Table
