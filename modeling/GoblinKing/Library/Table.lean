import Mathlib.Data.List.Nodup
import Mathlib.Data.List.Basic
import Mathlib.Data.Finset.Card

/-!
# Tables with a primary key

A table over a key function `key` is a list of rows no two of which have the same key.
The rows stand in the order in which they were inserted. The operations are those of a
relational statement: find by key, select, count, insert, update where and delete where.
An update takes a proof that it keeps the key of every row, so that the primary key of a
table never has to be checked again.

The content of a table is described by `find?`: every operation has one lemma which says
what is found after it.
-/

/-- A table whose rows have pairwise distinct keys. -/
structure Table {κ ρ : Type} (key : ρ → κ) where
  rows : List ρ
  nodup : (rows.map key).Nodup
  deriving DecidableEq

namespace Table

variable {κ ρ : Type} {key : ρ → κ}

/-- The table without rows. -/
def empty : Table key :=
  ⟨[], List.nodup_nil⟩

/-- Two rows of a table with the same key are the same row. -/
theorem eq_of_key_eq (t : Table key) {r s : ρ} (hr : r ∈ t.rows) (hs : s ∈ t.rows)
    (h : key r = key s) :
  r = s
  := List.inj_on_of_nodup_map t.nodup hr hs h

/-- The rows that satisfy `p`, in insertion order. -/
def select (t : Table key) (p : ρ → Bool) : List ρ :=
  t.rows.filter p

/-- The number of rows that satisfy `p`. -/
def count (t : Table key) (p : ρ → Bool) : ℕ :=
  t.rows.countP p

/-- Replace every row that satisfies `p` by its image under `f`. -/
def update (t : Table key) (p : ρ → Bool) (f : ρ → ρ) (hf : ∀ r, key (f r) = key r) :
    Table key where
  rows := t.rows.map (fun r => if p r then f r else r)
  nodup := by
    have hkey : (key ∘ fun r => if p r then f r else r) = key := by
      funext r
      simp only [Function.comp]
      split
      · apply hf
      · rfl
    rw [List.map_map, hkey]
    apply t.nodup

/-- Remove every row that satisfies `p`. -/
def delete (t : Table key) (p : ρ → Bool) : Table key where
  rows := t.rows.filter (fun r => !p r)
  nodup := t.nodup.sublist (List.filter_sublist.map key)

/-- A row is in the table after an update when it is the image of a row that was. -/
theorem mem_update {t : Table key} {p : ρ → Bool} {f : ρ → ρ} {hf : ∀ r, key (f r) = key r}
    {r : ρ} :
  r ∈ (t.update p f hf).rows ↔ ∃ s ∈ t.rows, (if p s then f s else s) = r
  := List.mem_map

/-- The rows left by a deletion. -/
theorem mem_delete {t : Table key} {p : ρ → Bool} {r : ρ} :
  r ∈ (t.delete p).rows ↔ r ∈ t.rows ∧ p r = false
  := by
  simp [delete]

variable [DecidableEq κ]

/-- The row with the given key. -/
def find? (t : Table key) (k : κ) : Option ρ :=
  t.rows.find? (fun r => key r = k)

/-- Insert a row at the end; `none` when its key is taken. -/
def insert? (t : Table key) (r : ρ) : Option (Table key) :=
  if h : key r ∉ t.rows.map key then
    some ⟨t.rows ++ [r], by
      rw [List.map_append]
      apply List.Nodup.append t.nodup (List.nodup_singleton _)
      simpa using h⟩
  else
    none

/-- The row found under a key is the row of the table with that key. -/
theorem find?_eq_some {t : Table key} {k : κ} {r : ρ} :
  t.find? k = some r ↔ r ∈ t.rows ∧ key r = k
  := by
  constructor
  · intro h
    constructor
    · apply List.mem_of_find?_eq_some h
    · simpa using List.find?_some h
  · rintro ⟨hr, rfl⟩
    cases h : t.find? (key r) with
    | none =>
        have := List.find?_eq_none.mp h r hr
        simp at this
    | some s =>
        have hs : s ∈ t.rows := List.mem_of_find?_eq_some h
        have hk : key s = key r := by simpa using List.find?_some h
        rw [t.eq_of_key_eq hs hr hk]

/-- Nothing is found under a key that no row has. -/
theorem find?_eq_none {t : Table key} {k : κ} :
  t.find? k = none ↔ ∀ r ∈ t.rows, key r ≠ k
  := by
  simp [find?]

/-- The row found under a key has that key. -/
theorem key_of_find? {t : Table key} {k : κ} {r : ρ} (h : t.find? k = some r) :
  key r = k
  := (find?_eq_some.mp h).2

/-- The row found under a key is a row of the table. -/
theorem mem_of_find? {t : Table key} {k : κ} {r : ρ} (h : t.find? k = some r) :
  r ∈ t.rows
  := (find?_eq_some.mp h).1

/-- A row of the table is found under its own key. -/
theorem find?_of_mem {t : Table key} {r : ρ} (h : r ∈ t.rows) :
  t.find? (key r) = some r
  := find?_eq_some.mpr ⟨h, rfl⟩

@[simp]
theorem find?_empty (k : κ) :
  (empty : Table key).find? k = none
  := rfl

/-- Under each key an update leaves the image of the row that was there. -/
@[simp]
theorem find?_update (t : Table key) (p : ρ → Bool) (f : ρ → ρ) (hf : ∀ r, key (f r) = key r)
    (k : κ) :
  (t.update p f hf).find? k = (t.find? k).map (fun r => if p r then f r else r)
  := by
  cases h : t.find? k with
  | none =>
      rw [Option.map_none, find?_eq_none]
      intro r hr
      obtain ⟨s, hs, rfl⟩ := mem_update.mp hr
      have hne := find?_eq_none.mp h s hs
      split
      · rw [hf]
        apply hne
      · apply hne
  | some r =>
      obtain ⟨hr, hk⟩ := find?_eq_some.mp h
      rw [Option.map_some, find?_eq_some]
      constructor
      · apply mem_update.mpr
        use r
      · split
        · rw [hf, hk]
        · apply hk

/-- An update of the row with one key leaves every other row. -/
theorem find?_update_key (t : Table key) (k : κ) (f : ρ → ρ) (hf : ∀ r, key (f r) = key r)
    (k' : κ) :
  (t.update (fun r => decide (key r = k)) f hf).find? k'
    = if k' = k then (t.find? k).map f else t.find? k'
  := by
  rw [find?_update]
  cases h : t.find? k' with
  | none => grind
  | some r =>
      have hk := key_of_find? h
      grind

/-- Under each key a deletion leaves the row that was there, unless it is deleted. -/
theorem find?_delete (t : Table key) (p : ρ → Bool) (k : κ) :
  (t.delete p).find? k = (t.find? k).filter (fun r => !p r)
  := by
  cases h : t.find? k with
  | none =>
      rw [Option.filter_none, find?_eq_none]
      intro r hr
      apply find?_eq_none.mp h r (mem_delete.mp hr).1
  | some r =>
      obtain ⟨hr, hk⟩ := find?_eq_some.mp h
      cases hp : p r with
      | true =>
          rw [Option.filter_some_neg (by simp [hp]), find?_eq_none]
          intro s hs hsk
          obtain ⟨hs, hps⟩ := mem_delete.mp hs
          obtain rfl := t.eq_of_key_eq hs hr (hsk.trans hk.symm)
          simp [hp] at hps
      | false =>
          rw [Option.filter_some_pos (by simp [hp]), find?_eq_some]
          use mem_delete.mpr ⟨hr, hp⟩

/-- After a deletion by keys nothing is found under them. -/
theorem find?_delete_contains (t : Table key) (keys : List κ) (k : κ) :
  (t.delete (fun r => keys.contains (key r))).find? k = if k ∈ keys then none else t.find? k
  := by
  rw [find?_delete]
  cases h : t.find? k with
  | none => simp
  | some r =>
      rw [Option.filter_some, key_of_find? h]
      by_cases hk : k ∈ keys
      · simp [hk]
      · simp [hk]

/-- An insertion succeeds only for a key that is not taken. -/
theorem find?_of_insert? {t t' : Table key} {r : ρ} (h : t.insert? r = some t') :
  t.find? (key r) = none
  := by
  unfold insert? at h
  split at h
  case isTrue hn =>
    rw [find?_eq_none]
    intro s hs hk
    apply hn
    rw [← hk]
    apply List.mem_map_of_mem hs
  case isFalse => cases h

/-- A row whose key is not taken is inserted. -/
theorem exists_insert? {t : Table key} {r : ρ} (h : t.find? (key r) = none) :
  ∃ t', t.insert? r = some t'
  := by
  rw [insert?, dif_pos]
  · exact ⟨_, rfl⟩
  · rw [List.mem_map]
    rintro ⟨s, hs, hk⟩
    apply find?_eq_none.mp h s hs hk

/-- After an insertion the new row is found under its key and every other row under its
own. -/
theorem find?_insert? {t t' : Table key} {r : ρ} (h : t.insert? r = some t') (k : κ) :
  t'.find? k = if key r = k then some r else t.find? k
  := by
  have hnone := find?_of_insert? h
  unfold insert? at h
  split at h
  case isTrue =>
    obtain rfl := Option.some.inj h
    simp only [find?, List.find?_append] at hnone ⊢
    by_cases hk : key r = k
    · subst hk
      simp [hnone]
    · simp [hk]
  case isFalse => cases h

/-- The rows after an insertion. -/
theorem rows_insert? {t t' : Table key} {r : ρ} (h : t.insert? r = some t') :
  t'.rows = t.rows ++ [r]
  := by
  unfold insert? at h
  split at h
  case isTrue =>
    obtain rfl := Option.some.inj h
    rfl
  case isFalse => cases h

/-- Insert a row, or replace the row with its key. -/
def upsert (t : Table key) (r : ρ) : Table key where
  rows := if key r ∈ t.rows.map key then t.rows.map (fun s => if key s = key r then r else s)
    else t.rows ++ [r]
  nodup := by
    split
    case isTrue =>
      have hkey : (key ∘ fun s => if key s = key r then r else s) = key := by
        funext s
        simp only [Function.comp]
        split
        case isTrue h => rw [h]
        case isFalse => rfl
      rw [List.map_map, hkey]
      apply t.nodup
    case isFalse h =>
      rw [List.map_append, List.map_singleton, List.nodup_append]
      use t.nodup, List.nodup_singleton _
      intro k hk k' hk'
      obtain rfl := List.mem_singleton.mp hk'
      rintro rfl
      apply h hk

/-- The rows after an upsert. -/
theorem mem_upsert {t : Table key} {r s : ρ} :
  s ∈ (t.upsert r).rows ↔ s = r ∨ (s ∈ t.rows ∧ key s ≠ key r)
  := by
  simp only [upsert]
  split
  case isTrue h =>
    obtain ⟨old, hold, hkey⟩ := List.mem_map.mp h
    rw [List.mem_map]
    constructor
    · rintro ⟨u, hu, rfl⟩
      split
      case isTrue => exact .inl rfl
      case isFalse hne => exact .inr ⟨hu, hne⟩
    · rintro (rfl | ⟨hs, hne⟩)
      · use old, hold
        rw [if_pos hkey]
      · use s, hs
        rw [if_neg hne]
  case isFalse h =>
    rw [List.mem_append, List.mem_singleton]
    constructor
    · rintro (hs | rfl)
      · right
        use hs
        intro hkey
        apply h
        rw [← hkey]
        apply List.mem_map_of_mem hs
      · exact .inl rfl
    · rintro (rfl | ⟨hs, -⟩)
      · exact .inr rfl
      · exact .inl hs

/-- After an upsert its row is found under its key and every other row under its own. -/
theorem find?_upsert (t : Table key) (r : ρ) (k : κ) :
  (t.upsert r).find? k = if key r = k then some r else t.find? k
  := by
  split
  case isTrue hk =>
    apply find?_eq_some.mpr
    exact ⟨mem_upsert.mpr (.inl rfl), hk⟩
  case isFalse hk =>
    cases h : t.find? k with
    | none =>
        rw [find?_eq_none]
        intro s hs
        rcases mem_upsert.mp hs with rfl | ⟨hs, -⟩
        · apply hk
        · apply find?_eq_none.mp h s hs
    | some s =>
        obtain ⟨hs, rfl⟩ := find?_eq_some.mp h
        apply find?_eq_some.mpr
        exact ⟨mem_upsert.mpr (.inr ⟨hs, Ne.symm hk⟩), rfl⟩

/-! ### Counting -/

/-- When `q'` implies `q` except at one key, at most one more row satisfies `q'` than
satisfies `q` away from that key. -/
theorem count_le_succ (t : Table key) (k : κ) {q q' : ρ → Bool}
    (h : ∀ r ∈ t.rows, key r ≠ k → q' r → q r) :
  t.count q' ≤ t.count (fun r => q r && !decide (key r = k)) + 1
  := by
  obtain ⟨rows, nodup⟩ := t
  simp only [count] at *
  induction rows with
  | nil => simp
  | cons r rows ih =>
      obtain ⟨hr, nodup'⟩ := List.nodup_cons.mp nodup
      by_cases hk : key r = k
      · -- the other rows have other keys, so on them `q'` implies `q`
        have hrest : rows.countP q' ≤ rows.countP (fun s => q s && !decide (key s = k)) := by
          apply List.countP_mono_left
          intro s hs hq
          have hsk : key s ≠ k := by
            rintro rfl
            apply hr
            rw [hk]
            apply List.mem_map_of_mem hs
          simp [hsk, h s (List.mem_cons_of_mem _ hs) hsk hq]
        rw [List.countP_cons, List.countP_cons_of_neg (by simp [hk])]
        split <;> omega
      · have hrest := ih nodup' (fun s hs => h s (List.mem_cons_of_mem _ hs))
        have hq := h r List.mem_cons_self hk
        by_cases hq' : q' r
        · rw [List.countP_cons_of_pos hq', List.countP_cons_of_pos (by simp [hk, hq hq'])]
          omega
        · rw [List.countP_cons_of_neg hq', List.countP_cons]
          omega

/-- Whether the one row with a given key satisfies `p` is read off the number of rows
that a statement restricted to that key hits. -/
theorem count_key_eq_one {t : Table key} {k : κ} {p : ρ → Bool} :
  t.count (fun r => decide (key r = k) && p r) = 1 ↔ ∃ r, t.find? k = some r ∧ p r
  := by
  have hle : t.count (fun r => decide (key r = k) && p r) ≤ 1 := by
    have h : t.count (fun r => decide (key r = k) && p r)
        ≤ t.count (fun r => false && !decide (key r = k)) + 1 := by
      apply count_le_succ
      simp +contextual
    simpa [count] using h
  have hpos : 0 < t.count (fun r => decide (key r = k) && p r)
      ↔ ∃ r, t.find? k = some r ∧ p r := by
    simp only [count, List.countP_pos_iff, Bool.and_eq_true, decide_eq_true_eq, find?_eq_some]
    constructor
    · rintro ⟨r, hr, hk, hp⟩
      use r, ⟨hr, hk⟩
    · rintro ⟨r, ⟨hr, hk⟩, hp⟩
      use r, hr, hk
  rw [← hpos]
  omega

/-- No row, or exactly one, is hit by a statement restricted to one key. -/
theorem count_key_beq_one {t : Table key} {k : κ} {p : ρ → Bool} :
  (t.count (fun r => decide (key r = k) && p r) == 1) = (t.find? k).any p
  := by
  rw [Bool.eq_iff_iff, beq_iff_eq, count_key_eq_one, Option.any_eq_true]

/-! ### Keys -/

/-- The keys of the rows that satisfy `p`. -/
def keys (t : Table key) (p : ρ → Bool) : Finset κ where
  val := (t.select p).map key
  nodup := t.nodup.sublist (List.filter_sublist.map key)

omit [DecidableEq κ] in
/-- There are as many keys as rows. -/
theorem card_keys (t : Table key) (p : ρ → Bool) :
  (t.keys p).card = t.count p
  := by
  rw [count, List.countP_eq_length_filter]
  apply List.length_map

/-- The keys of the rows that satisfy `p` are those under which such a row is found. -/
theorem mem_keys {t : Table key} {p : ρ → Bool} {k : κ} :
  k ∈ t.keys p ↔ ∃ r, t.find? k = some r ∧ p r
  := by
  have hmem : k ∈ t.keys p ↔ k ∈ (t.select p).map key := Iff.rfl
  rw [hmem, List.mem_map]
  constructor
  · rintro ⟨r, hr, rfl⟩
    obtain ⟨hr, hp⟩ := List.mem_filter.mp hr
    use r, find?_of_mem hr
  · rintro ⟨r, hr, hp⟩
    use r, List.mem_filter.mpr ⟨mem_of_find? hr, hp⟩, key_of_find? hr

/-- The keys other than one key. -/
theorem erase_keys (t : Table key) (p : ρ → Bool) (k : κ) :
  (t.keys p).erase k = t.keys (fun r => p r && !decide (key r = k))
  := by
  ext k'
  rw [Finset.mem_erase, mem_keys, mem_keys]
  constructor
  · rintro ⟨hne, r, hr, hp⟩
    use r, hr
    simp [hp, key_of_find? hr, hne]
  · rintro ⟨r, hr, hp⟩
    simp only [Bool.and_eq_true, Bool.not_eq_true', decide_eq_false_iff_not] at hp
    rw [key_of_find? hr] at hp
    use hp.2, r, hr, hp.1

end Table
