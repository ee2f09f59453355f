import GoblinKing.Library.Table

/-!
# Tables with a unique index

A unique index assigns an index value to some of the rows of a table, and no two rows have
the same one. A row without an index value is not in the index. An operation that would
break the index fails and leaves the table as it was.
-/

/-- A table whose rows have pairwise distinct index values, as far as they have any. -/
structure IndexedTable {κ ρ ι : Type} (key : ρ → κ) (index : ρ → Option ι) where
  table : Table key
  unique : (table.rows.filterMap index).Nodup

namespace IndexedTable

variable {κ ρ ι : Type} {key : ρ → κ} {index : ρ → Option ι}

/-- The table without rows. -/
def empty : IndexedTable key index :=
  ⟨.empty, List.nodup_nil⟩

/-- Remove every row that satisfies `p`. -/
def delete (t : IndexedTable key index) (p : ρ → Bool) : IndexedTable key index where
  table := t.table.delete p
  unique := t.unique.sublist (List.filter_sublist.filterMap index)

/-- Rows with the same index value are the same row. -/
theorem eq_of_index_eq (t : IndexedTable key index) {r s : ρ} {i : ι} (hr : r ∈ t.table.rows)
    (hs : s ∈ t.table.rows) (hri : index r = some i) (hsi : index s = some i) :
  r = s
  := by
  have unique := t.unique
  generalize t.table.rows = rows at hr hs unique
  induction rows with
  | nil => cases hr
  | cons head rows ih =>
      have hrest : (rows.filterMap index).Nodup :=
        unique.sublist ((List.sublist_cons_self head rows).filterMap index)
      have hclash : ∀ r' ∈ rows, index r' = some i → index head = some i → False := by
        intro r' hr' hi hhead
        rw [List.filterMap_cons_some hhead] at unique
        apply (List.nodup_cons.mp unique).1
        apply List.mem_filterMap.mpr
        use r'
      rw [List.mem_cons] at hr hs
      rcases hr with rfl | hr
      · rcases hs with rfl | hs
        · rfl
        · cases hclash s hs hsi hri
      · rcases hs with rfl | hs
        · cases hclash r hr hri hsi
        · apply ih hr hs hrest

variable [DecidableEq κ] [DecidableEq ι]

/-- The row with the given key. -/
def find? (t : IndexedTable key index) (k : κ) : Option ρ :=
  t.table.find? k

/-- The row with the given index value. -/
def findIndex? (t : IndexedTable key index) (i : ι) : Option ρ :=
  t.table.rows.find? (fun r => index r = some i)

/-- Insert a row; `none` when its key or its index value is taken. -/
def insert? (t : IndexedTable key index) (r : ρ) : Option (IndexedTable key index) :=
  match t.table.insert? r with
  | none => none
  | some table =>
      if h : (table.rows.filterMap index).Nodup then
        some ⟨table, h⟩
      else
        none

/-- Replace every row that satisfies `p` by its image under `f`; `none` when that would
break the index. -/
def update? (t : IndexedTable key index) (p : ρ → Bool) (f : ρ → ρ)
    (hf : ∀ r, key (f r) = key r) : Option (IndexedTable key index) :=
  let table := t.table.update p f hf
  if h : (table.rows.filterMap index).Nodup then
    some ⟨table, h⟩
  else
    none

omit [DecidableEq ι] in
@[simp]
theorem find?_empty (k : κ) :
  (empty : IndexedTable key index).find? k = none
  := rfl

omit [DecidableEq ι] in
/-- What is found under a key has that key. -/
theorem key_of_find? {t : IndexedTable key index} {k : κ} {r : ρ} (h : t.find? k = some r) :
  key r = k
  := Table.key_of_find? h

omit [DecidableEq κ] in
/-- What is found under an index value is the row with that value. -/
theorem findIndex?_eq_some {t : IndexedTable key index} {i : ι} {r : ρ} :
  t.findIndex? i = some r ↔ r ∈ t.table.rows ∧ index r = some i
  := by
  constructor
  · intro h
    use List.mem_of_find?_eq_some h
    simpa using List.find?_some h
  · rintro ⟨hr, hi⟩
    cases h : t.findIndex? i with
    | none =>
        have hnone := List.find?_eq_none.mp h r hr
        simp [hi] at hnone
    | some s =>
        have hsi : index s = some i := by simpa using List.find?_some h
        rw [t.eq_of_index_eq hr (List.mem_of_find?_eq_some h) hi hsi]

/-- What is found under an index value is found under its key. -/
theorem findIndex?_eq_some_iff {t : IndexedTable key index} {i : ι} {r : ρ} :
  t.findIndex? i = some r ↔ t.find? (key r) = some r ∧ index r = some i
  := by
  rw [findIndex?_eq_some]
  constructor
  · rintro ⟨hr, hi⟩
    exact ⟨Table.find?_of_mem hr, hi⟩
  · rintro ⟨hr, hi⟩
    exact ⟨Table.mem_of_find? hr, hi⟩

/-- After an insertion the new row is found under its key and every other row under its
own. -/
theorem find?_insert? {t t' : IndexedTable key index} {r : ρ} (h : t.insert? r = some t')
    (k : κ) :
  t'.find? k = if key r = k then some r else t.find? k
  := by
  unfold insert? at h
  split at h
  · cases h
  case h_2 table htable =>
    split at h
    · cases h
      apply Table.find?_insert? htable
    · cases h

/-- After an insertion the new row is the last one. -/
theorem rows_of_insert? {t t' : IndexedTable key index} {r : ρ} (h : t.insert? r = some t') :
  t'.table.rows = t.table.rows ++ [r]
  := by
  unfold insert? at h
  split at h
  · cases h
  case h_2 table htable =>
    split at h
    · cases h
      apply Table.rows_insert? htable
    · cases h

/-- An insertion succeeds only for a key that is not taken. -/
theorem find?_of_insert? {t t' : IndexedTable key index} {r : ρ} (h : t.insert? r = some t') :
  t.find? (key r) = none
  := by
  unfold insert? at h
  split at h
  · cases h
  case h_2 table htable => apply Table.find?_of_insert? htable

/-- Under each key an update leaves the image of the row that was there. -/
theorem find?_update? {t t' : IndexedTable key index} {p : ρ → Bool} {f : ρ → ρ}
    {hf : ∀ r, key (f r) = key r} (h : t.update? p f hf = some t') (k : κ) :
  t'.find? k = (t.find? k).map (fun r => if p r then f r else r)
  := by
  simp only [update?] at h
  split at h
  · cases h
    apply Table.find?_update t.table p f hf
  · cases h

omit [DecidableEq ι] in
/-- Under each key a deletion leaves the row that was there, unless it is deleted. -/
theorem find?_delete (t : IndexedTable key index) (p : ρ → Bool) (k : κ) :
  (t.delete p).find? k = (t.find? k).filter (fun r => !p r)
  := Table.find?_delete t.table p k

/-- A row whose key and whose index value are not taken is inserted. -/
theorem exists_insert? {t : IndexedTable key index} {r : ρ} (hkey : t.find? (key r) = none)
    (hindex : ∀ s ∈ t.table.rows, ∀ i, index r = some i → index s ≠ some i) :
  ∃ t', t.insert? r = some t'
  := by
  obtain ⟨table, htable⟩ := Table.exists_insert? hkey
  have hunique : (table.rows.filterMap index).Nodup := by
    rw [Table.rows_insert? htable, List.filterMap_append]
    apply List.Nodup.append t.unique
    · cases h : index r with
      | none => simp [h]
      | some i => simp [h]
    · intro i hi hr
      obtain ⟨s, hs, hsi⟩ := List.mem_filterMap.mp hi
      obtain ⟨r', hr', hri⟩ := List.mem_filterMap.mp hr
      rw [List.mem_singleton.mp hr'] at hri
      apply hindex s hs i hri hsi
  rw [insert?, htable]
  use ⟨table, hunique⟩
  exact dif_pos hunique

end IndexedTable
