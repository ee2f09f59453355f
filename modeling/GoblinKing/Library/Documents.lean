import Mathlib.Data.List.Nodup

/-!
# Documents

Nested dictionaries with leaves of any type, and the deep merge of two of them: an entry of the
second takes the place of the entry of the first with that key, unless both are dictionaries,
which are merged in turn.
-/

/-- A leaf, or a dictionary of documents. -/
inductive Document (α : Type) where
  | leaf (a : α)
  | dict (entries : List (String × Document α))

/-- The entries of a dictionary. -/
abbrev Dictionary (α : Type) := List (String × Document α)

namespace Dictionary

variable {α β : Type}

/-- Set the value of a key: in its place, or behind the other entries. -/
def set (entries : List (String × β)) (key : String) (value : β) : List (String × β) :=
  match entries with
  | [] => [(key, value)]
  | (k, v) :: rest => if k = key then (key, value) :: rest else (k, v) :: set rest key value

mutual

/-- Merge the entries of the second dictionary into the first one, one after the other. -/
def deepMerge (base : Dictionary α) : Dictionary α → Dictionary α
  | [] => base
  | (key, value) :: override =>
      deepMerge (set base key (mergedInto (base.lookup key) value)) override

/-- The value that is set for a key with an old value. -/
def mergedInto (old : Option (Document α)) : Document α → Document α
  | .leaf a => .leaf a
  | .dict override =>
      match old with
      | some (.dict base) => .dict (deepMerge base override)
      | _ => .dict override

end

/-- The dictionary of the fields that have a value. -/
def ofFields (fields : List (String × Option β)) : List (String × β) :=
  fields.filterMap (fun (key, value) => value.map (fun v => (key, v)))

end Dictionary

/-- All dictionaries of a document have distinct keys. -/
inductive Document.Distinct {α : Type} : Document α → Prop where
  | leaf (a : α) : Distinct (.leaf a)
  | dict {entries : Dictionary α} (keys : (entries.map Prod.fst).Nodup)
      (values : ∀ entry ∈ entries, Distinct entry.2) :
      Distinct (.dict entries)

namespace Dictionary

variable {α β : Type}

/-! ### Setting a key -/

theorem lookup_cons (entry : String × β) (rest : List (String × β)) (key : String) :
  (entry :: rest).lookup key = if key = entry.1 then some entry.2 else rest.lookup key
  := by
  rw [List.lookup_cons]
  split
  case h_1 h => rw [if_pos (beq_iff_eq.mp h)]
  case h_2 h => rw [if_neg (beq_eq_false_iff_ne.mp h)]

theorem lookup_set_self (entries : List (String × β)) (key : String) (value : β) :
  (set entries key value).lookup key = some value
  := by
  induction entries with
  | nil => simp [set]
  | cons entry rest ih =>
      obtain ⟨k, v⟩ := entry
      rw [set]
      split
      case isTrue => simp
      case isFalse h =>
        rw [lookup_cons, if_neg (Ne.symm h), ih]

theorem lookup_set_of_ne (entries : List (String × β)) {key k : String} (h : k ≠ key)
    (value : β) :
  (set entries key value).lookup k = entries.lookup k
  := by
  induction entries with
  | nil => rw [set, lookup_cons, if_neg h]
  | cons entry rest ih =>
      obtain ⟨k', v⟩ := entry
      rw [set]
      split
      case isTrue heq =>
        subst heq
        rw [lookup_cons, lookup_cons, if_neg h, if_neg h]
      case isFalse => rw [lookup_cons, lookup_cons, ih]

/-- What is in a dictionary after a key is set was there before, or is what was set. -/
theorem mem_set {entries : List (String × β)} {key : String} {value : β} {entry : String × β}
    (h : entry ∈ set entries key value) :
  entry ∈ entries ∨ entry = (key, value)
  := by
  induction entries with
  | nil =>
      right
      apply List.mem_singleton.mp h
  | cons first rest ih =>
      obtain ⟨k, v⟩ := first
      rw [set] at h
      split at h
      case isTrue =>
        rcases List.mem_cons.mp h with rfl | hrest
        · right
          rfl
        · left
          apply List.mem_cons_of_mem _ hrest
      case isFalse =>
        rcases List.mem_cons.mp h with rfl | hrest
        · left
          apply List.mem_cons_self
        · rcases ih hrest with hold | hnew
          · left
            apply List.mem_cons_of_mem _ hold
          · right
            apply hnew

/-- Setting a key keeps the keys distinct. -/
theorem nodup_set {entries : List (String × β)} (h : (entries.map Prod.fst).Nodup) (key : String)
    (value : β) :
  ((set entries key value).map Prod.fst).Nodup
  := by
  induction entries with
  | nil => simp [set]
  | cons entry rest ih =>
      obtain ⟨k, v⟩ := entry
      obtain ⟨hnot, hrest⟩ := List.nodup_cons.mp h
      rw [set]
      split
      case isTrue heq =>
        subst heq
        apply h
      case isFalse hne =>
        rw [List.map_cons, List.nodup_cons]
        refine ⟨?_, ih hrest⟩
        intro hmem
        obtain ⟨entry, hentry, hkey⟩ := List.mem_map.mp hmem
        rcases mem_set hentry with hold | rfl
        · apply hnot
          rw [← hkey]
          apply List.mem_map_of_mem hold
        · apply hne hkey.symm

/-! ### Merging -/

/-- Where there was nothing, a value is set as it is. -/
theorem map_mergedInto_none (value : Option (Document α)) :
  value.map (mergedInto none) = value
  := by
  cases value with
  | none => rfl
  | some value => cases value <;> rfl

/-- What a dictionary is set to is a dictionary. -/
theorem mergedInto_dict (old : Option (Document α)) (override : Dictionary α) :
  ∃ entries, mergedInto old (.dict override) = .dict entries
  := by
  cases old with
  | none => exact ⟨override, rfl⟩
  | some old =>
      cases old with
      | leaf a => exact ⟨override, rfl⟩
      | dict base => exact ⟨_, rfl⟩

/-- The entries of a deep merge: those of the second dictionary, merged into the old ones, and
else those of the first. -/
theorem lookup_deepMerge {override : Dictionary α} (h : (override.map Prod.fst).Nodup)
    (base : Dictionary α) (key : String) :
  (deepMerge base override).lookup key
    = ((override.lookup key).map (mergedInto (base.lookup key))).or (base.lookup key)
  := by
  induction override generalizing base with
  | nil => simp [deepMerge]
  | cons entry rest ih =>
      obtain ⟨k, v⟩ := entry
      obtain ⟨hnot, hrest⟩ := List.nodup_cons.mp h
      rw [deepMerge, ih hrest, lookup_cons]
      split
      case isTrue hk =>
        subst hk
        have hnone : rest.lookup key = none := by
          rw [List.lookup_eq_none_iff]
          intro entry hentry
          rw [bne_iff_ne]
          intro heq
          apply hnot
          apply List.mem_map.mpr
          use entry, hentry, heq.symm
        simp [hnone, lookup_set_self]
      case isFalse hk => rw [lookup_set_of_ne base hk]

/-! ### Fields -/

theorem ofFields_cons (key : String) (value : Option β) (fields : List (String × Option β)) :
  ofFields ((key, value) :: fields)
    = (match value with
      | none => ofFields fields
      | some v => (key, v) :: ofFields fields)
  := by
  cases value <;> simp [ofFields]

/-- The keys of fields with a value are among the keys of the fields. -/
theorem keys_ofFields_sublist (fields : List (String × Option β)) :
  ((ofFields fields).map Prod.fst).Sublist (fields.map Prod.fst)
  := by
  induction fields with
  | nil => simp [ofFields]
  | cons field fields ih =>
      obtain ⟨key, value⟩ := field
      rw [ofFields_cons]
      cases value with
      | none => apply ih.cons
      | some v => apply ih.cons_cons

/-- What is in the place of a field is its value. -/
theorem lookup_ofFields {fields : List (String × Option β)} (h : (fields.map Prod.fst).Nodup)
    (key : String) :
  (ofFields fields).lookup key = (fields.lookup key).join
  := by
  induction fields with
  | nil => simp [ofFields]
  | cons field fields ih =>
      obtain ⟨k, value⟩ := field
      obtain ⟨hnot, hfields⟩ := List.nodup_cons.mp h
      rw [ofFields_cons, lookup_cons]
      by_cases hk : key = k
      · subst hk
        rw [if_pos rfl]
        cases value with
        | some v => rw [lookup_cons, if_pos rfl, Option.join_some]
        | none =>
            rw [Option.join_some, List.lookup_eq_none_iff]
            intro entry hentry
            rw [bne_iff_ne]
            intro heq
            apply hnot
            apply (keys_ofFields_sublist fields).subset
            apply List.mem_map.mpr
            use entry, hentry, heq.symm
      · rw [if_neg hk]
        cases value with
        | some v => rw [lookup_cons, if_neg hk, ih hfields]
        | none => rw [ih hfields]

end Dictionary

namespace Document.Distinct

variable {α : Type}

theorem nodup {entries : Dictionary α} (h : (Document.dict entries).Distinct) :
  (entries.map Prod.fst).Nodup
  := by
  cases h with
  | dict hkeys => apply hkeys

theorem of_mem {entries : Dictionary α} (h : (Document.dict entries).Distinct)
    {entry : String × Document α} (hentry : entry ∈ entries) :
  entry.2.Distinct
  := by
  cases h with
  | dict hkeys hvalues => apply hvalues entry hentry

theorem of_lookup {entries : Dictionary α} (h : (Document.dict entries).Distinct) {key : String}
    {value : Document α} (hvalue : entries.lookup key = some value) :
  value.Distinct
  := by
  obtain ⟨before, after, rfl, -⟩ := List.lookup_eq_some_iff.mp hvalue
  have hmem : (key, value) ∈ before ++ (key, value) :: after := by
    simp
  apply h.of_mem hmem

/-- The fields that have a value have distinct keys, when all fields have. -/
theorem ofFields {fields : List (String × Option (Document α))} (h : (fields.map Prod.fst).Nodup)
    (hvalues : ∀ field ∈ fields, ∀ value ∈ field.2, value.Distinct) :
  (Document.dict (Dictionary.ofFields fields)).Distinct
  := by
  apply Distinct.dict (h.sublist (Dictionary.keys_ofFields_sublist fields))
  intro entry hentry
  simp only [Dictionary.ofFields, List.mem_filterMap, Option.map_eq_some_iff] at hentry
  obtain ⟨field, hfield, value, hvalue, rfl⟩ := hentry
  apply hvalues field hfield value hvalue

theorem tail {entry : String × Document α} {rest : Dictionary α}
    (h : (Document.dict (entry :: rest)).Distinct) :
  (Document.dict rest).Distinct
  := by
  apply Distinct.dict (List.nodup_cons.mp h.nodup).2
  intro entry' hentry'
  apply h.of_mem (List.mem_cons_of_mem _ hentry')

theorem set {entries : Dictionary α} (h : (Document.dict entries).Distinct) (key : String)
    {value : Document α} (hvalue : value.Distinct) :
  (Document.dict (Dictionary.set entries key value)).Distinct
  := by
  apply Distinct.dict (Dictionary.nodup_set h.nodup key value)
  intro entry hentry
  rcases Dictionary.mem_set hentry with hold | rfl
  · apply h.of_mem hold
  · apply hvalue

mutual

/-- A deep merge keeps the keys distinct. -/
theorem deepMerge {base : Dictionary α} (hbase : (Document.dict base).Distinct) :
    ∀ {override : Dictionary α}, (Document.dict override).Distinct →
      (Document.dict (Dictionary.deepMerge base override)).Distinct
  | [], _ => by
      rw [Dictionary.deepMerge]
      apply hbase
  | (key, value) :: override, h => by
      rw [Dictionary.deepMerge]
      have hvalue : value.Distinct := h.of_mem List.mem_cons_self
      apply deepMerge (hbase.set key _) h.tail
      apply mergedInto _ hvalue
      intro old hold
      apply hbase.of_lookup hold

/-- What is set for a key has distinct keys. -/
theorem mergedInto {old : Option (Document α)} (hold : ∀ document ∈ old, document.Distinct) :
    ∀ {value : Document α}, value.Distinct → (Dictionary.mergedInto old value).Distinct
  | .leaf a, h => by
      rw [Dictionary.mergedInto]
      apply h
  | .dict override, h => by
      cases old with
      | none => apply h
      | some old =>
          cases old with
          | leaf a => apply h
          | dict base =>
              rw [Dictionary.mergedInto]
              apply deepMerge _ h
              apply hold _ rfl

end

end Document.Distinct
