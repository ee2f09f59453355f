import GoblinKing.Library.JsonDepth
import GoblinKing.Library.JsonTexts

/-!
# JSON values that are read, edited and written

What a reader returns is nested to a limit, has every key once, and has strings and floats of certain
kinds. Such a value is written, and read again as what it is. Setting the fields of an object keeps all
this, and so does a writer that knows no infinite floats and writes `null` for them.
-/

open Utf8

namespace Json

/-- The fields of an object. -/
abbrev Fields := List (List CodePoint × Json)

/-! ### Limits -/

/-- A value that is nested to a limit, with the keys of a dictionary, with integers that are not too
long, and with floats and strings of certain kinds. -/
inductive Within (floats : FloatText → Prop) (texts : List CodePoint → Prop) : ℕ → Json → Prop where
  | null (limit : ℕ) : Within floats texts limit .null
  | bool (limit : ℕ) (b : Bool) : Within floats texts limit (.bool b)
  | int (limit : ℕ) {n : ℤ} (h : (Nat.toDigits 10 n.natAbs).length ≤ 4300) :
      Within floats texts limit (.int n)
  | float (limit : ℕ) {text : FloatText} (h : floats text) : Within floats texts limit (.float text)
  | str (limit : ℕ) {text : List CodePoint} (h : texts text) : Within floats texts limit (.str text)
  | arr {limit : ℕ} {items : List Json} (h : ∀ item ∈ items, Within floats texts limit item) :
      Within floats texts (limit + 1) (.arr items)
  | obj {limit : ℕ} {fields : Fields} (hdistinct : (fields.map Prod.fst).Nodup)
      (hkeys : ∀ field ∈ fields, texts field.1)
      (hvalues : ∀ field ∈ fields, Within floats texts limit field.2) :
      Within floats texts (limit + 1) (.obj fields)

variable {floats : FloatText → Prop} {texts : List CodePoint → Prop} {limit : ℕ}

theorem itemsFailure_eq_none {recursionLimit : ℕ} {items : List Json}
    (h : ∀ item ∈ items, dumpsFailure recursionLimit item = none) :
  itemsFailure recursionLimit items = none
  := by
  induction items with
  | nil => rfl
  | cons item items ih =>
      obtain ⟨hitem, hitems⟩ := List.forall_mem_cons.mp h
      rw [itemsFailure, hitem, ih hitems, Option.or_none]

theorem fieldsFailure_eq_none {recursionLimit : ℕ} {fields : Fields}
    (h : ∀ field ∈ fields, dumpsFailure recursionLimit field.2 = none) :
  fieldsFailure recursionLimit fields = none
  := by
  induction fields with
  | nil => rfl
  | cons field fields ih =>
      obtain ⟨hfield, hfields⟩ := List.forall_mem_cons.mp h
      rw [fieldsFailure, hfield, ih hfields, Option.or_none]

/-- A value within a limit is written. -/
theorem Within.dumpsFailure_eq_none {value : Json} (h : Within floats texts limit value) :
  ∀ recursionLimit, limit ≤ recursionLimit → dumpsFailure recursionLimit value = none
  := by
  induction h with
  | null | bool | float | str => exact fun _ _ => rfl
  | int _ hlength => exact fun _ _ => if_neg (Nat.not_lt.mpr hlength)
  | arr _ ih =>
      intro recursionLimit hle
      obtain ⟨recursionLimit, rfl⟩ := Nat.exists_eq_add_of_lt hle
      exact itemsFailure_eq_none (fun item hitem => ih item hitem _ (Nat.le_add_right _ _))
  | obj _ _ _ ih =>
      intro recursionLimit hle
      obtain ⟨recursionLimit, rfl⟩ := Nat.exists_eq_add_of_lt hle
      exact fieldsFailure_eq_none (fun field hfield => ih field hfield _ (Nat.le_add_right _ _))

/-- What is nested to a limit is nested to any larger one. -/
theorem Within.mono {value : Json} (h : Within floats texts limit value) :
  ∀ limit', limit ≤ limit' → Within floats texts limit' value
  := by
  induction h with
  | null => exact fun limit' _ => .null limit'
  | bool _ b => exact fun limit' _ => .bool limit' b
  | int _ h => exact fun limit' _ => .int limit' h
  | float _ h => exact fun limit' _ => .float limit' h
  | str _ h => exact fun limit' _ => .str limit' h
  | arr _ ih =>
      intro limit' hle
      obtain ⟨limit', rfl⟩ := Nat.exists_eq_add_of_lt hle
      exact .arr (fun item hitem => ih item hitem _ (Nat.le_add_right _ _))
  | obj hdistinct hkeys _ ih =>
      intro limit' hle
      obtain ⟨limit', rfl⟩ := Nat.exists_eq_add_of_lt hle
      exact .obj hdistinct hkeys (fun field hfield => ih field hfield _ (Nat.le_add_right _ _))

/-- An object without fields is within every limit that allows for an object. -/
theorem Within.empty (limit : ℕ) :
  Within floats texts (limit + 1) (.obj [])
  := .obj List.nodup_nil (List.forall_mem_nil _) (List.forall_mem_nil _)

/-- The text of a value with the floats and the characters of texts determines it. -/
theorem Within.legible {P : CodePoint → Prop} {value : Json} (h : Within floats texts limit value)
    (hfloats : ∀ text, floats text → IsFloatText text.val)
    (htexts : ∀ text, texts text → ∀ c ∈ text, P c) :
  Legible P value
  := by
  induction h with
  | null => exact .null
  | bool _ b => exact .bool b
  | int _ _ => exact .int _
  | float _ h => exact .float (hfloats _ h)
  | str _ h => exact .str (htexts _ h)
  | arr _ ih => exact .arr ih
  | obj _ hkeys _ ih => exact .obj (fun field hfield => htexts _ (hkeys field hfield)) ih

/-! ### Setting a field -/

/-- Set the value of a key: in its place, or behind the other fields. -/
def setField (key : List CodePoint) (value : Json) : Fields → Fields
  | [] => [(key, value)]
  | field :: fields =>
      if field.1 = key then (key, value) :: fields else field :: setField key value fields

theorem lookup_field (field : List CodePoint × Json) (fields : Fields) (key : List CodePoint) :
  (field :: fields).lookup key = if key = field.1 then some field.2 else fields.lookup key
  := by
  rw [List.lookup_cons]
  split
  case h_1 h => rw [if_pos (beq_iff_eq.mp h)]
  case h_2 h => rw [if_neg (beq_eq_false_iff_ne.mp h)]

theorem lookup_setField (key : List CodePoint) (value : Json) (fields : Fields)
    (other : List CodePoint) :
  (setField key value fields).lookup other = if other = key then some value else fields.lookup other
  := by
  induction fields with
  | nil => rw [setField, lookup_field]
  | cons field fields ih =>
      rw [setField]
      split
      case isTrue hname =>
        subst hname
        rw [lookup_field, lookup_field]
        split <;> rfl
      case isFalse hname =>
        rw [lookup_field, lookup_field, ih]
        split
        case isTrue hother => rw [if_neg (hother ▸ hname)]
        case isFalse => rfl

/-- What all fields have and the set one has, all fields have afterwards. -/
theorem forall_mem_setField {Q : List CodePoint × Json → Prop} {fields : Fields}
    (h : ∀ field ∈ fields, Q field) {key : List CodePoint} {value : Json} (hnew : Q (key, value)) :
  ∀ field ∈ setField key value fields, Q field
  := by
  induction fields with
  | nil => exact List.forall_mem_singleton.mpr hnew
  | cons field fields ih =>
      obtain ⟨hfield, hfields⟩ := List.forall_mem_cons.mp h
      rw [setField]
      split
      case isTrue => exact List.forall_mem_cons.mpr ⟨hnew, hfields⟩
      case isFalse => exact List.forall_mem_cons.mpr ⟨hfield, ih hfields⟩

/-- Setting a field keeps the keys distinct. -/
theorem nodup_setField {fields : Fields} (h : (fields.map Prod.fst).Nodup) (key : List CodePoint)
    (value : Json) :
  ((setField key value fields).map Prod.fst).Nodup
  := by
  induction fields with
  | nil => exact List.nodup_singleton key
  | cons field fields ih =>
      obtain ⟨hnot, hfields⟩ := List.nodup_cons.mp h
      rw [setField]
      split
      case isTrue hkey =>
        rw [← hkey]
        exact h
      case isFalse hkey =>
        rw [List.map_cons, List.nodup_cons]
        refine ⟨?_, ih hfields⟩
        intro hmem
        obtain ⟨other, hother, hname⟩ := List.mem_map.mp hmem
        have hkeep : ∀ other ∈ setField key value fields, other.1 ≠ field.1 :=
          forall_mem_setField (fun other hother heq => hnot (List.mem_map.mpr ⟨other, hother, heq⟩))
            (Ne.symm hkey)
        exact hkeep other hother hname

/-- Setting a field keeps an object within the limits. -/
theorem Within.setField {fields : Fields} (h : Within floats texts (limit + 1) (.obj fields))
    {key : List CodePoint} (hkey : texts key) {value : Json} (hvalue : Within floats texts limit value) :
  Within floats texts (limit + 1) (.obj (setField key value fields))
  := by
  cases h with
  | obj hdistinct hkeys hvalues =>
      exact .obj (nodup_setField hdistinct key value) (forall_mem_setField hkeys hkey)
        (forall_mem_setField hvalues hvalue)

/-- The value of a key is within the limits. -/
theorem Within.of_lookup {fields : Fields} (h : Within floats texts (limit + 1) (.obj fields))
    {key : List CodePoint} {value : Json} (hlookup : fields.lookup key = some value) :
  Within floats texts limit value
  := by
  cases h with
  | obj _ _ hvalues =>
      obtain ⟨before, after, rfl, -⟩ := List.lookup_eq_some_iff.mp hlookup
      exact hvalues (key, value) (List.mem_append_right _ List.mem_cons_self)

/-- Some of the fields of an object are an object within the limits. -/
theorem Within.sublist {fields fields' : Fields} (h : Within floats texts (limit + 1) (.obj fields))
    (hsub : fields'.Sublist fields) :
  Within floats texts (limit + 1) (.obj fields')
  := by
  cases h with
  | obj hdistinct hkeys hvalues =>
      exact .obj (hdistinct.sublist (hsub.map _)) (fun field hfield => hkeys field (hsub.subset hfield))
        (fun field hfield => hvalues field (hsub.subset hfield))

/-! ### Floats that are not finite -/

/-- A float is a number, and not infinite. -/
def FiniteFloat (text : FloatText) : Prop :=
  text.val ≠ ofChars "NaN".toList ∧ text.val ≠ ofChars "Infinity".toList
    ∧ text.val ≠ ofChars "-Infinity".toList

instance decidableFiniteFloat (text : FloatText) : Decidable (FiniteFloat text) :=
  inferInstanceAs (Decidable (_ ∧ _ ∧ _))

mutual

/-- The value with `null` for the floats that are not finite. -/
def finite : Json → Json
  | .null => .null
  | .bool b => .bool b
  | .int n => .int n
  | .float text => if FiniteFloat text then .float text else .null
  | .str text => .str text
  | .arr items => .arr (finiteItems items)
  | .obj fields => .obj (finiteFields fields)

/-- The items of an array with `null` for the floats that are not finite. -/
def finiteItems : List Json → List Json
  | [] => []
  | item :: items => finite item :: finiteItems items

/-- The fields of an object with `null` for the floats that are not finite. -/
def finiteFields : Fields → Fields
  | [] => []
  | (key, value) :: fields => (key, finite value) :: finiteFields fields

end

/-- Every float of a value is finite. -/
inductive AllFinite : Json → Prop where
  | null : AllFinite .null
  | bool (b : Bool) : AllFinite (.bool b)
  | int (n : ℤ) : AllFinite (.int n)
  | float {text : FloatText} (h : FiniteFloat text) : AllFinite (.float text)
  | str (text : List CodePoint) : AllFinite (.str text)
  | arr {items : List Json} (h : ∀ item ∈ items, AllFinite item) : AllFinite (.arr items)
  | obj {fields : Fields} (h : ∀ field ∈ fields, AllFinite field.2) : AllFinite (.obj fields)

theorem finiteItems_eq_map (items : List Json) :
  finiteItems items = items.map finite
  := by
  induction items with
  | nil => rfl
  | cons item items ih => rw [finiteItems, ih, List.map_cons]

theorem finiteFields_eq_map (fields : Fields) :
  finiteFields fields = fields.map (fun field => (field.1, finite field.2))
  := by
  induction fields with
  | nil => rfl
  | cons field fields ih => rw [finiteFields, ih, List.map_cons]

theorem map_fst_finiteFields (fields : Fields) :
  (finiteFields fields).map Prod.fst = fields.map Prod.fst
  := by
  rw [finiteFields_eq_map, List.map_map]
  rfl

/-- Infinite floats are left out of a value within the limits. -/
theorem Within.finite {value : Json} (h : Within floats texts limit value) :
  Within floats texts limit value.finite
  := by
  induction h with
  | null limit => exact .null limit
  | bool limit b => exact .bool limit b
  | int limit h => exact .int limit h
  | float limit h =>
      rw [Json.finite]
      split
      case isTrue => exact .float limit h
      case isFalse => exact .null limit
  | str limit h => exact .str limit h
  | arr _ ih =>
      rw [Json.finite, finiteItems_eq_map]
      exact .arr (List.forall_mem_map.mpr ih)
  | obj hdistinct hkeys _ ih =>
      rw [Json.finite]
      apply Within.obj
      · rw [map_fst_finiteFields]
        exact hdistinct
      · rw [finiteFields_eq_map]
        exact List.forall_mem_map.mpr hkeys
      · rw [finiteFields_eq_map]
        exact List.forall_mem_map.mpr ih

mutual

/-- What is left has finite floats only. -/
theorem allFinite_finite : (value : Json) → AllFinite value.finite
  | .null => .null
  | .bool b => .bool b
  | .int n => .int n
  | .float text => by
      rw [finite]
      split
      case isTrue h => exact .float h
      case isFalse => exact .null
  | .str text => .str text
  | .arr items => .arr (allFinite_finiteItems items)
  | .obj fields => .obj (allFinite_finiteFields fields)

theorem allFinite_finiteItems : (items : List Json) → ∀ item ∈ finiteItems items, AllFinite item
  | [] => List.forall_mem_nil _
  | item :: items =>
      List.forall_mem_cons.mpr ⟨allFinite_finite item, allFinite_finiteItems items⟩

theorem allFinite_finiteFields :
    (fields : Fields) → ∀ field ∈ finiteFields fields, AllFinite field.2
  | [] => List.forall_mem_nil _
  | (_, value) :: fields =>
      List.forall_mem_cons.mpr ⟨allFinite_finite value, allFinite_finiteFields fields⟩

end

theorem map_eq_self {α : Type*} {f : α → α} {xs : List α} (h : ∀ x ∈ xs, f x = x) :
  xs.map f = xs
  := (List.map_congr_left h).trans (List.map_id _)

/-- Nothing is left out exactly when every float is finite. -/
theorem finite_eq_self_iff {value : Json} :
  value.finite = value ↔ AllFinite value
  := by
  constructor
  · intro h
    rw [← h]
    exact allFinite_finite value
  · intro h
    induction h with
    | null | bool | int | str => rfl
    | float h => rw [finite, if_pos h]
    | arr _ ih => rw [finite, finiteItems_eq_map, map_eq_self ih]
    | obj _ ih =>
        rw [finite, finiteFields_eq_map, map_eq_self]
        intro field hfield
        rw [ih field hfield]

theorem finiteFields_eq_self_iff {fields : Fields} :
  finiteFields fields = fields ↔ ∀ field ∈ fields, AllFinite field.2
  := by
  constructor
  · intro h
    rw [← h]
    exact allFinite_finiteFields fields
  · intro h
    exact Json.obj.inj (finite_eq_self_iff.mpr (.obj h))

end Json
