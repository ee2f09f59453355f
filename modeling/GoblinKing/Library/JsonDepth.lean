import GoblinKing.Library.Json
import Mathlib.Order.Lattice
import Mathlib.Order.MinMax

/-!
# Nested JSON values

How deep the arrays and objects of a value are nested, and the writer of texts that gives up on what is
nested beyond a limit, or on integers that are too long.
-/

open Utf8

namespace Json

mutual

/-- How deep arrays and objects are nested. -/
def depth : Json → ℕ
  | .arr items => itemsDepth items + 1
  | .obj fields => fieldsDepth fields + 1
  | _ => 0

/-- The depth of the items of an array. -/
def itemsDepth : List Json → ℕ
  | [] => 0
  | item :: items => max (depth item) (itemsDepth items)

/-- The depth of the fields of an object. -/
def fieldsDepth : List (List CodePoint × Json) → ℕ
  | [] => 0
  | (_, value) :: fields => max (depth value) (fieldsDepth fields)

end

/-- Every key of an object is there once, as in a dictionary. -/
inductive KeysDistinct : Json → Prop where
  | null : KeysDistinct .null
  | bool (b : Bool) : KeysDistinct (.bool b)
  | int (n : ℤ) : KeysDistinct (.int n)
  | float (text : FloatText) : KeysDistinct (.float text)
  | str (text : List CodePoint) : KeysDistinct (.str text)
  | arr {items : List Json} (h : ∀ item ∈ items, KeysDistinct item) : KeysDistinct (.arr items)
  | obj {fields : List (List CodePoint × Json)} (hkeys : (fields.map Prod.fst).Nodup)
      (hvalues : ∀ field ∈ fields, KeysDistinct field.2) : KeysDistinct (.obj fields)

/-- What `json.dumps` raises. -/
inductive DumpsFailure where
  | valueError
  | recursionError
  deriving DecidableEq, Repr

mutual

/-- What `json.dumps` comes across first when containers can be nested to a limit: one that is nested
deeper, or an integer that is too long to be converted. -/
def dumpsFailure (recursionLimit : ℕ) : Json → Option DumpsFailure
  | .int n => if (Nat.toDigits 10 n.natAbs).length > 4300 then some .valueError else none
  | .arr items =>
      match recursionLimit with
      | 0 => some .recursionError
      | limit + 1 => itemsFailure limit items
  | .obj fields =>
      match recursionLimit with
      | 0 => some .recursionError
      | limit + 1 => fieldsFailure limit fields
  | _ => none

/-- What is come across first in the items of an array. -/
def itemsFailure (recursionLimit : ℕ) : List Json → Option DumpsFailure
  | [] => none
  | item :: items => (dumpsFailure recursionLimit item).or (itemsFailure recursionLimit items)

/-- What is come across first in the fields of an object. -/
def fieldsFailure (recursionLimit : ℕ) : List (List CodePoint × Json) → Option DumpsFailure
  | [] => none
  | (_, value) :: fields =>
      (dumpsFailure recursionLimit value).or (fieldsFailure recursionLimit fields)

end

/-- `json.dumps(value, separators=(",", ":"), ensure_ascii=False)` -/
def dumps (recursionLimit : ℕ) (value : Json) : Except DumpsFailure (List CodePoint) :=
  match dumpsFailure recursionLimit value with
  | some failure => .error failure
  | none => .ok (write escape value)

mutual

/-- What is not nested beyond the limit is not refused for its depth. -/
theorem dumpsFailure_of_depth_le {recursionLimit : ℕ} :
    (value : Json) → depth value ≤ recursionLimit →
    dumpsFailure recursionLimit value ≠ some .recursionError
  | .null, _ | .bool _, _ | .float _, _ | .str _, _ => by simp [dumpsFailure]
  | .int n, _ => by
      rw [dumpsFailure]
      split <;> simp
  | .arr items, h => by
      cases recursionLimit with
      | zero => cases h
      | succ limit => exact itemsFailure_of_depth_le items (Nat.le_of_succ_le_succ h)
  | .obj fields, h => by
      cases recursionLimit with
      | zero => cases h
      | succ limit => exact fieldsFailure_of_depth_le fields (Nat.le_of_succ_le_succ h)

theorem itemsFailure_of_depth_le {recursionLimit : ℕ} :
    (items : List Json) → itemsDepth items ≤ recursionLimit →
    itemsFailure recursionLimit items ≠ some .recursionError
  | [], _ => by simp [itemsFailure]
  | item :: items, h => by
      obtain ⟨hitem, hitems⟩ := max_le_iff.mp h
      rw [itemsFailure, ne_eq, Option.or_eq_some_iff, not_or]
      exact ⟨dumpsFailure_of_depth_le item hitem,
        fun hnone => itemsFailure_of_depth_le items hitems hnone.2⟩

theorem fieldsFailure_of_depth_le {recursionLimit : ℕ} :
    (fields : List (List CodePoint × Json)) → fieldsDepth fields ≤ recursionLimit →
    fieldsFailure recursionLimit fields ≠ some .recursionError
  | [], _ => by simp [fieldsFailure]
  | (_, value) :: fields, h => by
      obtain ⟨hvalue, hfields⟩ := max_le_iff.mp h
      rw [fieldsFailure, ne_eq, Option.or_eq_some_iff, not_or]
      exact ⟨dumpsFailure_of_depth_le value hvalue,
        fun hnone => fieldsFailure_of_depth_le fields hfields hnone.2⟩

end

end Json
