import Mathlib.Data.List.Perm.Basic
import Mathlib.Data.List.Nodup

/-!
# Definitions of names

A list of definitions gives values to names, and the last definition of a name wins. What a list
that is put together from several lists gives to a name depends on which of these define it.
-/

namespace Definitions

variable {κ κ' ν ν' : Type} [DecidableEq κ] [DecidableEq κ']

/-- The value of a name after a list of definitions: that of its last definition. -/
def effective : List (κ × ν) → κ → Option ν
  | [], _ => none
  | (key, value) :: rest, name =>
      (effective rest name).or (if key = name then some value else none)

/-- A list of definitions defines a name. -/
def Defines (definitions : List (κ × ν)) (name : κ) : Prop :=
  ∃ value, (name, value) ∈ definitions

/-- Later definitions are asked first. -/
theorem effective_append (earlier later : List (κ × ν)) (name : κ) :
  effective (earlier ++ later) name = (effective later name).or (effective earlier name)
  := by
  induction earlier with
  | nil => simp [effective]
  | cons definition earlier ih => simp [effective, ih, Option.or_assoc]

/-- A name has no value exactly when no definition is for it. -/
theorem effective_eq_none {definitions : List (κ × ν)} {name : κ} :
  effective definitions name = none ↔ ¬ Defines definitions name
  := by
  induction definitions with
  | nil => simp [effective, Defines]
  | cons definition definitions ih =>
      obtain ⟨key, value⟩ := definition
      simp only [effective, Option.or_eq_none_iff, ih, Defines]
      by_cases hkey : key = name
      · subst hkey
        simp
      · simp [hkey, Ne.symm hkey]

/-- The value of a name is one that it was defined with. -/
theorem mem_of_effective {definitions : List (κ × ν)} {name : κ} {value : ν}
    (h : effective definitions name = some value) :
  (name, value) ∈ definitions
  := by
  induction definitions with
  | nil => simp [effective] at h
  | cons definition definitions ih =>
      obtain ⟨key, first⟩ := definition
      simp only [effective, Option.or_eq_some_iff] at h
      rcases h with h | ⟨-, h⟩
      · apply List.mem_cons_of_mem _ (ih h)
      · split at h
        case isTrue hkey =>
          cases h
          subst hkey
          apply List.mem_cons_self
        case isFalse => cases h

/-- A definition has effect when every name is defined once. -/
theorem effective_eq_some {definitions : List (κ × ν)} {name : κ} {value : ν}
    (hdistinct : (definitions.map Prod.fst).Nodup) :
  effective definitions name = some value ↔ (name, value) ∈ definitions
  := by
  constructor
  · apply mem_of_effective
  · intro hmem
    cases h : effective definitions name with
    | none => cases effective_eq_none.mp h ⟨value, hmem⟩
    | some other =>
        have hother := mem_of_effective h
        have hsame := List.inj_on_of_nodup_map hdistinct hother hmem rfl
        cases hsame
        rfl

/-- The order of the definitions does not matter when every name is defined once. -/
theorem effective_perm {definitions others : List (κ × ν)} (hperm : definitions.Perm others)
    (hdistinct : (definitions.map Prod.fst).Nodup) (name : κ) :
  effective definitions name = effective others name
  := by
  have hothers : (others.map Prod.fst).Nodup := (hperm.map Prod.fst).nodup_iff.mp hdistinct
  apply Option.ext
  intro value
  rw [effective_eq_some hdistinct, effective_eq_some hothers, hperm.mem_iff]

/-- Distinct names may be renamed, and values be mapped. -/
theorem effective_map {rename : κ → κ'} (hrename : Function.Injective rename) (f : ν → ν')
    (definitions : List (κ × ν)) (name : κ) :
  effective (definitions.map (Prod.map rename f)) (rename name) = (effective definitions name).map f
  := by
  induction definitions with
  | nil => rfl
  | cons definition definitions ih =>
      obtain ⟨key, value⟩ := definition
      simp only [List.map_cons, Prod.map_apply, effective, ih, hrename.eq_iff, Option.map_or]
      split <;> rfl

omit [DecidableEq κ] [DecidableEq κ'] in
/-- A name outside the range of a renaming is not defined. -/
theorem not_defines_map {rename : κ → κ'} {f : ν → ν'} {definitions : List (κ × ν)} {name : κ'}
    (h : ∀ key, rename key ≠ name) :
  ¬ Defines (definitions.map (Prod.map rename f)) name
  := by
  rintro ⟨value, hmem⟩
  obtain ⟨⟨key, other⟩, -, heq⟩ := List.mem_map.mp hmem
  cases h key (Prod.ext_iff.mp heq).1

/-- Definitions in between are without effect on a name that they do not define, and on a name
that is defined behind them. -/
theorem effective_between {earlier between later : List (κ × ν)} {name : κ}
    (h : ¬ Defines between name ∨ Defines later name) :
  effective (earlier ++ between ++ later) name = effective (earlier ++ later) name
  := by
  rw [effective_append, effective_append, effective_append]
  rcases h with hbetween | hlater
  · rw [effective_eq_none.mpr hbetween, Option.none_or]
  · cases heq : effective later name with
    | none => cases effective_eq_none.mp heq hlater
    | some value => simp

/-- Definitions for other names are without effect. -/
theorem effective_append_of_not_defines {earlier later : List (κ × ν)} {name : κ}
    (h : ¬ Defines earlier name) :
  effective (earlier ++ later) name = effective later name
  := by
  rw [effective_append, effective_eq_none.mpr h, Option.or_none]

end Definitions
