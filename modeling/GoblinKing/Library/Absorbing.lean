import GoblinKing.Library.Table

/-!
# Absorbing properties of rows

A property of rows is absorbing for a change of a table when every row that had it, and is
still there, has it. Insertions and deletions absorb every property; an update absorbs a
property exactly when it takes no row that has the property to one that has not.
-/

namespace Table

variable {κ ρ : Type} {key : ρ → κ} [DecidableEq κ] (q : ρ → Prop)

/-- A row with the property that is still there after a change has the property. -/
def Absorbs (t t' : Table key) : Prop :=
  ∀ k row row', t.find? k = some row → q row → t'.find? k = some row' → q row'

variable {q}

/-- A table that does not change absorbs every property. -/
theorem absorbs_refl (t : Table key) :
  Absorbs q t t
  := by
  intro k row row' hrow hq hrow'
  obtain rfl := Option.some.inj (hrow.symm.trans hrow')
  apply hq

/-- An insertion absorbs every property. -/
theorem absorbs_insert? {t t' : Table key} {r : ρ} (h : t.insert? r = some t') :
  Absorbs q t t'
  := by
  intro k row row' hrow hq hrow'
  rw [find?_insert? h] at hrow'
  split at hrow'
  case isTrue hk =>
    rw [← hk, find?_of_insert? h] at hrow
    cases hrow
  case isFalse =>
    obtain rfl := Option.some.inj (hrow.symm.trans hrow')
    apply hq

/-- A deletion absorbs every property. -/
theorem absorbs_delete (t : Table key) (p : ρ → Bool) :
  Absorbs q t (t.delete p)
  := by
  intro k row row' hrow hq hrow'
  rw [find?_delete, hrow] at hrow'
  obtain ⟨hsame, -⟩ := Option.filter_eq_some_iff.mp hrow'
  obtain rfl := Option.some.inj hsame
  apply hq

/-- An update absorbs a property exactly when no row that has it is taken to one that has
not. -/
theorem absorbs_update {t : Table key} {p : ρ → Bool} {f : ρ → ρ} {hf : ∀ r, key (f r) = key r} :
  Absorbs q t (t.update p f hf) ↔ ∀ row ∈ t.rows, p row = true → q row → q (f row)
  := by
  constructor
  · intro h row hrow hp hq
    apply h (key row) row (f row) (find?_of_mem hrow) hq
    rw [find?_update, find?_of_mem hrow, Option.map_some, if_pos hp]
  · intro h k row row' hrow hq hrow'
    rw [find?_update, hrow, Option.map_some] at hrow'
    obtain rfl := Option.some.inj hrow'
    split
    case isTrue hp => apply h row (mem_of_find? hrow) hp hq
    case isFalse => apply hq

end Table
