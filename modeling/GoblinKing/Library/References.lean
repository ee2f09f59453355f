import GoblinKing.Library.Table

/-!
# References between tables

Rows of one table, the children, refer to rows of another, the parents. Two states of both
tables are compared. The rows of the first state that the second has no more are missing.
Children keep their parents when no child that is left refers to a missing parent; they go
with their parents when all parents of a missing child are missing. When rows are deleted by
predicates, both are conditions on the predicates.
-/

namespace Table

variable {κ κ' ρ σ : Type} {key : ρ → κ} {key' : σ → κ'}

section

variable [DecidableEq ρ] {t t' : Table key} {p : ρ → Bool}

/-- The rows of a table that another state of it has no more. -/
def missing (t t' : Table key) : List ρ :=
  t.select (fun r => decide (r ∉ t'.rows))

/-- The rows that are missing after a deletion satisfy its predicate. -/
theorem missing_delete :
  t.missing (t.delete p) = t.select p
  := by
  apply List.filter_congr
  intro r hr
  cases hp : p r with
  | false => simp [mem_delete, hr, hp]
  | true => simp [mem_delete, hp]

/-- No row is missing from the table itself. -/
theorem missing_self :
  t.missing t = []
  := by
  simp [missing, select]

end

/-- The keys of the rows that satisfy a predicate. -/
theorem mem_map_select {t : Table key} {p : ρ → Bool} {k : κ} :
  k ∈ (t.select p).map key ↔ ∃ r ∈ t.rows, p r = true ∧ key r = k
  := by
  simp [select, and_assoc]

/-- The rows with the keys of the rows that satisfy a predicate are these rows. -/
theorem mem_keys_select [DecidableEq κ] {t : Table key} {p : ρ → Bool} {r : ρ} (hr : r ∈ t.rows) :
  key r ∈ (t.select p).map key ↔ p r = true
  := by
  constructor
  · intro h
    obtain ⟨s, hs, hp, hkey⟩ := mem_map_select.mp h
    rw [← t.eq_of_key_eq hs hr hkey]
    apply hp
  · intro hp
    apply mem_map_select.mpr ⟨r, hr, hp, rfl⟩

/-- To delete the rows with the keys of selected rows is to delete the selected rows. -/
theorem delete_keys [DecidableEq κ] (t : Table key) (p : ρ → Bool) :
  t.delete (fun r => decide (key r ∈ (t.select p).map key)) = t.delete p
  := by
  simp only [delete, mk.injEq]
  apply List.filter_congr
  intro r hr
  rw [Bool.not_inj_iff, Bool.eq_iff_iff, decide_eq_true_iff]
  apply mem_keys_select hr

/-! ### Children and parents -/

/-- Every parent of a child that is left is left. -/
def KeepsParents (refers : σ → ρ → Prop) (children' : Table key') (parents parents' : Table key) :
    Prop :=
  ∀ c ∈ children'.rows, ∀ r ∈ parents.rows, refers c r → r ∈ parents'.rows

/-- No parent of a missing child is left. -/
def GoWithParents (refers : σ → ρ → Prop) (children children' : Table key')
    (parents parents' : Table key) : Prop :=
  ∀ c ∈ children.rows, c ∉ children'.rows → ∀ r ∈ parents.rows, refers c r → r ∉ parents'.rows

variable {refers : σ → ρ → Prop} {children children' : Table key'} {parents parents' : Table key}
  {p : ρ → Bool} {q : σ → Bool}

/-- Children keep their parents when no parent is deleted. -/
theorem keepsParents_self :
  KeepsParents refers children parents parents
  := by
  intro c _ r hr _
  apply hr

/-- Children go with their parents when no child is deleted. -/
theorem goWithParents_self :
  GoWithParents refers children children parents parents'
  := by
  intro c hc hmissing
  cases hmissing hc

/-- Children keep their parents when with each parent all its children are deleted. -/
theorem keepsParents_delete :
  KeepsParents refers (children.delete q) parents (parents.delete p)
    ↔ ∀ c ∈ children.rows, ∀ r ∈ parents.rows, refers c r → p r = true → q c = true
  := by
  constructor
  · intro h c hc r hr hrefers hp
    by_contra hq
    have hkept := h c (mem_delete.mpr ⟨hc, Bool.not_eq_true _ ▸ hq⟩) r hr hrefers
    rw [(mem_delete.mp hkept).2] at hp
    cases hp
  · intro h c hc r hr hrefers
    obtain ⟨hc, hq⟩ := mem_delete.mp hc
    apply mem_delete.mpr
    use hr
    by_contra hp
    rw [h c hc r hr hrefers (Bool.not_eq_false _ ▸ hp)] at hq
    cases hq

/-- Children go with their parents when with each child all its parents are deleted. -/
theorem goWithParents_delete :
  GoWithParents refers children (children.delete q) parents (parents.delete p)
    ↔ ∀ c ∈ children.rows, q c = true → ∀ r ∈ parents.rows, refers c r → p r = true
  := by
  simp only [GoWithParents, mem_delete, not_and, Bool.not_eq_false]
  constructor
  · intro h c hc hq r hr hrefers
    apply h c hc (fun _ => hq) r hr hrefers hr
  · intro h c hc hq r hr hrefers _
    apply h c hc (hq hc) r hr hrefers

end Table
