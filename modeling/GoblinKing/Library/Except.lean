import Mathlib.Data.List.Forall2
import Mathlib.Logic.Basic

/-!
# Results and errors

Computations that may fail, and how a successful one is taken apart.
-/

namespace Except

variable {ε α β : Type}

/-- A sequence succeeds when both of its parts do. -/
theorem bind_eq_ok {x : Except ε α} {f : α → Except ε β} {b : β} :
  (x >>= f) = .ok b ↔ ∃ a, x = .ok a ∧ f a = .ok b
  := by
  cases x with
  | ok a => simp [bind, Except.bind]
  | error e => simp [bind, Except.bind]

theorem ok_bind (a : α) (f : α → Except ε β) :
  (Except.ok a >>= f) = f a
  := rfl

/-- A computation succeeds whatever is made of its errors. -/
theorem mapError_eq_ok {ε' : Type} {x : Except ε α} {f : ε → ε'} {a : α} :
  x.mapError f = .ok a ↔ x = .ok a
  := by
  cases x with
  | ok a => simp [Except.mapError]
  | error e => simp [Except.mapError]

@[simp]
theorem isOk_ok (a : α) :
  (Except.ok a : Except ε α).isOk = true
  := rfl

@[simp]
theorem isOk_error (e : ε) :
  (Except.error e : Except ε α).isOk = false
  := rfl

/-- A computation is successful when it returns a value. -/
theorem isOk_eq_true {x : Except ε α} : x.isOk = true ↔ ∃ a, x = .ok a
  := by
  cases x with
  | ok a => simp
  | error e => simp

/-- A computation is not successful when it fails with an error. -/
theorem isOk_eq_false {x : Except ε α} : x.isOk = false ↔ ∃ e, x = .error e
  := by
  cases x with
  | ok a => simp
  | error e => simp

/-- A list of computations succeeds when all of them do. -/
theorem mapM_eq_ok {l : List α} {f : α → Except ε β} {bs : List β} :
  l.mapM f = .ok bs ↔ List.Forall₂ (fun a b => f a = .ok b) l bs
  := by
  induction l generalizing bs with
  | nil =>
      rw [List.mapM_nil, List.forall₂_nil_left_iff]
      constructor
      · intro h
        apply (Except.ok.inj h).symm
      · rintro rfl
        rfl
  | cons a l ih =>
      rw [List.mapM_cons, bind_eq_ok, List.forall₂_cons_left_iff]
      constructor
      · rintro ⟨b, hb, h⟩
        obtain ⟨bs', hbs', h⟩ := bind_eq_ok.mp h
        exact ⟨b, bs', hb, ih.mp hbs', (Except.ok.inj h).symm⟩
      · rintro ⟨b, bs', hb, hbs', rfl⟩
        exact ⟨b, hb, bind_eq_ok.mpr ⟨bs', ih.mpr hbs', rfl⟩⟩

/-- A list of computations succeeds when each of them does. -/
theorem exists_mapM_eq_ok {l : List α} {f : α → Except ε β} :
  (∃ bs, l.mapM f = .ok bs) ↔ ∀ a ∈ l, ∃ b, f a = .ok b
  := by
  simp only [mapM_eq_ok]
  constructor
  · rintro ⟨bs, h⟩ a ha
    obtain ⟨i, hi, rfl⟩ := List.getElem_of_mem ha
    exact ⟨_, h.get hi (h.length_eq ▸ hi)⟩
  · intro h
    induction l with
    | nil => exact ⟨[], .nil⟩
    | cons a l ih =>
        obtain ⟨b, hb⟩ := h a List.mem_cons_self
        obtain ⟨bs, hbs⟩ := ih (fun a' ha' => h a' (List.mem_cons_of_mem a ha'))
        exact ⟨b :: bs, .cons hb hbs⟩

/-- What a list of computations returns was returned by one of them. -/
theorem exists_of_mem_mapM {l : List α} {f : α → Except ε β} {bs : List β} {b : β}
    (h : l.mapM f = .ok bs) (hb : b ∈ bs) :
  ∃ a ∈ l, f a = .ok b
  := by
  induction mapM_eq_ok.mp h with
  | nil => cases hb
  | cons hfirst hrest ih =>
      cases hb with
      | head => exact ⟨_, List.mem_cons_self, hfirst⟩
      | tail _ hb =>
          obtain ⟨a, ha, hab⟩ := ih (mapM_eq_ok.mpr hrest) hb
          exact ⟨a, List.mem_cons_of_mem _ ha, hab⟩

/-- A loop of computations succeeds when each of them does. -/
theorem forM_eq_ok {l : List α} {f : α → Except ε Unit} :
  l.forM f = .ok () ↔ ∀ a ∈ l, f a = .ok ()
  := by
  induction l with
  | nil =>
      apply iff_of_true rfl
      intro a ha
      cases ha
  | cons a l ih =>
      change (f a >>= fun _ => l.forM f) = _ ↔ _
      rw [bind_eq_ok, List.forall_mem_cons, ← ih]
      constructor
      · rintro ⟨⟨⟩, ha, hl⟩
        exact ⟨ha, hl⟩
      · rintro ⟨ha, hl⟩
        exact ⟨(), ha, hl⟩

end Except

/-- A list of values is found when all of them are. -/
theorem Option.mapM_eq_some {α β : Type} {l : List α} {f : α → Option β} {bs : List β} :
  l.mapM f = some bs ↔ List.Forall₂ (fun a b => f a = some b) l bs
  := by
  induction l generalizing bs with
  | nil =>
      rw [List.mapM_nil, List.forall₂_nil_left_iff]
      exact ⟨fun h => (Option.some.inj h).symm, fun h => congrArg some h.symm⟩
  | cons a l ih =>
      rw [List.mapM_cons, Option.bind_eq_bind, Option.bind_eq_some_iff, List.forall₂_cons_left_iff]
      constructor
      · rintro ⟨b, hb, h⟩
        obtain ⟨bs', hbs', h⟩ := Option.bind_eq_some_iff.mp h
        exact ⟨b, bs', hb, ih.mp hbs', (Option.some.inj h).symm⟩
      · rintro ⟨b, bs', hb, hbs', rfl⟩
        exact ⟨b, hb, Option.bind_eq_some_iff.mpr ⟨bs', ih.mpr hbs', rfl⟩⟩

/-- Raise an error under a condition. -/
def raiseIf (condition : Bool) (error : String) : Except String Unit :=
  if condition then .error error else .ok ()

/-- What a statement returns that must not break a unique constraint. -/
def uniqueOr {α : Type} (result : Option α) : Except String α :=
  match result with
  | some a => .ok a
  | none => .error "UNIQUE constraint failed"

/-- A condition that has not raised does not hold. -/
theorem raiseIf_ok {condition : Bool} {error : String} :
  raiseIf condition error = .ok () ↔ condition = false
  := by
  cases condition <;> simp [raiseIf]

/-- A statement that has not raised has returned. -/
theorem uniqueOr_ok {α : Type} {result : Option α} {a : α} :
  uniqueOr result = .ok a ↔ result = some a
  := by
  cases result <;> simp [uniqueOr]
