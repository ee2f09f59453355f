import GoblinKing.Library.Except

/-!
# What computations can end with

Two relations for computations that may fail. The errors of a computation are within a set when it
fails with no other error. A computation is below another one when the other one succeeds with the
same value whenever it does.
-/

namespace Except

variable {ε ε' α β : Type}

/-! ### Errors within a set -/

/-- A computation fails with no error outside of a set. -/
def Within (p : ε → Prop) (x : Except ε α) : Prop :=
  ∀ error, x = .error error → p error

section

variable {p : ε → Prop}

/-- A value is not an error. -/
theorem within_ok (a : α) : Within p (.ok a : Except ε α)
  := by
  intro error h
  cases h

/-- An error of the set is within it. -/
theorem within_error {error : ε} : Within p (.error error : Except ε α) ↔ p error
  := by
  constructor
  · intro h
    apply h error rfl
  · rintro h error' ⟨⟩
    exact h

/-- The errors of a sequence are those of its first part and those of its second part behind a
value of the first one. -/
theorem within_bind {x : Except ε α} {f : α → Except ε β} :
  Within p (x >>= f) ↔ Within p x ∧ ∀ a, x = .ok a → Within p (f a)
  := by
  cases x with
  | ok a =>
      constructor
      · intro h
        use within_ok a
        rintro a' ⟨⟩
        exact h
      · rintro ⟨-, h⟩
        apply h a rfl
  | error error =>
      constructor
      · intro h
        constructor
        · exact within_error.mpr (h error rfl)
        · intro a ha
          cases ha
      · rintro ⟨h, -⟩
        exact within_error.mpr (h error rfl)

/-- Behind a first part whose errors are within the set, only the second part counts. -/
theorem Within.bind {x : Except ε α} {f : α → Except ε β} (h : Within p x) :
  Within p (x >>= f) ↔ ∀ a, x = .ok a → Within p (f a)
  := by
  rw [within_bind, and_iff_right h]

/-- Behind a condition whose errors are within the set, only what follows it counts. -/
theorem Within.bind_unit {x : Except ε Unit} {f : Unit → Except ε β} (h : Within p x) :
  Within p (x >>= f) ↔ (x = .ok () → Within p (f ()))
  := by
  rw [h.bind]
  constructor
  · intro hf
    apply hf ()
  · intro hf _ hx
    apply hf hx

/-- The errors of a sequence are within a set when those of both parts are. -/
theorem Within.andThen {x : Except ε α} {f : α → Except ε β} (h : Within p x)
    (hf : ∀ a, Within p (f a)) :
  Within p (x >>= f)
  := h.bind.mpr (fun a _ => hf a)

/-- Errors that are all turned into errors of a set are within it. -/
theorem within_mapError {x : Except ε' α} {f : ε' → ε} (h : ∀ error, p (f error)) :
  Within p (x.mapError f)
  := by
  cases x with
  | ok a => apply within_ok
  | error error => exact within_error.mpr (h error)

end

/-! ### Errors and values within sets -/

/-- A computation succeeds with the same value whenever another one does. -/
def Below (x y : Except ε α) : Prop :=
  ∀ a, x = .ok a → y = .ok a

/-- A computation is below itself. -/
theorem Below.refl (x : Except ε α) : Below x x
  := fun _ h => h

/-- A failure is below everything. -/
theorem below_error {error : ε} {y : Except ε α} : Below (.error error) y
  := by
  intro a h
  cases h

/-- A sequence is below another one when its parts are. -/
theorem Below.bind {x y : Except ε α} {f g : α → Except ε β} (h : Below x y)
    (hf : ∀ a, Below (f a) (g a)) :
  Below (x >>= f) (y >>= g)
  := by
  intro b hb
  obtain ⟨a, ha, hb⟩ := bind_eq_ok.mp hb
  exact bind_eq_ok.mpr ⟨a, h a ha, hf a b hb⟩

end Except
