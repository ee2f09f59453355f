import Mathlib.Logic.Basic
import Mathlib.Data.List.Basic

/-!
# Transition systems

A transition system is a partial step function `step : S → A → Option S`, where an action
`a : A` resolves every choice of a step: who takes it, what the clock shows, what the
environment answers. A run is a list of actions. All definitions compute, so that a concrete
run can be replayed.

`Path step G s t` says that `t` is reached from `s` by steps all of which meet the guard `G`,
a condition on the state before the step and its action. `Along step P s as` says that every
step of the run `as` from `s` satisfies `P`. The invariant rule for both is proved here once.
-/

namespace Transition

variable {S A : Type} (step : S → A → Option S)

/-- The state after a list of actions; `none` when one of them is not enabled. -/
def run : S → List A → Option S
  | s, [] => some s
  | s, a :: as => (step s a).bind (fun t => run t as)

/-- The state after a list of actions all of which meet the guard; `none` when one does not,
or is not enabled. -/
def runUnder (g : S → A → Bool) : S → List A → Option S
  | s, [] => some s
  | s, a :: as => if g s a then (step s a).bind (fun t => runUnder g t as) else none

/-- `t` is reached from `s` by steps that all meet the guard. -/
inductive Path (G : S → A → Prop) : S → S → Prop where
  | refl (s : S) : Path G s s
  | tail {s t u : S} {a : A} : Path G s t → G t a → step t a = some u → Path G s u

/-- Every step of the run `as` from `s` satisfies `P`. -/
def Along (P : S → A → S → Prop) : S → List A → Prop
  | _, [] => True
  | s, a :: as => ∀ t, step s a = some t → P s a t ∧ Along P t as

/-- `t` is reached from `s` by any steps. -/
abbrev Reaches : S → S → Prop :=
  Path step (fun _ _ => True)

/-- The system with a history variable, which every step updates and no step reads. -/
def withHistory {H : Type} (update : S → A → S → H → H) : S × H → A → Option (S × H)
  | (s, h), a => (step s a).map (fun t => (t, update s a t h))

variable {step}

/-- A step of the system with a history variable. -/
theorem withHistory_eq_some {H : Type} {update : S → A → S → H → H} {s t : S} {h h' : H}
    {a : A} :
  withHistory step update (s, h) a = some (t, h') ↔ step s a = some t ∧ update s a t h = h'
  := by
  simp only [withHistory, Option.map_eq_some_iff, Prod.mk.injEq]
  constructor
  · rintro ⟨_, hstep, rfl, rfl⟩
    use hstep
  · rintro ⟨hstep, rfl⟩
    use t, hstep

/-- A step is a path. -/
theorem Reaches.single {s t : S} {a : A} (h : step s a = some t) :
  Reaches step s t
  := Path.tail (Path.refl s) trivial h

/-- A path followed by a path is a path. -/
theorem Path.trans {G : S → A → Prop} {s t u : S} (hst : Path step G s t) (htu : Path step G t u) :
  Path step G s u
  := by
  induction htu with
  | refl => apply hst
  | tail _ hg hstep ih => apply Path.tail ih hg hstep

/-- A path under a guard is a path under every weaker guard. -/
theorem Path.mono {G G' : S → A → Prop} (hG : ∀ s a, G s a → G' s a) {s t : S}
    (h : Path step G s t) :
  Path step G' s t
  := by
  induction h with
  | refl => apply Path.refl
  | tail _ hg hstep ih => apply Path.tail ih (hG _ _ hg) hstep

/-- Forgetting the guard of a path. -/
theorem Path.reaches {G : S → A → Prop} {s t : S} (h : Path step G s t) :
  Reaches step s t
  := h.mono (fun _ _ _ => trivial)

/-- The invariant rule: what holds at the start of a path, and is preserved by each step
that meets the guard, holds at its end. -/
theorem Path.invariant {G : S → A → Prop} {I : S → Prop}
    (hstep : ∀ s a t, I s → G s a → step s a = some t → I t) {s t : S}
    (h : Path step G s t) (hs : I s) :
  I t
  := by
  induction h with
  | refl => apply hs
  | tail _ hg hst ih => apply hstep _ _ _ ih hg hst

/-- The rule for relations: a reflexive and transitive relation that each step respects
holds between the ends of a path. The step may use an invariant of the path. -/
theorem Path.relation {G : S → A → Prop} {I : S → Prop} {R : S → S → Prop}
    (hI : ∀ s a t, I s → G s a → step s a = some t → I t) (hrefl : ∀ s, R s s)
    (htrans : ∀ s t u, R s t → R t u → R s u)
    (hR : ∀ s a t, I s → G s a → step s a = some t → R s t) {s t : S}
    (h : Path step G s t) (hs : I s) :
  R s t
  := by
  induction h with
  | refl => apply hrefl
  | @tail t u a hpath hg hst ih =>
      have ht : I t := hpath.invariant hI hs
      apply htrans s t u ih (hR t a u ht hg hst)

/-- The simulation rule: when every step that meets the guard is matched by steps of another
system, so is a path. -/
theorem Path.simulation {T B : Type} {step' : T → B → Option T} {G : S → A → Prop}
    {R : S → T → Prop}
    (hstep : ∀ s a s' t, R s t → G s a → step s a = some s' →
      ∃ t', R s' t' ∧ Reaches step' t t')
    {s s' : S} {t : T} (h : Path step G s s') (ht : R s t) :
  ∃ t', R s' t' ∧ Reaches step' t t'
  := by
  induction h with
  | refl => use t, ht, Path.refl t
  | tail _ hg hst ih =>
      obtain ⟨u, hu, hreach⟩ := ih
      obtain ⟨t', ht', hreach'⟩ := hstep _ _ _ u hu hg hst
      use t', ht', hreach.trans hreach'

/-- A run whose steps all meet the guard is a path. -/
theorem path_of_run {G : S → A → Prop} {s t : S} {as : List A} (h : run step s as = some t)
    (hG : Along step (fun s a _ => G s a) s as) :
  Path step G s t
  := by
  suffices H : ∀ r, Path step G r s → Path step G r t by
    apply H s (Path.refl s)
  induction as generalizing s with
  | nil =>
      obtain rfl := Option.some.inj h
      intro r hr
      apply hr
  | cons a as ih =>
      obtain ⟨u, hu, h⟩ := Option.bind_eq_some_iff.mp h
      obtain ⟨hg, hG⟩ := hG u hu
      intro r hr
      apply ih h hG r (Path.tail hr hg hu)

/-- What holds of every action of a run holds along the run. -/
theorem along_of_forall {G : A → Prop} {as : List A} (hG : ∀ a ∈ as, G a) (s : S) :
  Along step (fun _ a _ => G a) s as
  := by
  induction as generalizing s with
  | nil => trivial
  | cons a as ih =>
      intro t _
      use hG a List.mem_cons_self
      apply ih (fun b hb => hG b (List.mem_cons_of_mem a hb))

/-- A run of actions with `G` is a path. -/
theorem path_of_run_forall {G : A → Prop} {s t : S} {as : List A} (h : run step s as = some t)
    (hG : ∀ a ∈ as, G a) :
  Path step (fun _ a => G a) s t
  := path_of_run h (along_of_forall hG s)

/-- What a run leads to is reached. -/
theorem reaches_of_run {s t : S} {as : List A} (h : run step s as = some t) :
  Reaches step s t
  := path_of_run h (along_of_forall (G := fun _ => True) (fun _ _ => trivial) s)

/-- A run under a guard is a path under the guard. -/
theorem path_of_runUnder {g : S → A → Bool} {s t : S} {as : List A}
    (h : runUnder step g s as = some t) :
  Path step (fun s a => g s a = true) s t
  := by
  suffices H : ∀ r, Path step (fun s a => g s a = true) r s →
      Path step (fun s a => g s a = true) r t by
    apply H s (Path.refl s)
  induction as generalizing s with
  | nil =>
      obtain rfl := Option.some.inj h
      intro r hr
      apply hr
  | cons a as ih =>
      rw [runUnder] at h
      split at h
      case isTrue hg =>
        obtain ⟨u, hu, h⟩ := Option.bind_eq_some_iff.mp h
        intro r hr
        apply ih h r (Path.tail hr hg hu)
      case isFalse => cases h

/-- Along every run the steps satisfy what is always true. -/
theorem along_true {s : S} {as : List A} : Along step (fun _ _ _ => True) s as
  := by
  induction as generalizing s with
  | nil => trivial
  | cons a as ih =>
      intro t _
      exact ⟨trivial, ih⟩

/-- A run with one more action. -/
theorem run_concat {s : S} {as : List A} {a : A} :
  run step s (as ++ [a]) = (run step s as).bind (fun t => step t a)
  := by
  induction as generalizing s with
  | nil =>
      rw [List.nil_append, run]
      cases h : step s a with
      | none => simp [run, h]
      | some t => simp [run, h]
  | cons b as ih =>
      rw [List.cons_append, run, run, Option.bind_assoc]
      congr 1
      funext t
      apply ih

/-- A run under a guard is a run. -/
theorem run_of_runUnder {g : S → A → Bool} {s t : S} {as : List A}
    (h : runUnder step g s as = some t) :
  run step s as = some t
  := by
  induction as generalizing s with
  | nil => apply h
  | cons a as ih =>
      rw [runUnder] at h
      split at h
      case isTrue =>
        obtain ⟨u, hu, h⟩ := Option.bind_eq_some_iff.mp h
        rw [run, hu]
        apply ih h
      case isFalse => cases h

/-- Every step of a run under a guard meets the guard. -/
theorem along_of_runUnder {g : S → A → Bool} {s t : S} {as : List A}
    (h : runUnder step g s as = some t) :
  Along step (fun s a _ => g s a = true) s as
  := by
  induction as generalizing s with
  | nil => trivial
  | cons a as ih =>
      rw [runUnder] at h
      split at h
      case isTrue hg =>
        obtain ⟨u, hu, h⟩ := Option.bind_eq_some_iff.mp h
        intro v hv
        obtain rfl := Option.some.inj (hu.symm.trans hv)
        exact ⟨hg, ih h⟩
      case isFalse => cases h

/-- The last step of a run satisfies what every step of the run satisfies. -/
theorem along_last {P : S → A → S → Prop} {s u : S} {as : List A} {a : A}
    (h : Along step P s (as ++ [a])) (hrun : run step s (as ++ [a]) = some u) :
  ∃ t, run step s as = some t ∧ step t a = some u ∧ P t a u
  := by
  induction as generalizing s with
  | nil =>
      obtain ⟨t, ht, hrun⟩ := Option.bind_eq_some_iff.mp hrun
      obtain rfl := Option.some.inj hrun
      use s, rfl, ht
      apply (h t ht).1
  | cons b as ih =>
      obtain ⟨r, hr, hrun⟩ := Option.bind_eq_some_iff.mp hrun
      obtain ⟨t, ht, hstep, hP⟩ := ih (h r hr).2 hrun
      use t
      constructor
      · rw [run, hr]
        apply ht
      · use hstep

/-- Along a run whose steps satisfy `P` from a state that satisfies an invariant, the steps
satisfy what follows from `P` and the invariant. The steps with `P` keep the invariant. -/
theorem along_of_invariant {I : S → Prop} {P Q : S → A → S → Prop}
    (h : ∀ s a t, I s → P s a t → step s a = some t → I t ∧ Q s a t) {s : S} (hs : I s)
    {as : List A} (hP : Along step P s as) :
  Along step Q s as
  := by
  induction as generalizing s with
  | nil => trivial
  | cons a as ih =>
      intro t ht
      obtain ⟨hp, hP⟩ := hP t ht
      obtain ⟨hI, hq⟩ := h s a t hs hp ht
      use hq
      apply ih hI hP

/-- Along a run of actions with `G` from a state that satisfies an invariant, two properties
of steps that agree wherever the invariant holds are satisfied together. -/
theorem along_congr {G : A → Prop} {I : S → Prop} {P Q : S → A → S → Prop}
    (hI : ∀ s a t, I s → G a → step s a = some t → I t)
    (h : ∀ s a t, I s → G a → step s a = some t → (P s a t ↔ Q s a t)) {s : S} (hs : I s)
    {as : List A} (hG : ∀ a ∈ as, G a) :
  Along step P s as ↔ Along step Q s as
  := by
  induction as generalizing s with
  | nil => exact Iff.rfl
  | cons a as ih =>
      have ha := hG a List.mem_cons_self
      have hrest : ∀ b ∈ as, G b := fun b hb => hG b (List.mem_cons_of_mem a hb)
      constructor
      · intro hP t ht
        obtain ⟨hp, hP⟩ := hP t ht
        use (h s a t hs ha ht).mp hp
        apply (ih (hI s a t hs ha ht) hrest).mp hP
      · intro hQ t ht
        obtain ⟨hq, hQ⟩ := hQ t ht
        use (h s a t hs ha ht).mpr hq
        apply (ih (hI s a t hs ha ht) hrest).mpr hQ

end Transition
