import GoblinKing.Library.Transition
import Mathlib.Data.List.Nodup
import Mathlib.Logic.Function.Basic

/-!
# Leases with epochs

A resource is leased to one worker at a time. A worker that has been given the lease keeps a
ticket with the number of epochs begun so far; when it still holds the lease it may begin
the next epoch. The lease can be taken away at any moment, so a ticket says what its
worker believes and not what is the case. An epoch is settled by a worker that names it and
holds the resource at it.

The results say what such tickets are good for: a worker with a begun epoch that holds the
resource holds it at that epoch, no two workers have begun one epoch, the number of epochs
never decreases, and no epoch is settled twice.
-/

namespace Lease

/-- Who holds the resource, and whether its epoch has begun. -/
inductive Holder (ω : Type) where
  | free
  | leased (w : ω)
  | running (w : ω)
  deriving DecidableEq

/-- What a worker has kept of its lease: nothing, the number of epochs begun when it was
given the lease, or the epoch it has begun. -/
inductive Ticket where
  | none
  | claimed (epoch : ℕ)
  | begun (epoch : ℕ)
  deriving DecidableEq

/-- The resource, the tickets of the workers, and the epochs settled, newest first. -/
@[ext]
structure State (ω : Type) where
  holder : Holder ω
  epoch : ℕ
  ticket : ω → Ticket
  settled : List ℕ

/-- What can happen to a lease. -/
inductive Action (ω : Type) where
  | claim (w : ω)
  | start (w : ω)
  | settle (w : ω) (epoch : ℕ)
  | release
  | drop (w : ω)

/-- The resource before its first lease. -/
def init {ω : Type} : State ω :=
  ⟨.free, 0, fun _ => .none, []⟩

section

variable {ω : Type} [DecidableEq ω]

/-- The worker holds the resource at an epoch: the epoch is running, or is the next one of
its lease. -/
def State.holdsAt (s : State ω) (w : ω) (epoch : ℕ) : Prop :=
  (s.holder = .running w ∧ s.epoch = epoch) ∨ (s.holder = .leased w ∧ s.epoch + 1 = epoch)

instance (s : State ω) (w : ω) (epoch : ℕ) : Decidable (s.holdsAt w epoch) :=
  inferInstanceAs (Decidable (_ ∨ _))

/-- Give the lease to a worker, which notes the number of epochs. -/
def State.claim (s : State ω) (w : ω) : State ω :=
  { s with holder := .leased w, ticket := Function.update s.ticket w (.claimed s.epoch) }

/-- Begin the epoch after the one a worker has noted. -/
def State.start (s : State ω) (w : ω) (noted : ℕ) : State ω :=
  { s with
    holder := .running w
    epoch := noted + 1
    ticket := Function.update s.ticket w (.begun (noted + 1)) }

/-- Settle an epoch and give up the resource. -/
def State.settle (s : State ω) (epoch : ℕ) : State ω :=
  { s with holder := .free, settled := epoch :: s.settled }

/-- Take the resource away. -/
def State.release (s : State ω) : State ω :=
  { s with holder := .free }

/-- A worker throws its ticket away. -/
def State.drop (s : State ω) (w : ω) : State ω :=
  { s with ticket := Function.update s.ticket w .none }

/-- The steps of a lease. An epoch is begun only by the worker that holds the lease and has
noted it, and settled only by a worker that has begun an epoch. -/
def step (s : State ω) : Action ω → Option (State ω)
  | .claim w => some (s.claim w)
  | .start w =>
      match s.ticket w with
      | .claimed noted => if s.holder = .leased w then some (s.start w noted) else none
      | .none | .begun _ => none
  | .settle w epoch =>
      match s.ticket w with
      | .begun _ => if s.holdsAt w epoch then some (s.settle epoch) else none
      | .none | .claimed _ => none
  | .release => some s.release
  | .drop w => some (s.drop w)

/-- What holds of every lease: how the tickets, the holder and the settled epochs are tied
to the number of epochs begun. -/
structure Invariant (s : State ω) : Prop where
  claimed_le : ∀ w n, s.ticket w = .claimed n → n ≤ s.epoch
  claimed_epoch : ∀ w n, s.ticket w = .claimed n → s.holder = .leased w → n = s.epoch
  claimed_not_running : ∀ w n, s.ticket w = .claimed n → s.holder ≠ .running w
  begun_le : ∀ w n, s.ticket w = .begun n → n ≤ s.epoch
  begun_epoch : ∀ w n, s.ticket w = .begun n → s.holder = .running w → n = s.epoch
  begun_not_leased : ∀ w n, s.ticket w = .begun n → s.holder ≠ .leased w
  begun_injective : ∀ w v n, s.ticket w = .begun n → s.ticket v = .begun n → w = v
  settled_le : ∀ n ∈ s.settled, n ≤ s.epoch
  running_unsettled : ∀ w, s.holder = .running w → s.epoch ∉ s.settled
  settled_nodup : s.settled.Nodup

omit [DecidableEq ω] in
/-- A lease starts within the invariant. -/
theorem invariant_init : Invariant (init : State ω)
  := by
  constructor <;> simp [init]

/-- Claiming keeps the invariant: the new ticket notes the current epoch. -/
theorem Invariant.claim {s : State ω} (h : Invariant s) (w : ω) : Invariant (s.claim w)
  := by
  constructor <;> simp only [State.claim, Function.update_apply]
  case claimed_le =>
      intro v n hv
      split at hv
      · cases hv
        apply Nat.le_refl
      · apply h.claimed_le v n hv
  case claimed_epoch =>
      rintro _ n hv ⟨⟩
      rw [if_pos rfl] at hv
      cases hv
      rfl
  case claimed_not_running => simp
  case begun_le =>
      intro v n hv
      split at hv
      · cases hv
      · apply h.begun_le v n hv
  case begun_epoch => simp
  case begun_not_leased =>
      rintro v n hv ⟨⟩
      rw [if_pos rfl] at hv
      cases hv
  case begun_injective =>
      intro v u n hv hu
      split at hv
      · cases hv
      · split at hu
        · cases hu
        · apply h.begun_injective v u n hv hu
  case settled_le => apply h.settled_le
  case running_unsettled => simp
  case settled_nodup => apply h.settled_nodup

/-- Beginning an epoch keeps the invariant: the noted epoch is the current one, so the new
epoch is later than every begun or settled one. -/
theorem Invariant.start {s : State ω} (h : Invariant s) {w : ω} {noted : ℕ}
    (hticket : s.ticket w = .claimed noted) (hholder : s.holder = .leased w) :
  Invariant (s.start w noted)
  := by
  obtain rfl := h.claimed_epoch w noted hticket hholder
  have hsettled : s.epoch + 1 ∉ s.settled := by
    intro hmem
    have := h.settled_le _ hmem
    omega
  constructor <;> simp only [State.start, Function.update_apply]
  case claimed_le =>
      intro v n hv
      split at hv
      · cases hv
      · apply Nat.le_trans (h.claimed_le v n hv) (Nat.le_succ _)
  case claimed_epoch => simp
  case claimed_not_running =>
      rintro v n hv ⟨⟩
      rw [if_pos rfl] at hv
      cases hv
  case begun_le =>
      intro v n hv
      split at hv
      · cases hv
        apply Nat.le_refl
      · apply Nat.le_trans (h.begun_le v n hv) (Nat.le_succ _)
  case begun_epoch =>
      rintro _ n hv ⟨⟩
      rw [if_pos rfl] at hv
      cases hv
      rfl
  case begun_not_leased => simp
  case begun_injective =>
      -- the epochs begun before are all earlier than the new one
      have hold : ∀ v, s.ticket v ≠ .begun (s.epoch + 1) := by
        intro v hv
        have := h.begun_le v _ hv
        omega
      intro v u n hv hu
      split at hv
      case isTrue hvw =>
        cases hv
        split at hu
        case isTrue huw => rw [hvw, huw]
        case isFalse => cases hold u hu
      case isFalse =>
        split at hu
        case isTrue =>
          cases hu
          cases hold v hv
        case isFalse => apply h.begun_injective v u n hv hu
  case settled_le =>
      intro n hn
      apply Nat.le_trans (h.settled_le n hn) (Nat.le_succ _)
  case running_unsettled =>
      intro _ _
      apply hsettled
  case settled_nodup => apply h.settled_nodup

omit [DecidableEq ω] in
/-- A worker that has begun an epoch holds the resource at no other epoch. -/
theorem Invariant.holdsAt_begun {s : State ω} (h : Invariant s) {w : ω} {n epoch : ℕ}
    (hticket : s.ticket w = .begun n) (hholds : s.holdsAt w epoch) :
  s.holder = .running w ∧ s.epoch = epoch ∧ n = epoch
  := by
  rcases hholds with ⟨hrunning, rfl⟩ | ⟨hleased, -⟩
  · use hrunning, rfl
    apply h.begun_epoch w n hticket hrunning
  · cases h.begun_not_leased w n hticket hleased

omit [DecidableEq ω] in
/-- Settling keeps the invariant: what is settled is the running epoch. -/
theorem Invariant.settle {s : State ω} (h : Invariant s) {w : ω} {n epoch : ℕ}
    (hticket : s.ticket w = .begun n) (hholds : s.holdsAt w epoch) :
  Invariant (s.settle epoch)
  := by
  obtain ⟨hrunning, rfl, rfl⟩ := h.holdsAt_begun hticket hholds
  have hunsettled := h.running_unsettled w hrunning
  constructor <;> simp only [State.settle]
  case claimed_le => apply h.claimed_le
  case claimed_epoch => simp
  case claimed_not_running => simp
  case begun_le => apply h.begun_le
  case begun_epoch => simp
  case begun_not_leased => simp
  case begun_injective => apply h.begun_injective
  case settled_le =>
      intro n hn
      rcases List.mem_cons.mp hn with rfl | hn
      · apply Nat.le_refl
      · apply h.settled_le n hn
  case running_unsettled => simp
  case settled_nodup => apply List.nodup_cons.mpr ⟨hunsettled, h.settled_nodup⟩

omit [DecidableEq ω] in
/-- Taking the resource away keeps the invariant. -/
theorem Invariant.release {s : State ω} (h : Invariant s) : Invariant s.release
  := by
  constructor <;> simp only [State.release]
  case claimed_le => apply h.claimed_le
  case claimed_epoch => simp
  case claimed_not_running => simp
  case begun_le => apply h.begun_le
  case begun_epoch => simp
  case begun_not_leased => simp
  case begun_injective => apply h.begun_injective
  case settled_le => apply h.settled_le
  case running_unsettled => simp
  case settled_nodup => apply h.settled_nodup

/-- Throwing a ticket away keeps the invariant. -/
theorem Invariant.drop {s : State ω} (h : Invariant s) (w : ω) : Invariant (s.drop w)
  := by
  have hkept : ∀ v ticket, ticket ≠ .none → (s.drop w).ticket v = ticket → s.ticket v = ticket := by
    intro v ticket hne hv
    simp only [State.drop, Function.update_apply] at hv
    split at hv
    · cases hne hv.symm
    · apply hv
  constructor
  case claimed_le =>
      intro v n hv
      apply h.claimed_le v n (hkept v _ nofun hv)
  case claimed_epoch =>
      intro v n hv
      apply h.claimed_epoch v n (hkept v _ nofun hv)
  case claimed_not_running =>
      intro v n hv
      apply h.claimed_not_running v n (hkept v _ nofun hv)
  case begun_le =>
      intro v n hv
      apply h.begun_le v n (hkept v _ nofun hv)
  case begun_epoch =>
      intro v n hv
      apply h.begun_epoch v n (hkept v _ nofun hv)
  case begun_not_leased =>
      intro v n hv
      apply h.begun_not_leased v n (hkept v _ nofun hv)
  case begun_injective =>
      intro v u n hv hu
      apply h.begun_injective v u n (hkept v _ nofun hv) (hkept u _ nofun hu)
  case settled_le => apply h.settled_le
  case running_unsettled => apply h.running_unsettled
  case settled_nodup => apply h.settled_nodup

/-- What a step is, with the guards that it has passed. -/
theorem step_cases {s t : State ω} {a : Action ω} (h : step s a = some t) :
  (∃ w, t = s.claim w)
    ∨ (∃ w noted, s.ticket w = .claimed noted ∧ s.holder = .leased w ∧ t = s.start w noted)
    ∨ (∃ w n epoch, s.ticket w = .begun n ∧ s.holdsAt w epoch ∧ t = s.settle epoch)
    ∨ t = s.release
    ∨ (∃ w, t = s.drop w)
  := by
  cases a <;> simp only [step] at h
  case claim w => grind
  case start w => grind
  case settle w epoch => grind
  case release => grind
  case drop w => grind

/-- Every step keeps the invariant. -/
theorem Invariant.step {s t : State ω} {a : Action ω} (h : Invariant s)
    (hstep : step s a = some t) :
  Invariant t
  := by
  rcases step_cases hstep with ⟨w, rfl⟩ | ⟨w, noted, hticket, hholder, rfl⟩
    | ⟨w, n, epoch, hticket, hholds, rfl⟩ | rfl | ⟨w, rfl⟩
  · apply h.claim
  · apply h.start hticket hholder
  · apply h.settle hticket hholds
  · apply h.release
  · apply h.drop

/-- The invariant holds of every lease. -/
theorem Invariant.reaches {s t : State ω} (h : Transition.Reaches Lease.step s t)
    (hs : Invariant s) :
  Invariant t
  := h.invariant (fun _ _ _ hI _ hstep => hI.step hstep) hs

/-- A worker may keep its ticket or throw it away. -/
theorem reaches_ticket (s : State ω) {w : ω} {ticket : Ticket}
    (h : ticket = s.ticket w ∨ ticket = .none) :
  Transition.Reaches step s { s with ticket := Function.update s.ticket w ticket }
  := by
  rcases h with rfl | rfl
  · rw [Function.update_eq_self]
    apply Transition.Path.refl
  · apply Transition.Reaches.single (a := .drop w)
    rfl

/-- The number of epochs never decreases. -/
theorem epoch_le_of_reaches {s t : State ω} (h : Transition.Reaches step s t)
    (hs : Invariant s) :
  s.epoch ≤ t.epoch
  := by
  apply h.relation (R := fun s t => s.epoch ≤ t.epoch)
    (fun _ _ _ hI _ hstep => hI.step hstep) (fun _ => Nat.le_refl _)
    (fun _ _ _ => Nat.le_trans) _ hs
  intro s a t hI _ hstep
  rcases step_cases hstep with ⟨w, rfl⟩ | ⟨w, noted, hticket, hholder, rfl⟩
    | ⟨w, n, epoch, -, -, rfl⟩ | rfl | ⟨w, rfl⟩
  · apply Nat.le_refl
  · obtain rfl := hI.claimed_epoch w noted hticket hholder
    apply Nat.le_succ
  · apply Nat.le_refl
  · apply Nat.le_refl
  · apply Nat.le_refl

end

end Lease
