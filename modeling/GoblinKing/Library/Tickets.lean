import Mathlib.Data.Multiset.Filter
import Mathlib.Data.Finset.Card
import Mathlib.Order.Interval.Finset.Nat

/-!
# Numbered tickets

An office hands out tickets. Every key has a counter, which is its last ticket: the instant
at which its window was opened and the number of tickets handed out since. The next ticket
takes the next number of the window, or opens a new window with the number one, which it does
only after the span of a window is over. Tickets may be given back in any order.

No two holders have the same ticket. For this reason the holders of one key whose number is
within a limit are, in any interval of the length of a window, no more than the limit.
-/

/-- A ticket: its key, when its window was opened, and its number in the window. -/
structure Ticket (κ : Type) where
  key : κ
  opened : ℤ
  number : ℕ
  deriving DecidableEq

/-- The last ticket of every key and the tickets that are held. -/
structure Office (κ : Type) (span : ℤ) where
  last : κ → Option (Ticket κ)
  tickets : Multiset (Ticket κ)
  nodup : tickets.Nodup
  positive : ∀ t ∈ tickets, 1 ≤ t.number
  covered : ∀ t ∈ tickets, ∃ l, last t.key = some l
    ∧ ((t.opened = l.opened ∧ t.number ≤ l.number) ∨ t.opened + span ≤ l.opened)
  apart : ∀ t ∈ tickets, ∀ u ∈ tickets, t.key = u.key →
    t.opened = u.opened ∨ t.opened + span ≤ u.opened ∨ u.opened + span ≤ t.opened

namespace Office

variable {κ : Type} {span : ℤ}

/-- Nobody holds a ticket. -/
def closed (last : κ → Option (Ticket κ)) : Office κ span where
  last := last
  tickets := 0
  nodup := Multiset.nodup_zero
  positive := by simp
  covered := by simp
  apart := by simp

/-- Some tickets are given back. -/
def discard (o : Office κ span) (tickets : Multiset (Ticket κ)) (h : tickets ≤ o.tickets) :
    Office κ span where
  last := o.last
  tickets := tickets
  nodup := Multiset.nodup_of_le h o.nodup
  positive t ht := o.positive t (Multiset.mem_of_le h ht)
  covered t ht := o.covered t (Multiset.mem_of_le h ht)
  apart t ht u hu := o.apart t (Multiset.mem_of_le h ht) u (Multiset.mem_of_le h hu)

variable [DecidableEq κ]

/-- A ticket that differs from all others is handed out. It becomes the last ticket of its
key. -/
def hand (o : Office κ span) (t : Ticket κ) (hpositive : 1 ≤ t.number)
    (hnew : ∀ u ∈ o.tickets, u.key = t.key →
      (u.opened = t.opened ∧ u.number < t.number) ∨ u.opened + span ≤ t.opened)
    (hspan : 0 < span) : Office κ span where
  last := fun k => if k = t.key then some t else o.last k
  tickets := t ::ₘ o.tickets
  nodup := by
    apply Multiset.nodup_cons.mpr
    constructor
    · intro ht
      rcases hnew t ht rfl with ⟨-, h⟩ | h <;> omega
    · apply o.nodup
  positive := by
    intro u hu
    rcases Multiset.mem_cons.mp hu with rfl | hu
    · apply hpositive
    · apply o.positive u hu
  covered := by
    intro u hu
    rcases Multiset.mem_cons.mp hu with rfl | hu
    · use u
      simp
    · by_cases hk : u.key = t.key
      · use t
        simp only [hk, if_true, true_and]
        rcases hnew u hu hk with ⟨hopened, hnumber⟩ | h
        · exact .inl ⟨hopened, hnumber.le⟩
        · exact .inr h
      · simp only [hk, if_false]
        apply o.covered u hu
  apart := by
    intro u hu v hv hk
    rcases Multiset.mem_cons.mp hu with rfl | hu'
    · rcases Multiset.mem_cons.mp hv with rfl | hv'
      · exact .inl rfl
      · rcases hnew v hv' hk.symm with ⟨h, -⟩ | h
        · exact .inl h.symm
        · exact .inr (.inr h)
    · rcases Multiset.mem_cons.mp hv with rfl | hv'
      · rcases hnew u hu' hk with ⟨h, -⟩ | h
        · exact .inl h
        · exact .inr (.inl h)
      · apply o.apart u hu' v hv' hk

/-- The tickets of one key with numbers up to a limit, in an interval of the length of a
window, are at most as many as the limit. -/
theorem countP_le (o : Office κ span) (k : κ) (limit : ℕ) (w : ℤ) :
  o.tickets.countP (fun t =>
    t.key = k ∧ t.number ≤ limit ∧ w ≤ t.opened ∧ t.opened < w + span) ≤ limit
  := by
  rw [Multiset.countP_eq_card_filter, ← Multiset.card_map Ticket.number]
  -- in the interval there is one window only, where the numbers are distinct
  have hnodup : (Multiset.map Ticket.number (o.tickets.filter (fun t =>
      t.key = k ∧ t.number ≤ limit ∧ w ≤ t.opened ∧ t.opened < w + span))).Nodup := by
    apply Multiset.Nodup.map_on _ (o.nodup.filter _)
    intro t ht u hu hnumber
    obtain ⟨ht, hkt, -, hwt, htw⟩ := Multiset.mem_filter.mp ht
    obtain ⟨hu, hku, -, hwu, huw⟩ := Multiset.mem_filter.mp hu
    have hopened : t.opened = u.opened := by
      rcases o.apart t ht u hu (hkt.trans hku.symm) with h | h | h <;> omega
    cases t
    cases u
    simp_all
  rw [← Multiset.toFinset_card_of_nodup hnodup]
  calc _ ≤ (Finset.Icc 1 limit).card := by
        apply Finset.card_le_card
        intro n hn
        obtain ⟨t, ht, rfl⟩ := Multiset.mem_map.mp (Multiset.mem_toFinset.mp hn)
        obtain ⟨ht, -, hlimit, -⟩ := Multiset.mem_filter.mp ht
        apply Finset.mem_Icc.mpr
        exact ⟨o.positive t ht, hlimit⟩
    _ = limit := by simp

end Office
