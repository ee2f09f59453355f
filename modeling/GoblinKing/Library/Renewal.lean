import Mathlib.Algebra.Order.Field.Basic
import Mathlib.Tactic.GCongr
import Mathlib.Tactic.Linarith

/-!
# Grants that are renewed in time

A grant is for some length of time from a reading of the clock. It is renewed again and again: the next
renewal is due an interval after the last attempt, is made within a delay, and may fail. As long as few
attempts in a row fail and the length leaves room for them, the grant never runs out.
-/

namespace Renewal

variable {K : Type} [Field K] [LinearOrder K] [IsStrictOrderedRing K]

/-- A grant in time. -/
structure State (K : Type) where
  /-- the reading of the clock for the last renewal that went through -/
  granted : K
  /-- when the next renewal is due -/
  due : K
  /-- how many renewals have failed since -/
  failures : ℕ
  time : K

variable {interval delay : K} {s : State K}

/-- The renewals are made in time. -/
structure OnSchedule (interval delay : K) (s : State K) : Prop where
  due_le : s.due ≤ s.granted + (s.failures + 1) * (interval + delay)
  time_le : s.time ≤ s.due + delay

omit [IsStrictOrderedRing K] in
/-- Time may pass until the next renewal is late. -/
theorem OnSchedule.elapse (h : OnSchedule interval delay s) {time : K} (htime : time ≤ s.due + delay) :
  OnSchedule interval delay { s with time := time }
  := ⟨h.due_le, htime⟩

/-- A renewal goes through with a reading of the clock that was taken when it was due. -/
theorem OnSchedule.renew (h : OnSchedule interval delay s) (hnonneg : 0 ≤ interval + delay) {clock : K}
    (hclock : s.due ≤ clock) :
  OnSchedule interval delay { s with granted := clock, due := s.time + interval, failures := 0 }
  := by
  have htime := h.time_le
  constructor
  · simp only [Nat.cast_zero]
    linarith
  · simp only
    linarith

/-- A renewal fails, and is due again after an interval. -/
theorem OnSchedule.fail (h : OnSchedule interval delay s) (hnonneg : 0 ≤ interval + delay) :
  OnSchedule interval delay { s with due := s.time + interval, failures := s.failures + 1 }
  := by
  have hdue := h.due_le
  have htime := h.time_le
  constructor
  · simp only [Nat.cast_add, Nat.cast_one]
    linarith
  · simp only
    linarith

/-- A grant that leaves room for the failures has not run out, not even for those whose clocks are fast. -/
theorem OnSchedule.lt_of_margin (h : OnSchedule interval delay s) (hnonneg : 0 ≤ interval + delay)
    {allowed : ℕ} (hfailures : s.failures ≤ allowed) {skew length : K}
    (hmargin : (allowed + 1) * (interval + delay) + delay + skew < length) :
  s.time + skew < s.granted + length
  := by
  have hdue := h.due_le
  have htime := h.time_le
  have hcast : (s.failures : K) ≤ allowed := Nat.cast_le.mpr hfailures
  have hrounds : ((s.failures : K) + 1) * (interval + delay) ≤ (allowed + 1) * (interval + delay) := by
    gcongr
  linarith

end Renewal
