import GoblinKing.Store.Columns
import Mathlib.Order.Lattice
import Mathlib.Algebra.Order.Group.Int

/-!
# The clock and the causal floor

A `datetime` has a first and a last value, so normalizing one to UTC and adding a step to one can
fail. Threads read the wall clock before they take the lock of the clock, and the clock publishes one
value for each critical section that does not fail. The values are strictly increasing, whatever the
readings are. The causal floor returns a value where there is one after all predecessors.
-/

namespace GoblinKing

/-! ### Datetimes -/

/-- An instant that a `datetime` in UTC can have. -/
@[ext] structure UtcTime where
  val : Instant
  within : datetimeMin ≤ val ∧ val ≤ datetimeMax
  deriving DecidableEq

instance : LinearOrder UtcTime :=
  @LinearOrder.lift' UtcTime ℤ Int.instLinearOrder UtcTime.val (fun _ _ => UtcTime.ext)

theorem UtcTime.lt_iff {t u : UtcTime} : t < u ↔ t.val < u.val
  := Iff.rfl

/-- An offset from UTC, strictly between a day and a day the other way, in microseconds. -/
abbrev UtcOffset := { offset : ℤ // -86400000000 < offset ∧ offset < 86400000000 }

/-- A `datetime`: the time on the clock, and the offset of the clock unless it is naive. -/
structure Datetime where
  time : UtcTime
  offset : Option UtcOffset
  deriving DecidableEq

/-- The datetime in UTC of an instant, or the `OverflowError`. -/
def utcTime (t : Instant) : Except String UtcTime :=
  if h : datetimeMin ≤ t ∧ t ≤ datetimeMax then .ok ⟨t, h⟩ else .error "date value out of range"

/-- Normalize naive or offset timestamps to timezone-aware UTC. -/
def Datetime.ensureUtc (value : Datetime) : Except String UtcTime :=
  match value.offset with
  | none => .ok value.time
  | some offset => utcTime (value.time.val - offset.val)

/-- The timestamps of the store are the datetimes with an offset. -/
def Timestamp.datetime (timestamp : Timestamp) : Datetime where
  time := ⟨timestamp.wall.micros, timestamp.wall.lower, timestamp.wall.upper⟩
  offset := some ⟨timestamp.offset, timestamp.bounded⟩

/-- For a timestamp of the store, the conversion is the one of the store. -/
theorem ensureUtc_datetime (timestamp : Timestamp) :
  timestamp.datetime.ensureUtc.map UtcTime.val = (ensureUtc timestamp).map WallClock.micros
  := by
  rw [ensureUtc]
  split
  case isTrue h =>
    have hutc : timestamp.datetime.ensureUtc = .ok ⟨timestamp.instant, h⟩ := dif_pos h
    rw [hutc]
    rfl
  case isFalse h =>
    have hutc : timestamp.datetime.ensureUtc = .error "date value out of range" := dif_neg h
    rw [hutc]
    rfl

/-- One step after a value. -/
def stepAfter (t : UtcTime) : Except String UtcTime :=
  utcTime (t.val + minimumCausalStep)

theorem utcTime_eq_ok {t : Instant} {u : UtcTime} :
  utcTime t = .ok u ↔ u.val = t
  := by
  rw [utcTime]
  split
  case isTrue h =>
    constructor
    · intro heq
      obtain rfl := Except.ok.inj heq
      rfl
    · rintro rfl
      rfl
  case isFalse h =>
    constructor
    · intro heq
      cases heq
    · rintro rfl
      exact absurd u.within h

/-- A step leads later. -/
theorem lt_of_stepAfter {t u : UtcTime} (h : stepAfter t = .ok u) :
  t < u
  := by
  have hval := utcTime_eq_ok.mp h
  rw [UtcTime.lt_iff, hval]
  exact Int.lt_succ t.val

/-- Where there is a later value, there is a step, and it does not lead beyond that value. -/
theorem stepAfter_of_lt {t u : UtcTime} (h : t < u) :
  ∃ v, stepAfter t = .ok v ∧ v ≤ u
  := by
  have hle : t.val + minimumCausalStep ≤ u.val := Int.add_one_le_of_lt h
  have hmin : datetimeMin ≤ t.val + minimumCausalStep := by
    have hone : t.val ≤ t.val + minimumCausalStep := Int.le_add_one (le_refl _)
    exact le_trans t.within.1 hone
  use ⟨t.val + minimumCausalStep, hmin, le_trans hle u.within.2⟩
  constructor
  · exact utcTime_eq_ok.mpr rfl
  · exact hle

/-- Where there is no later value, a step overflows. -/
theorem stepAfter_eq_error {t : UtcTime} (h : ∀ u, ¬ t < u) :
  stepAfter t = .error "date value out of range"
  := by
  rw [stepAfter, utcTime]
  split
  case isTrue hwithin =>
    exfalso
    apply h ⟨_, hwithin⟩
    exact Int.lt_succ t.val
  case isFalse => rfl

/-! ### The clock -/

/-- A clock with the threads that have read the wall clock and wait for the lock, and the values that it
has returned, in the order of the critical sections. -/
structure ClockSystem where
  last : Option UtcTime := none
  waiting : ℕ → Option UtcTime := fun _ => none
  published : List UtcTime := []

/-- What a thread does next. -/
inductive ClockAction where
  /-- it reads the wall clock and normalizes the reading -/
  | read (thread : ℕ) (reading : Datetime)
  /-- it takes the lock, and leaves it when it returns or raises -/
  | enter (thread : ℕ)

/-- The critical section of `MonotonicUtcClock.now`: the value that is returned and becomes the last
one. -/
def clampedNow (last : Option UtcTime) (candidate : UtcTime) : Except String UtcTime :=
  match last with
  | none => .ok candidate
  | some last => if candidate ≤ last then stepAfter last else .ok candidate

/-- One step of the threads. A call that raises leaves the last value as it is. -/
def clockStep (system : ClockSystem) : ClockAction → Option ClockSystem
  | .read thread reading =>
      match system.waiting thread, reading.ensureUtc with
      | some _, _ => none
      | none, .error _ => some system
      | none, .ok candidate =>
          some { system with waiting := Function.update system.waiting thread (some candidate) }
  | .enter thread =>
      match system.waiting thread with
      | none => none
      | some candidate =>
          let waiting := Function.update system.waiting thread none
          match clampedNow system.last candidate with
          | .error _ => some { system with waiting := waiting }
          | .ok value =>
              some {
                last := some value
                waiting := waiting
                published := system.published ++ [value] }

/-- The last value is the latest of those that were returned, which are strictly increasing. -/
structure ClockSystem.Increasing (system : ClockSystem) : Prop where
  last : system.last = system.published.getLast?
  sorted : system.published.Pairwise (· < ·)

/-- The value of a critical section is after the last one. -/
theorem lt_clampedNow {last candidate value : UtcTime} (h : clampedNow (some last) candidate = .ok value) :
  last < value
  := by
  rw [clampedNow] at h
  split at h
  case isTrue => exact lt_of_stepAfter h
  case isFalse hlater =>
    obtain rfl := Except.ok.inj h
    exact not_le.mp hlater

/-- What is later than the last of strictly increasing values is later than all of them. -/
theorem pairwise_concat {values : List UtcTime} {value : UtcTime} (h : values.Pairwise (· < ·))
    (hlast : ∀ last, values.getLast? = some last → last < value) :
  (values ++ [value]).Pairwise (· < ·)
  := by
  rw [List.pairwise_append]
  refine ⟨h, List.pairwise_singleton _ _, ?_⟩
  intro earlier hearlier other hother
  obtain rfl := List.mem_singleton.mp hother
  rcases List.eq_nil_or_concat' values with rfl | ⟨front, last, rfl⟩
  · cases hearlier
  · have hvalue := hlast last List.getLast?_concat
    rcases List.mem_append.mp hearlier with hfront | hback
    · have hle := (List.pairwise_append.mp h).2.2 earlier hfront last (List.mem_singleton_self last)
      exact lt_trans hle hvalue
    · obtain rfl := List.mem_singleton.mp hback
      exact hvalue

/-- Every step keeps the values strictly increasing. -/
theorem ClockSystem.Increasing.step {system system' : ClockSystem} {a : ClockAction}
    (h : system.Increasing) (hstep : clockStep system a = some system') :
  system'.Increasing
  := by
  cases a with
  | read thread reading =>
      rw [clockStep] at hstep
      split at hstep
      · cases hstep
      · obtain rfl := Option.some.inj hstep
        exact h
      · obtain rfl := Option.some.inj hstep
        exact ⟨h.last, h.sorted⟩
  | enter thread =>
      rw [clockStep] at hstep
      split at hstep
      · cases hstep
      · dsimp only at hstep
        split at hstep
        · obtain rfl := Option.some.inj hstep
          exact ⟨h.last, h.sorted⟩
        case h_2 hvalue =>
          obtain rfl := Option.some.inj hstep
          constructor
          · exact List.getLast?_concat.symm
          · apply pairwise_concat h.sorted
            intro last hlast
            rw [h.last, hlast] at hvalue
            exact lt_clampedNow hvalue

/-! ### The causal floor -/

/-- The candidate, or what `monotonic_utc_now` returns. -/
def currentTime (now : Except String UtcTime) (candidate : Option Datetime) : Except String UtcTime :=
  match candidate with
  | some candidate => candidate.ensureUtc
  | none => now

/-- `causally_after`, with what `monotonic_utc_now` returns -/
def causallyAfterUtc (now : Except String UtcTime) (predecessors : List (Option Datetime))
    (candidate : Option Datetime) : Except String UtcTime := do
  let current ← currentTime now candidate
  let normalized ← (predecessors.filterMap id).mapM Datetime.ensureUtc
  match normalized.max? with
  | none => .ok current
  | some floor => if floor < current then .ok current else stepAfter floor

/-- Every predecessor has a value in UTC that is before a value. -/
def Precedes (predecessors : List (Option Datetime)) (value : UtcTime) : Prop :=
  ∀ predecessor, some predecessor ∈ predecessors → ∃ t, predecessor.ensureUtc = .ok t ∧ t < value

/-- A value is after all predecessors, not before the candidate, and is the candidate where that is
after all predecessors. -/
structure IsCausallyAfter (predecessors : List (Option Datetime)) (current value : UtcTime) : Prop where
  after : Precedes predecessors value
  notBefore : current ≤ value
  candidate : Precedes predecessors current → value = current

section

variable {now : Except String UtcTime} {predecessors : List (Option Datetime)}
  {candidate : Option Datetime} {normalized : List UtcTime}

theorem mem_filterMap_id {predecessor : Datetime} :
  predecessor ∈ predecessors.filterMap id ↔ some predecessor ∈ predecessors
  := by
  simp

/-- The predecessors are before a value when their values in UTC are. -/
theorem precedes_iff (h : (predecessors.filterMap id).mapM Datetime.ensureUtc = .ok normalized)
    (value : UtcTime) :
  Precedes predecessors value ↔ ∀ t ∈ normalized, t < value
  := by
  constructor
  · intro hprecedes t ht
    obtain ⟨predecessor, hmem, hutc⟩ := Except.exists_of_mem_mapM h ht
    obtain ⟨u, hu, hlt⟩ := hprecedes predecessor (mem_filterMap_id.mp hmem)
    obtain rfl := Except.ok.inj (hutc.symm.trans hu)
    exact hlt
  · intro hall predecessor hmem
    obtain ⟨i, hi, rfl⟩ := List.getElem_of_mem (mem_filterMap_id.mpr hmem)
    have hforall := Except.mapM_eq_ok.mp h
    have hget := hforall.get hi (hforall.length_eq ▸ hi)
    exact ⟨_, hget, hall _ (List.get_mem _ _)⟩

/-- What is after the latest value is after all of them. -/
theorem forall_lt_iff_of_max {floor : UtcTime} (h : normalized.max? = some floor) (value : UtcTime) :
  (∀ t ∈ normalized, t < value) ↔ floor < value
  := by
  obtain ⟨hmem, hmax⟩ := List.max?_eq_some_iff.mp h
  constructor
  · intro hall
    exact hall floor hmem
  · intro hlt t ht
    exact lt_of_le_of_lt (hmax t ht) hlt

/-- What the causal floor returns is after all predecessors. -/
theorem isCausallyAfter_of_ok {value : UtcTime}
    (h : causallyAfterUtc now predecessors candidate = .ok value) :
  ∃ current, currentTime now candidate = .ok current ∧ IsCausallyAfter predecessors current value
  := by
  obtain ⟨current, hcurrent, h⟩ := Except.bind_eq_ok.mp h
  obtain ⟨normalized, hnormalized, h⟩ := Except.bind_eq_ok.mp h
  use current, hcurrent
  have hprecedes := precedes_iff hnormalized
  cases hmax : normalized.max? with
  | none =>
      rw [hmax] at h
      obtain rfl := Except.ok.inj h
      rw [List.max?_eq_none_iff] at hmax
      subst hmax
      constructor
      · exact (hprecedes current).mpr (by simp)
      · exact le_refl current
      · exact fun _ => rfl
  | some floor =>
      rw [hmax] at h
      have hfloor := forall_lt_iff_of_max hmax
      dsimp only at h
      split at h
      case isTrue hlater =>
        obtain rfl := Except.ok.inj h
        constructor
        · exact (hprecedes current).mpr ((hfloor current).mpr hlater)
        · exact le_refl current
        · exact fun _ => rfl
      case isFalse hearlier =>
        have hlt := lt_of_stepAfter h
        constructor
        · exact (hprecedes value).mpr ((hfloor value).mpr hlt)
        · exact le_trans (not_lt.mp hearlier) (le_of_lt hlt)
        · intro hall
          exact absurd ((hfloor current).mp ((hprecedes current).mp hall)) hearlier

/-- The causal floor returns a value when there is a candidate and a value after all predecessors. -/
theorem causallyAfterUtc_ok_iff :
  (∃ value, causallyAfterUtc now predecessors candidate = .ok value)
    ↔ (∃ current, currentTime now candidate = .ok current) ∧ ∃ later, Precedes predecessors later
  := by
  constructor
  · rintro ⟨value, h⟩
    obtain ⟨current, hcurrent, hafter⟩ := isCausallyAfter_of_ok h
    exact ⟨⟨current, hcurrent⟩, value, hafter.after⟩
  · rintro ⟨⟨current, hcurrent⟩, later, hlater⟩
    have hutc : ∀ predecessor ∈ predecessors.filterMap id, ∃ t, predecessor.ensureUtc = .ok t := by
      intro predecessor hmem
      obtain ⟨t, ht, -⟩ := hlater predecessor (mem_filterMap_id.mp hmem)
      use t
    obtain ⟨normalized, hnormalized⟩ := Except.exists_mapM_eq_ok.mpr hutc
    rw [causallyAfterUtc, hcurrent, Except.ok_bind, hnormalized, Except.ok_bind]
    cases hmax : normalized.max? with
    | none => use current
    | some floor =>
        dsimp only
        split
        case isTrue => use current
        case isFalse =>
          have hlt := (forall_lt_iff_of_max hmax later).mp ((precedes_iff hnormalized later).mp hlater)
          obtain ⟨value, hvalue, -⟩ := stepAfter_of_lt hlt
          use value

end

/-- The values of the clock are strictly increasing in every run. Where there is a candidate and a value
after all predecessors, the causal floor returns a value after all predecessors that is not before the
candidate, and is the candidate where that is after all predecessors. -/
theorem clock_and_floor :
  (∀ actions system, Transition.run clockStep {} actions = some system →
      system.published.Pairwise (· < ·))
    ∧ ∀ now predecessors candidate,
      ((∃ value, causallyAfterUtc now predecessors candidate = .ok value)
        ↔ (∃ current, currentTime now candidate = .ok current) ∧ ∃ later, Precedes predecessors later)
      ∧ ∀ value, causallyAfterUtc now predecessors candidate = .ok value →
        ∃ current, currentTime now candidate = .ok current
          ∧ IsCausallyAfter predecessors current value
  := by
  constructor
  · intro actions system hrun
    have hinitial : ClockSystem.Increasing {} := ⟨rfl, List.Pairwise.nil⟩
    exact ((Transition.reaches_of_run hrun).invariant (fun _ _ _ h _ hstep => h.step hstep)
      hinitial).sorted
  · intro now predecessors candidate
    exact ⟨causallyAfterUtc_ok_iff, fun _ => isCausallyAfter_of_ok⟩

/-- No offset is an offset. -/
theorem zero_within :
  -86400000000 < (0 : ℤ) ∧ (0 : ℤ) < 86400000000
  := by decide

/-- The last datetime in UTC. -/
def lastDatetime : Datetime where
  time := ⟨datetimeMax, by decide⟩
  offset := some ⟨0, zero_within⟩

/-- There is no instant after the last datetime, and a reading whose instant no datetime has is not
normalized. -/
theorem causallyAfterUtc_overflows :
  (∀ now candidate, ¬ ∃ value, causallyAfterUtc now [some lastDatetime] candidate = .ok value)
    ∧ Datetime.ensureUtc ⟨⟨datetimeMax, by decide⟩, some ⟨-3600000000, by decide⟩⟩
      = .error "date value out of range"
  := by
  constructor
  · intro now candidate h
    obtain ⟨-, later, hlater⟩ := causallyAfterUtc_ok_iff.mp h
    obtain ⟨t, ht, hlt⟩ := hlater lastDatetime List.mem_cons_self
    have hval : t.val = datetimeMax - 0 := utcTime_eq_ok.mp ht
    have hmax := later.within.2
    rw [UtcTime.lt_iff, hval, Int.sub_zero] at hlt
    exact absurd hlt (not_lt.mpr hmax)
  · decide

/-- Where it returns, the causal floor is the one on instants. -/
theorem causallyAfterUtc_val {now : Except String UtcTime} {predecessors : List (Option Datetime)}
    {candidate : Option Datetime} {value : UtcTime}
    (h : causallyAfterUtc now predecessors candidate = .ok value) :
  ∃ current normalized, currentTime now candidate = .ok current
    ∧ (predecessors.filterMap id).mapM Datetime.ensureUtc = .ok normalized
    ∧ value.val = causallyAfter (normalized.map (fun t => some t.val)) current.val
  := by
  obtain ⟨current, hcurrent, h⟩ := Except.bind_eq_ok.mp h
  obtain ⟨normalized, hnormalized, h⟩ := Except.bind_eq_ok.mp h
  use current, normalized, hcurrent, hnormalized
  have hinstants : (normalized.map (fun t => some t.val)).filterMap id = normalized.map UtcTime.val := by
    rw [List.filterMap_map]
    exact congrFun List.filterMap_eq_map normalized
  rw [causallyAfter, hinstants]
  cases hmax : normalized.max? with
  | none =>
      rw [hmax] at h
      obtain rfl := Except.ok.inj h
      rw [List.max?_eq_none_iff] at hmax
      subst hmax
      rfl
  | some floor =>
      obtain ⟨hmem, hle⟩ := List.max?_eq_some_iff.mp hmax
      have hmax' : (normalized.map UtcTime.val).max? = some floor.val := by
        rw [List.max?_eq_some_iff]
        constructor
        · exact List.mem_map_of_mem hmem
        · intro t ht
          obtain ⟨u, hu, rfl⟩ := List.mem_map.mp ht
          exact hle u hu
      rw [hmax] at h
      rw [hmax']
      dsimp only at h ⊢
      by_cases hlater : floor < current
      · rw [if_pos hlater] at h
        rw [if_pos (UtcTime.lt_iff.mp hlater)]
        rw [Except.ok.inj h]
      · rw [if_neg hlater] at h
        rw [if_neg (fun hlt => hlater (UtcTime.lt_iff.mpr hlt))]
        exact utcTime_eq_ok.mp h

end GoblinKing
