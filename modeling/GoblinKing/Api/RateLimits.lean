import GoblinKing.Contracts
import GoblinKing.Library.Tickets
import GoblinKing.Library.Transition
import Mathlib.Data.List.Count

/-!
# Rate limits

Every request increments a counter of its token and route, and is refused when the counter
is over the limit. A counter is a row of the database: a call reads it, adds one and writes
it back; a call that finds a window of more than a minute resets the counter in a second
transaction of the same form. The reading opens no transaction, so that other calls may write
the row between the reading and the writing of a call. A call is therefore a sequence of
phases here, and the steps of all calls interleave.

The calls hold tickets of an office: the row that a call returns with is its ticket.
-/

namespace GoblinKing

open Transition

/-- Track one local per-token route window. -/
structure RateLimitRecord where
  key : String
  windowStartedAt : Instant
  count : ℕ
  deriving DecidableEq, Repr

/-- The table of rate limits. -/
abbrev RateLimits := Table RateLimitRecord.key

/-- The length of a window, `timedelta(minutes=1)`. -/
def rateLimitWindow : ℤ := 60000000

/-- The row of a counter that is set to a value. -/
def RateLimitRecord.setCount (count : ℕ) (row : RateLimitRecord) : RateLimitRecord :=
  { row with count := count }

theorem RateLimitRecord.setCount_key (count : ℕ) (row : RateLimitRecord) :
  (row.setCount count).key = row.key
  := rfl

/-- The row of a counter whose window starts again. -/
def RateLimitRecord.restart (windowStartedAt : Instant) (row : RateLimitRecord) :
    RateLimitRecord :=
  { row with windowStartedAt := windowStartedAt, count := 1 }

theorem RateLimitRecord.restart_key (windowStartedAt : Instant) (row : RateLimitRecord) :
  (row.restart windowStartedAt).key = row.key
  := rfl

/-- The write of `increment_rate_limit`, after its reading found a row or none: the record
that is returned, and the table. It is `none` when the row to be inserted is there already. -/
def incrementRateLimit (limits : RateLimits) (key : String) (windowStartedAt : Instant)
    (resetExisting : Bool) (row : Option RateLimitRecord) :
    Option (RateLimitRecord × RateLimits) :=
  match row with
  | none => (limits.insert? ⟨key, windowStartedAt, 1⟩).map (fun limits' =>
      (⟨key, windowStartedAt, 1⟩, limits'))
  | some row =>
      if resetExisting then
        some (⟨key, windowStartedAt, 1⟩,
          limits.update (fun r => decide (r.key = key))
            (RateLimitRecord.restart windowStartedAt)
            (RateLimitRecord.restart_key windowStartedAt))
      else
        some (⟨key, row.windowStartedAt, row.count + 1⟩,
          limits.update (fun r => decide (r.key = key))
            (RateLimitRecord.setCount (row.count + 1))
            (RateLimitRecord.setCount_key (row.count + 1)))

/-! ### Calls -/

/-- How far a call is. A call that is allowed has returned, with its record when the limit is
on; one that is denied has raised `RateLimitExceeded`, and one that failed another error. -/
inductive RateLimitPhase where
  | called
  | incrementing (row : Option RateLimitRecord)
  | incremented (existing : RateLimitRecord)
  | resetting (existing : RateLimitRecord) (row : Option RateLimitRecord)
  | allowed (existing : Option RateLimitRecord)
  | denied (existing : RateLimitRecord)
  | failed
  deriving DecidableEq, Repr

/-- One call of `check_rate_limit`, with the instant it read first. -/
structure RateLimitCall where
  tokenId : Id
  route : String
  now : Instant
  phase : RateLimitPhase
  deriving DecidableEq, Repr

/-- The key of the counter of a call. -/
def RateLimitCall.key (call : RateLimitCall) : String :=
  call.tokenId ++ ":" ++ call.route

/-- The comparison at the end of a call. -/
def checkCount (maxPerMinute : ℤ) (existing : RateLimitRecord) : RateLimitPhase :=
  if existing.count > maxPerMinute then .denied existing else .allowed (some existing)

/-- A call is at its end when its record is of a window that is not over. -/
def checkWindow (maxPerMinute : ℤ) (call : RateLimitCall) (limits : RateLimits)
    (existing : RateLimitRecord) : RateLimitPhase :=
  if call.now - existing.windowStartedAt ≥ rateLimitWindow then
    .resetting existing (limits.find? call.key)
  else
    checkCount maxPerMinute existing

/-- Increment and enforce one local per-token route rate limit: the next step of a call on
the table, which is a reading or a write. -/
def checkRateLimit (maxPerMinute : ℤ) (call : RateLimitCall) (limits : RateLimits) :
    Option (RateLimitPhase × RateLimits) :=
  match call.phase with
  | .called => some (.incrementing (limits.find? call.key), limits)
  | .incrementing row =>
      match incrementRateLimit limits call.key call.now false row with
      | some (existing, limits') => some (.incremented existing, limits')
      | none => some (.failed, limits)
  | .incremented existing => some (checkWindow maxPerMinute call limits existing, limits)
  | .resetting _ row =>
      match incrementRateLimit limits call.key call.now true row with
      | some (existing, limits') => some (checkCount maxPerMinute existing, limits')
      | none => some (.failed, limits)
  | .allowed _ | .denied _ | .failed => none

/-- A call is still under way. -/
def RateLimitPhase.isOpen : RateLimitPhase → Bool
  | .called | .incrementing _ | .incremented _ | .resetting _ _ => true
  | .allowed _ | .denied _ | .failed => false

/-- The table of rate limits and the calls made so far. -/
structure RateLimitState where
  limits : RateLimits
  calls : List RateLimitCall
  deriving DecidableEq

/-- A step: a call begins, the next step of a call, or an error of the database in a call. -/
inductive RateLimitAction where
  | call (tokenId : Id) (route : String) (now : Instant)
  | advance (i : ℕ)
  | fail (i : ℕ)
  deriving DecidableEq, Repr

/-- One step of all calls under a limit. Without a positive limit a call returns at once. -/
def rateLimitStep (maxPerMinute : ℤ) (s : RateLimitState) :
    RateLimitAction → Option RateLimitState
  | .call tokenId route now =>
      some { s with
        calls := s.calls ++ [⟨tokenId, route, now,
          if maxPerMinute ≤ 0 then .allowed none else .called⟩] }
  | .advance i =>
      s.calls[i]?.bind (fun call =>
        (checkRateLimit maxPerMinute call s.limits).map (fun (phase, limits) =>
          ⟨limits, s.calls.set i { call with phase := phase }⟩))
  | .fail i =>
      s.calls[i]?.bind (fun call =>
        if call.phase.isOpen then
          some { s with calls := s.calls.set i { call with phase := .failed } }
        else
          none)

/-- No call is under way. -/
def RateLimitState.initial (limits : RateLimits) : RateLimitState :=
  ⟨limits, []⟩

/-- A call has returned without an error, and its record is of a window that was started at
an instant of the minute from `w`. -/
def RateLimitCall.allowedIn (w : Instant) (call : RateLimitCall) : Bool :=
  match call.phase with
  | .allowed existing => existing.all (fun record =>
      decide (w ≤ record.windowStartedAt ∧ record.windowStartedAt < w + rateLimitWindow))
  | _ => false

/-- The number of calls of a token on a route that returned without an error in the window
of a minute from `w`. -/
def allowedCalls (s : RateLimitState) (tokenId : Id) (route : String) (w : Instant) : ℕ :=
  s.calls.countP (fun call =>
    decide (call.tokenId = tokenId) && decide (call.route = route) && call.allowedIn w)

/-- The step that a call is about to make finds the counter as the call left it: an increment
writes over the row that was read, and a reset over a row of the window that was found to be
over. Every other step is undisturbed. -/
def undisturbed (s : RateLimitState) : RateLimitAction → Bool
  | .advance i =>
      s.calls[i]?.all (fun call =>
        match call.phase with
        | .incrementing (some row) => decide (s.limits.find? call.key = some row)
        | .resetting existing _ => (s.limits.find? call.key).any (fun row =>
            decide (row.windowStartedAt = existing.windowStartedAt))
        | _ => true)
  | .call _ _ _ | .fail _ => true

/-! ### Rows as tickets -/

/-- The ticket that a record of a counter is. -/
def RateLimitRecord.ticket (record : RateLimitRecord) : Ticket String :=
  ⟨record.key, record.windowStartedAt, record.count⟩

/-- The record that a call holds. -/
def RateLimitPhase.record : RateLimitPhase → Option RateLimitRecord
  | .incremented existing | .resetting existing _ | .denied existing => some existing
  | .allowed existing => existing
  | .called | .incrementing _ | .failed => none

/-- The ticket that a call holds. -/
def RateLimitPhase.ticket (phase : RateLimitPhase) : Option (Ticket String) :=
  phase.record.map RateLimitRecord.ticket

/-- The tickets that the calls hold. -/
def heldTickets (calls : List RateLimitCall) : Multiset (Ticket String) :=
  Multiset.ofList (calls.filterMap (fun call => call.phase.ticket))

/-- The last ticket of every key, by the rows of the table. -/
def lastTickets (limits : RateLimits) (key : String) : Option (Ticket String) :=
  (limits.find? key).map RateLimitRecord.ticket

/-- What a call knows: its record has its key, a call that found a window that was over read
the clock at least a minute after the start of the window, and a call that is allowed has a
record within the limit. -/
structure RateLimitCall.Sound (maxPerMinute : ℤ) (call : RateLimitCall) : Prop where
  key_eq : ∀ record, call.phase.record = some record → record.key = call.key
  windowOver : ∀ existing row, call.phase = .resetting existing row →
    existing.windowStartedAt + rateLimitWindow ≤ call.now
  withinLimit : ∀ existing, call.phase = .allowed existing →
    ∃ record, existing = some record ∧ record.count ≤ maxPerMinute

/-- The calls hold the tickets of an office whose last tickets are the rows of the table. -/
structure Ticketed (maxPerMinute : ℤ) (s : RateLimitState)
    (o : Office String rateLimitWindow) : Prop where
  last_eq : o.last = lastTickets s.limits
  tickets_eq : o.tickets = heldTickets s.calls
  sound : ∀ call ∈ s.calls, call.Sound maxPerMinute

/-- A minute is not empty. -/
theorem rateLimitWindow_pos :
  0 < rateLimitWindow
  := by
  decide

/-- The tickets of the calls are those of one call and those of the others. -/
theorem heldTickets_set {calls : List RateLimitCall} {i : ℕ} {call : RateLimitCall}
    (h : calls[i]? = some call) :
  ∃ others : Multiset (Ticket String),
    heldTickets calls = (call.phase.ticket.toList : Multiset (Ticket String)) + others
    ∧ ∀ call' : RateLimitCall,
        heldTickets (calls.set i call')
          = (call'.phase.ticket.toList : Multiset (Ticket String)) + others
  := by
  obtain ⟨hi, rfl⟩ := List.getElem?_eq_some_iff.mp h
  -- the others are the calls before and after the one
  use heldTickets (calls.take i ++ calls.drop (i + 1))
  have hsplit : ∀ call' : RateLimitCall,
      heldTickets (calls.take i ++ call' :: calls.drop (i + 1))
        = (call'.phase.ticket.toList : Multiset (Ticket String))
          + heldTickets (calls.take i ++ calls.drop (i + 1)) := by
    intro call'
    unfold heldTickets
    rw [Multiset.coe_add, List.filterMap_append, List.filterMap_append, List.filterMap_cons]
    apply Multiset.coe_eq_coe.mpr
    cases call'.phase.ticket with
    | none => apply List.Perm.refl
    | some t => apply List.perm_middle
  constructor
  · rw [← hsplit, List.cons_getElem_drop_succ, List.take_append_drop]
  · intro call'
    rw [List.set_eq_take_append_cons_drop, if_pos hi, hsplit]

/-- A call that changes its phase without another record leaves the office as it is. -/
theorem Ticketed.keep {maxPerMinute : ℤ} {s : RateLimitState}
    {o : Office String rateLimitWindow} (h : Ticketed maxPerMinute s o) {i : ℕ}
    {call : RateLimitCall} (hcall : s.calls[i]? = some call) {phase : RateLimitPhase}
    (hrecord : phase.record = call.phase.record)
    (hsound : RateLimitCall.Sound maxPerMinute { call with phase := phase }) :
  Ticketed maxPerMinute ⟨s.limits, s.calls.set i { call with phase := phase }⟩ o
  := by
  obtain ⟨others, hheld, hset⟩ := heldTickets_set hcall
  constructor
  · apply h.last_eq
  · rw [h.tickets_eq, hheld, hset, RateLimitPhase.ticket, RateLimitPhase.ticket, hrecord]
  · intro c hc
    rcases List.mem_or_eq_of_mem_set hc with hc | rfl
    · apply h.sound c hc
    · apply hsound

/-- A call that fails gives its ticket back. -/
theorem Ticketed.fail {maxPerMinute : ℤ} {s : RateLimitState}
    {o : Office String rateLimitWindow} (h : Ticketed maxPerMinute s o) {i : ℕ}
    {call : RateLimitCall} (hcall : s.calls[i]? = some call) :
  ∃ o', Ticketed maxPerMinute ⟨s.limits, s.calls.set i { call with phase := .failed }⟩ o'
  := by
  obtain ⟨others, hheld, hset⟩ := heldTickets_set hcall
  have hle : others ≤ o.tickets := by
    rw [h.tickets_eq, hheld]
    apply Multiset.le_add_left
  use o.discard others hle
  constructor
  · apply h.last_eq
  · change others = _
    rw [hset]
    exact (Multiset.zero_add others).symm
  · intro c hc
    rcases List.mem_or_eq_of_mem_set hc with hc | rfl
    · apply h.sound c hc
    · constructor
      · intro record hrecord
        cases hrecord
      · intro existing row hphase
        cases hphase
      · intro existing hphase
        cases hphase

/-- A call that writes the counter of its key gets the ticket that the office hands out. -/
theorem Ticketed.write {maxPerMinute : ℤ} {s : RateLimitState}
    {o : Office String rateLimitWindow} (h : Ticketed maxPerMinute s o) {i : ℕ}
    {call : RateLimitCall} (hcall : s.calls[i]? = some call) {phase : RateLimitPhase}
    {record : RateLimitRecord} {limits : RateLimits}
    (hrecord : phase.record = some record) (hkey : record.key = call.key)
    (hlimits : ∀ key, limits.find? key = if key = call.key then some record else s.limits.find? key)
    (hpositive : 1 ≤ record.count)
    (hnew : ∀ t ∈ o.tickets, t.key = record.key →
      (t.opened = record.windowStartedAt ∧ t.number < record.count)
        ∨ t.opened + rateLimitWindow ≤ record.windowStartedAt)
    (hsound : RateLimitCall.Sound maxPerMinute { call with phase := phase }) :
  ∃ o', Ticketed maxPerMinute ⟨limits, s.calls.set i { call with phase := phase }⟩ o'
  := by
  obtain ⟨others, hheld, hset⟩ := heldTickets_set hcall
  -- the call gives the ticket back that it held, if any, and gets the new one
  have hle : others ≤ o.tickets := by
    rw [h.tickets_eq, hheld]
    apply Multiset.le_add_left
  use (o.discard others hle).hand record.ticket hpositive
    (fun t ht hk => hnew t (Multiset.mem_of_le hle ht) hk) rateLimitWindow_pos
  constructor
  · funext key
    change (if key = record.key then some record.ticket else o.last key) = _
    rw [lastTickets, hlimits, hkey, h.last_eq]
    split
    · rfl
    · rfl
  · change record.ticket ::ₘ others = _
    rw [hset, RateLimitPhase.ticket, hrecord]
    rfl
  · intro c hc
    rcases List.mem_or_eq_of_mem_set hc with hc | rfl
    · apply h.sound c hc
    · apply hsound

/-! ### Undisturbed runs -/

/-- The comparison at the end of a call keeps its record. -/
@[simp]
theorem record_checkCount (maxPerMinute : ℤ) (existing : RateLimitRecord) :
  (checkCount maxPerMinute existing).record = some existing
  := by
  unfold checkCount
  split <;> rfl

/-- A call at its end is allowed only with a record within the limit. -/
theorem sound_checkCount {maxPerMinute : ℤ} {call : RateLimitCall} {existing : RateLimitRecord}
    (hkey : existing.key = call.key) :
  RateLimitCall.Sound maxPerMinute { call with phase := checkCount maxPerMinute existing }
  := by
  constructor
  · intro record hrecord
    rw [record_checkCount] at hrecord
    obtain rfl := Option.some.inj hrecord
    apply hkey
  · intro other row hphase
    change checkCount maxPerMinute existing = _ at hphase
    unfold checkCount at hphase
    split at hphase <;> cases hphase
  · intro other hphase
    change checkCount maxPerMinute existing = _ at hphase
    unfold checkCount at hphase
    split at hphase
    case isTrue => cases hphase
    case isFalse hcount =>
      use existing
      constructor
      · injection hphase with h
        apply h.symm
      · apply not_lt.mp hcount

/-- Every ticket of a key is of the window of its row, with a number up to the count, or of a
window that was over when that was started. -/
theorem Ticketed.covered {maxPerMinute : ℤ} {s : RateLimitState}
    {o : Office String rateLimitWindow} (h : Ticketed maxPerMinute s o) {t : Ticket String}
    (ht : t ∈ o.tickets) :
  ∃ row, s.limits.find? t.key = some row
    ∧ ((t.opened = row.windowStartedAt ∧ t.number ≤ row.count)
      ∨ t.opened + rateLimitWindow ≤ row.windowStartedAt)
  := by
  obtain ⟨l, hl, hcovered⟩ := o.covered t ht
  rw [h.last_eq] at hl
  obtain ⟨row, hrow, rfl⟩ := Option.map_eq_some_iff.mp hl
  use row, hrow
  apply hcovered

/-- An undisturbed increment hands out the next number of the window, or opens the first. -/
theorem Ticketed.increment {maxPerMinute : ℤ} {s : RateLimitState}
    {o : Office String rateLimitWindow} (h : Ticketed maxPerMinute s o) {i : ℕ}
    {call : RateLimitCall} (hcall : s.calls[i]? = some call) {row : Option RateLimitRecord}
    {existing : RateLimitRecord} {limits : RateLimits}
    (hrow : ∀ r, row = some r → s.limits.find? call.key = some r)
    (hwrite : incrementRateLimit s.limits call.key call.now false row = some (existing, limits)) :
  ∃ o', Ticketed maxPerMinute
    ⟨limits, s.calls.set i { call with phase := .incremented existing }⟩ o'
  := by
  have hsound : existing.key = call.key → RateLimitCall.Sound maxPerMinute
      { call with phase := .incremented existing } := by
    intro hkey
    constructor
    · intro record hrecord
      obtain rfl := Option.some.inj hrecord
      apply hkey
    · intro other row hphase
      cases hphase
    · intro other hphase
      cases hphase
  cases row with
  | none =>
      obtain ⟨limits', hinsert, heq⟩ := Option.map_eq_some_iff.mp hwrite
      cases heq
      apply h.write hcall rfl rfl _ (le_refl 1) _ (hsound rfl)
      · intro key
        rw [Table.find?_insert? hinsert]
        simp only [eq_comm]
      · intro t ht hkey
        obtain ⟨row, hfound, -⟩ := h.covered ht
        have hnone := Table.find?_of_insert? hinsert
        rw [hkey, hnone] at hfound
        cases hfound
  | some row =>
      have hfind := hrow row rfl
      have hkey := Table.key_of_find? hfind
      rw [incrementRateLimit, if_neg Bool.false_ne_true] at hwrite
      cases hwrite
      apply h.write hcall rfl rfl _ (Nat.le_add_left 1 row.count) _ (hsound rfl)
      · intro key
        rw [Table.find?_update]
        by_cases hk : key = call.key
        · simp [hk, hfind, hkey, RateLimitRecord.setCount]
        · cases hother : s.limits.find? key with
          | none => simp [hk]
          | some other => simp [hk, Table.key_of_find? hother]
      · intro t ht hk
        obtain ⟨row', hfound, hcovered⟩ := h.covered ht
        rw [hk, hfind] at hfound
        obtain rfl := Option.some.inj hfound
        rcases hcovered with ⟨hopened, hnumber⟩ | hopened
        · exact .inl ⟨hopened, Nat.lt_succ_of_le hnumber⟩
        · exact .inr hopened

/-- An undisturbed reset opens a window after the one that was found to be over. -/
theorem Ticketed.reset {maxPerMinute : ℤ} {s : RateLimitState}
    {o : Office String rateLimitWindow} (h : Ticketed maxPerMinute s o) {i : ℕ}
    {call : RateLimitCall} (hcall : s.calls[i]? = some call) {row : Option RateLimitRecord}
    {found existing : RateLimitRecord} {limits : RateLimits}
    (hphase : call.phase = .resetting found row)
    (hrow : (s.limits.find? call.key).any
      (fun r => decide (r.windowStartedAt = found.windowStartedAt)) = true)
    (hwrite : incrementRateLimit s.limits call.key call.now true row = some (existing, limits)) :
  ∃ o', Ticketed maxPerMinute
    ⟨limits, s.calls.set i { call with phase := checkCount maxPerMinute existing }⟩ o'
  := by
  obtain ⟨current, hfind, hwindow⟩ := (Option.any_eq_true _ _).mp hrow
  have hwindow := of_decide_eq_true hwindow
  have hkey := Table.key_of_find? hfind
  have hover := (h.sound call (List.mem_of_getElem? hcall)).windowOver found row hphase
  cases row with
  | none =>
      obtain ⟨limits', hinsert, -⟩ := Option.map_eq_some_iff.mp hwrite
      have hnone := Table.find?_of_insert? hinsert
      rw [hfind] at hnone
      cases hnone
  | some row =>
      rw [incrementRateLimit, if_pos rfl] at hwrite
      cases hwrite
      apply h.write hcall (record_checkCount _ _) rfl _ (le_refl 1) _ (sound_checkCount rfl)
      · intro key
        rw [Table.find?_update]
        by_cases hk : key = call.key
        · simp [hk, hfind, hkey, RateLimitRecord.restart]
        · cases hother : s.limits.find? key with
          | none => simp [hk]
          | some other => simp [hk, Table.key_of_find? hother]
      · intro t ht hk
        obtain ⟨row', hfound, hcovered⟩ := h.covered ht
        rw [hk, hfind] at hfound
        obtain rfl := Option.some.inj hfound
        right
        change t.opened + rateLimitWindow ≤ call.now
        rcases hcovered with ⟨hopened, -⟩ | hopened
        · rw [hopened, hwindow]
          apply hover
        · calc t.opened + rateLimitWindow ≤ found.windowStartedAt := hwindow ▸ hopened
            _ ≤ found.windowStartedAt + rateLimitWindow :=
              le_add_of_nonneg_right rateLimitWindow_pos.le
            _ ≤ call.now := hover

/-- A call that compares its record with the clock and the limit keeps its record. -/
theorem Ticketed.check {maxPerMinute : ℤ} {s : RateLimitState}
    {o : Office String rateLimitWindow} (h : Ticketed maxPerMinute s o) {i : ℕ}
    {call : RateLimitCall} (hcall : s.calls[i]? = some call) {existing : RateLimitRecord}
    (hphase : call.phase = .incremented existing) :
  Ticketed maxPerMinute ⟨s.limits, s.calls.set i
    { call with phase := checkWindow maxPerMinute call s.limits existing }⟩ o
  := by
  have hkey : existing.key = call.key := by
    apply (h.sound call (List.mem_of_getElem? hcall)).key_eq
    rw [hphase]
    rfl
  apply h.keep hcall
  · rw [hphase, checkWindow]
    split
    · rfl
    · apply record_checkCount
  · unfold checkWindow
    split
    case isFalse => apply sound_checkCount hkey
    case isTrue hover =>
      constructor
      · intro record hrecord
        obtain rfl := Option.some.inj hrecord
        apply hkey
      · intro found row heq
        cases heq
        change existing.windowStartedAt + rateLimitWindow ≤ call.now
        rw [add_comm]
        apply Int.add_le_of_le_sub_right hover
      · intro other heq
        cases heq

/-- A call that begins holds no ticket. -/
theorem Ticketed.begin {maxPerMinute : ℤ} {s : RateLimitState}
    {o : Office String rateLimitWindow} (h : Ticketed maxPerMinute s o) (tokenId : Id)
    (route : String) (now : Instant) :
  Ticketed maxPerMinute ⟨s.limits, s.calls ++ [⟨tokenId, route, now, .called⟩]⟩ o
  := by
  constructor
  · apply h.last_eq
  · rw [h.tickets_eq, heldTickets, heldTickets, List.filterMap_append]
    simp [RateLimitPhase.ticket, RateLimitPhase.record]
  · intro c hc
    rcases List.mem_append.mp hc with hc | hc
    · apply h.sound c hc
    · obtain rfl := List.mem_singleton.mp hc
      constructor
      · intro record hrecord
        cases hrecord
      · intro existing row hphase
        cases hphase
      · intro existing hphase
        cases hphase

/-- A call that has read the row of its counter holds no ticket yet. -/
theorem Ticketed.read {maxPerMinute : ℤ} {s : RateLimitState}
    {o : Office String rateLimitWindow} (h : Ticketed maxPerMinute s o) {i : ℕ}
    {call : RateLimitCall} (hcall : s.calls[i]? = some call) (hphase : call.phase = .called) :
  Ticketed maxPerMinute ⟨s.limits, s.calls.set i
    { call with phase := .incrementing (s.limits.find? call.key) }⟩ o
  := by
  apply h.keep hcall
  · rw [hphase]
    rfl
  · constructor
    · intro record hrecord
      cases hrecord
    · intro existing row heq
      cases heq
    · intro existing heq
      cases heq

/-- Every undisturbed step of the calls is a step of an office. -/
theorem Ticketed.step {maxPerMinute : ℤ} (hlimit : 0 < maxPerMinute) {s t : RateLimitState}
    {o : Office String rateLimitWindow} (h : Ticketed maxPerMinute s o)
    {action : RateLimitAction} (hundisturbed : undisturbed s action = true)
    (hstep : rateLimitStep maxPerMinute s action = some t) :
  ∃ o', Ticketed maxPerMinute t o'
  := by
  cases action with
  | call tokenId route now =>
      rw [rateLimitStep, if_neg (not_le.mpr hlimit)] at hstep
      cases hstep
      exact ⟨o, h.begin tokenId route now⟩
  | fail i =>
      obtain ⟨call, hcall, hstep⟩ := Option.bind_eq_some_iff.mp hstep
      split at hstep
      · cases hstep
        apply h.fail hcall
      · cases hstep
  | advance i =>
      obtain ⟨call, hcall, hstep⟩ := Option.bind_eq_some_iff.mp hstep
      obtain ⟨⟨phase, limits⟩, hcheck, rfl⟩ := Option.map_eq_some_iff.mp hstep
      simp only [undisturbed, hcall, Option.all_some] at hundisturbed
      unfold checkRateLimit at hcheck
      cases hphase : call.phase with
      | called =>
          rw [hphase] at hcheck
          cases hcheck
          exact ⟨o, h.read hcall hphase⟩
      | incrementing row =>
          simp only [hphase] at hcheck hundisturbed
          split at hcheck
          case h_1 existing limits' hwrite =>
            cases hcheck
            apply h.increment hcall _ hwrite
            rintro r rfl
            apply of_decide_eq_true hundisturbed
          case h_2 =>
            cases hcheck
            apply h.fail hcall
      | incremented existing =>
          rw [hphase] at hcheck
          cases hcheck
          exact ⟨o, h.check hcall hphase⟩
      | resetting found row =>
          simp only [hphase] at hcheck hundisturbed
          split at hcheck
          case h_1 existing limits' hwrite =>
            cases hcheck
            apply h.reset hcall hphase hundisturbed hwrite
          case h_2 =>
            cases hcheck
            apply h.fail hcall
      | allowed existing =>
          rw [hphase] at hcheck
          cases hcheck
      | denied existing =>
          rw [hphase] at hcheck
          cases hcheck
      | failed =>
          rw [hphase] at hcheck
          cases hcheck

/-- In every run without disturbed steps the calls hold the tickets of an office. -/
theorem ticketed_of_run {maxPerMinute : ℤ} (hlimit : 0 < maxPerMinute) {limits : RateLimits}
    {actions : List RateLimitAction} {s : RateLimitState}
    (h : runUnder (rateLimitStep maxPerMinute) undisturbed (.initial limits) actions = some s) :
  ∃ o, Ticketed maxPerMinute s o
  := by
  apply (path_of_runUnder h).invariant (I := fun s => ∃ o, Ticketed maxPerMinute s o)
  · rintro s action t ⟨o, ho⟩ hundisturbed hstep
    apply ho.step hlimit hundisturbed hstep
  · use Office.closed (lastTickets limits)
    constructor
    · rfl
    · rfl
    · intro call hcall
      cases hcall

/-- The calls allowed in a minute hold tickets of the minute, with numbers up to the limit. -/
theorem Ticketed.allowedCalls_le {maxPerMinute : ℕ} {s : RateLimitState}
    {o : Office String rateLimitWindow} (h : Ticketed maxPerMinute s o) (tokenId : Id)
    (route : String) (w : Instant) :
  allowedCalls s tokenId route w ≤ o.tickets.countP (fun t =>
    t.key = tokenId ++ ":" ++ route ∧ t.number ≤ maxPerMinute
      ∧ w ≤ t.opened ∧ t.opened < w + rateLimitWindow)
  := by
  rw [h.tickets_eq, heldTickets, Multiset.coe_countP, List.countP_filterMap]
  apply List.countP_mono_left
  intro call hcall hallowed
  simp only [Bool.and_eq_true, decide_eq_true_eq] at hallowed
  obtain ⟨⟨rfl, rfl⟩, hallowed⟩ := hallowed
  unfold RateLimitCall.allowedIn at hallowed
  split at hallowed
  case h_1 existing hphase =>
    obtain ⟨record, rfl, hwithin⟩ := (h.sound call hcall).withinLimit existing hphase
    have hkey := (h.sound call hcall).key_eq record (by rw [hphase]; rfl)
    have hwindow := of_decide_eq_true hallowed
    rw [hphase]
    apply decide_eq_true
    exact ⟨hkey, Int.ofNat_le.mp hwithin, hwindow⟩
  case h_2 => cases hallowed

/-- In a run in which no call writes over a counter that another call has changed since, at
most as many calls of a token on a route as the limit are allowed in a window of a minute. -/
theorem allowedCalls_le_maxPerMinute {maxPerMinute : ℤ} (hlimit : 0 < maxPerMinute)
    {limits : RateLimits} {actions : List RateLimitAction} {s : RateLimitState}
    (h : runUnder (rateLimitStep maxPerMinute) undisturbed (.initial limits) actions = some s)
    (tokenId : Id) (route : String) (w : Instant) :
  (allowedCalls s tokenId route w : ℤ) ≤ maxPerMinute
  := by
  obtain ⟨o, ho⟩ := ticketed_of_run hlimit h
  obtain ⟨limit, rfl⟩ := Int.eq_ofNat_of_zero_le hlimit.le
  apply Int.ofNat_le.mpr
  calc allowedCalls s tokenId route w
      ≤ o.tickets.countP _ := ho.allowedCalls_le tokenId route w
    _ ≤ limit := o.countP_le _ limit w

/-- Three calls under a limit of two, one after the other. -/
def threeCalls : List RateLimitAction :=
  [.call "token-1" "/jobs" 0, .advance 0, .advance 0, .advance 0,
    .call "token-1" "/jobs" 1, .advance 1, .advance 1, .advance 1,
    .call "token-1" "/jobs" 2, .advance 2, .advance 2, .advance 2]

/-- Of three calls one after the other two are allowed. -/
theorem allowedCalls_threeCalls :
  ∃ s, runUnder (rateLimitStep 2) undisturbed (.initial .empty) threeCalls = some s
    ∧ (allowedCalls s "token-1" "/jobs" 0 : ℤ) ≤ 2
  := by
  have hrun : (runUnder (rateLimitStep 2) undisturbed (.initial .empty) threeCalls).isSome := by
    decide
  obtain ⟨s, hs⟩ := Option.isSome_iff_exists.mp hrun
  use s, hs
  apply allowedCalls_le_maxPerMinute (by decide) hs

/-- Three calls under a limit of two, the second and the third of which read the counter
before either of them writes it. -/
def overlappingCalls : List RateLimitAction :=
  [.call "token-1" "/jobs" 0, .advance 0, .advance 0, .advance 0,
    .call "token-1" "/jobs" 1, .call "token-1" "/jobs" 2, .advance 1, .advance 2,
    .advance 1, .advance 2, .advance 1, .advance 2]

/-- Under a limit of two, three calls are allowed in the minute that the first of them
started, when the second and the third read the counter before either of them writes it. -/
theorem overlappingCalls_exceed :
  ∃ s, run (rateLimitStep 2) (.initial .empty) overlappingCalls = some s
    ∧ allowedCalls s "token-1" "/jobs" 0 = 3
  := by
  refine ⟨_, rfl, ?_⟩
  decide

end GoblinKing
