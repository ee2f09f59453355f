import GoblinKing.CausalTime
import GoblinKing.Library.Except
import GoblinKing.Library.Index
import GoblinKing.Library.OrderedLog
import GoblinKing.Library.Transition

/-!
# The event log

The rows of durable events, and the counter that numbers them. An event is persisted in one
transaction, which puts its timestamp after that of the newest row and takes the next number
of the counter. Cleanup takes rows out, among them the newest, from which the timestamp of the
next event is derived; and every start of the store runs the migration, which writes the
counter. The numbers and the timestamps stay in order all the same.
-/

namespace GoblinKing

/-- One durable event. The sequence of an event that has not been persisted is 0. -/
structure EventRecord where
  id : Id
  sequence : ℕ := 0
  createdAt : Instant
  eventType : String
  projectId : Option Id := none
  jobId : Option Id := none
  runId : Option Id := none
  fanoutId : Option Id := none
  scheduleId : Option Id := none
  workerId : Option Id := none
  schedulerId : Option Id := none
  payload : JsonObject := ⟨"\x7b\x7d"⟩
  deriving DecidableEq, Repr

/-- The sequence of an event in the index `ix_events_causal_sequence`. -/
def EventRecord.sequenceIndex (event : EventRecord) : Option ℕ :=
  some event.sequence

/-- The events and the row of the table `causal_sequences` that counts them. -/
structure EventDb where
  events : IndexedTable EventRecord.id EventRecord.sequenceIndex
  counter : Option ℕ

/-- The newest event, by sequence, among those that satisfy a condition. -/
def latestEvent (db : EventDb) (p : EventRecord → Bool) : Option EventRecord :=
  (db.events.table.rows.filter p).argmax EventRecord.sequence

/-- The timestamp of the newest event that satisfies a condition. -/
def latestEventCreatedAt (db : EventDb) (p : EventRecord → Bool) : Option Instant :=
  (latestEvent db p).map EventRecord.createdAt

/-- Insert one causally ordered event, and return it with its sequence and its timestamp. -/
def persistEvent (db : EventDb) (event : EventRecord) : Except String (EventDb × EventRecord) := do
  let createdAt := causallyAfter [latestEventCreatedAt db (fun _ => true)] event.createdAt
  raiseIf (decide (datetimeMax < createdAt)) "date value out of range"
  match db.counter with
  | none => .error "No row was found when one was required"
  | some value => do
      let stored := { event with sequence := value + 1, createdAt := createdAt }
      let events ← uniqueOr (db.events.insert? stored)
      .ok ({ events := events, counter := some (value + 1) }, stored)

/-- `EventBus.emit` up to the delivery: the event is persisted with the time of the clock, or
with a later one when the event has a causal predecessor. -/
def emit (db : EventDb) (event : EventRecord) (after : Option Instant) (clock : Instant) :
    Except String (EventDb × EventRecord) :=
  persistEvent db { event with createdAt := causallyAfter [after] clock }

/-- The deletion of events by `cleanup_runtime_rows`: those of a project, or all. -/
def cleanupEvents (db : EventDb) (projectId : Option Id) : EventDb :=
  { db with events := db.events.delete (fun event =>
      projectId.isNone || decide (event.projectId = projectId)) }

/-- The highest sequence of an event, 0 when there is no event. -/
def maxSequence (db : EventDb) : ℕ :=
  ((db.events.table.rows.map EventRecord.sequence).max?).getD 0

/-- The sequence of an event by the position of its row. -/
def renumbered (rows : List EventRecord) (event : EventRecord) : EventRecord :=
  { event with sequence := rows.findIdx (fun row => row.id = event.id) + 1 }

theorem renumbered_id (rows : List EventRecord) (event : EventRecord) :
  (renumbered rows event).id = event.id
  := rfl

/-- Number all events again when one of them has no sequence. -/
def backfillSequences (db : EventDb) :
    Except String (IndexedTable EventRecord.id EventRecord.sequenceIndex) :=
  if db.events.table.rows.any (fun event => event.sequence = 0) then
    uniqueOr (db.events.update? (fun _ => true) (renumbered db.events.table.rows)
      (renumbered_id db.events.table.rows))
  else
    .ok db.events

/-- What `ensure_schema_columns` does to the sequences of events. -/
def ensureEventSequences (db : EventDb) : Except String EventDb := do
  let events ← backfillSequences db
  let highest := maxSequence { db with events := events }
  let value := db.counter.getD highest
  .ok { events := events, counter := some (max value highest) }

/-- A database that the current schema has just created. -/
def EventDb.init : EventDb where
  events := .empty
  counter := some 0

/-- A transaction on the event log. -/
inductive EventOp where
  | persist (event : EventRecord)
  | cleanup (projectId : Option Id)
  | ensureSchema
  deriving DecidableEq

/-- The log after a transaction; one that raises leaves it as it was. -/
def eventStep (db : EventDb) : EventOp → Option EventDb
  | .persist event =>
      match persistEvent db event with
      | .ok (db', _) => some db'
      | .error _ => some db
  | .cleanup projectId => some (cleanupEvents db projectId)
  | .ensureSchema =>
      match ensureEventSequences db with
      | .ok db' => some db'
      | .error _ => some db

/-- The history of the sequences that were assigned, the last one first. -/
def assignedSequences (db : EventDb) (op : EventOp) (_ : EventDb) (assigned : List ℕ) : List ℕ :=
  match op with
  | .persist event =>
      match persistEvent db event with
      | .ok (_, stored) => stored.sequence :: assigned
      | .error _ => assigned
  | .cleanup _ | .ensureSchema => assigned

/-! ### Order -/

section

variable {db db' : EventDb} {counter : ℕ}

/-- The rows of a log are in order under its counter, and are numbered from 1 on. -/
structure EventDb.Ordered (db : EventDb) (counter : ℕ) : Prop where
  counted : db.counter = some counter
  rows : OrderedLog.Ordered EventRecord.sequence EventRecord.createdAt db.events.table.rows counter
  positive : ∀ event ∈ db.events.table.rows, event.sequence ≠ 0

/-- An event is persisted with the next sequence, after all other rows. -/
theorem persistEvent_ok {event stored : EventRecord}
    (h : persistEvent db event = .ok (db', stored)) :
  ∃ value, db.counter = some value ∧ db'.counter = some (value + 1)
    ∧ stored = { event with
        sequence := value + 1
        createdAt := causallyAfter [latestEventCreatedAt db (fun _ => true)] event.createdAt }
    ∧ db'.events.table.rows = db.events.table.rows ++ [stored]
  := by
  rw [persistEvent] at h
  obtain ⟨_, -, h⟩ := Except.bind_eq_ok.mp h
  split at h
  · cases h
  case h_2 value hvalue =>
    obtain ⟨events, hinsert, h⟩ := Except.bind_eq_ok.mp h
    cases h
    exact ⟨value, hvalue, rfl, rfl, IndexedTable.rows_of_insert? (uniqueOr_ok.mp hinsert)⟩

/-- A timestamp after that of the newest event is after those of all events. -/
theorem EventDb.Ordered.lt_stamp (h : db.Ordered counter) (candidate : Instant) :
  ∀ event ∈ db.events.table.rows,
    event.createdAt < causallyAfter [latestEventCreatedAt db (fun _ => true)] candidate
  := by
  intro event hevent
  rw [latestEventCreatedAt, latestEvent, List.filter_true]
  cases hlast : db.events.table.rows.argmax EventRecord.sequence with
  | none =>
      rw [List.argmax_eq_none.mp hlast] at hevent
      cases hevent
  | some last =>
      apply (h.rows.stamp_le_argmax hlast hevent).trans_lt
      apply lt_causallyAfter
      apply List.mem_singleton_self

/-- A persisted event keeps the log in order. -/
theorem EventDb.Ordered.persist (hdb : db.Ordered counter) {event stored : EventRecord}
    (h : persistEvent db event = .ok (db', stored)) :
  db'.Ordered (counter + 1) ∧ stored.sequence = counter + 1
  := by
  obtain ⟨value, hvalue, hcounter, rfl, hrows⟩ := persistEvent_ok h
  obtain rfl : counter = value := Option.some.inj (hdb.counted.symm.trans hvalue)
  refine ⟨⟨hcounter, ?_, ?_⟩, rfl⟩
  · rw [hrows]
    apply hdb.rows.append rfl
    apply hdb.lt_stamp
  · intro row hrow
    rw [hrows] at hrow
    rcases List.mem_append.mp hrow with hrow | hrow
    · apply hdb.positive row hrow
    · rw [List.mem_singleton.mp hrow]
      apply Nat.succ_ne_zero

/-- The newest event that satisfies a condition is not before any other such event. -/
theorem EventDb.Ordered.le_latestEventCreatedAt (h : db.Ordered counter)
    {p : EventRecord → Bool} {event : EventRecord} (hevent : event ∈ db.events.table.rows)
    (hp : p event = true) :
  ∃ t, latestEventCreatedAt db p = some t ∧ event.createdAt ≤ t
  := by
  have hmember : event ∈ db.events.table.rows.filter p := List.mem_filter.mpr ⟨hevent, hp⟩
  rw [latestEventCreatedAt, latestEvent]
  cases hlast : (db.events.table.rows.filter p).argmax EventRecord.sequence with
  | none =>
      rw [List.argmax_eq_none.mp hlast] at hmember
      cases hmember
  | some last =>
      use last.createdAt, rfl
      apply (h.rows.sublist List.filter_sublist).stamp_le_argmax hlast hmember

/-- An emitted event is a new last row, and is after all other rows and its predecessor. -/
theorem EventDb.Ordered.emit (hdb : db.Ordered counter) {event stored : EventRecord}
    {after : Option Instant} {clock : Instant}
    (h : emit db event after clock = .ok (db', stored)) :
  db'.Ordered (counter + 1) ∧ db'.events.table.rows = db.events.table.rows ++ [stored]
    ∧ stored.jobId = event.jobId ∧ stored.eventType = event.eventType
    ∧ (∀ row ∈ db.events.table.rows, row.createdAt < stored.createdAt)
    ∧ ∀ t, after = some t → t < stored.createdAt
  := by
  obtain ⟨value, -, -, rfl, hrows⟩ := persistEvent_ok h
  refine ⟨(hdb.persist h).1, hrows, rfl, rfl, hdb.lt_stamp _, ?_⟩
  rintro t rfl
  apply lt_of_lt_of_le (lt_causallyAfter (List.mem_singleton_self _) clock)
  apply le_causallyAfter

/-- Cleanup keeps the log in order. -/
theorem EventDb.Ordered.cleanup (h : db.Ordered counter) (projectId : Option Id) :
  (cleanupEvents db projectId).Ordered counter
  := by
  constructor
  · apply h.counted
  · apply h.rows.sublist
    apply List.filter_sublist
  · intro event hevent
    apply h.positive event (List.mem_filter.mp hevent).1

/-- No sequence is above the counter. -/
theorem EventDb.Ordered.maxSequence_le (h : db.Ordered counter) :
  maxSequence db ≤ counter
  := by
  rw [maxSequence]
  cases hmax : (db.events.table.rows.map EventRecord.sequence).max? with
  | none => apply Nat.zero_le
  | some highest =>
      obtain ⟨event, hevent, rfl⟩ := List.mem_map.mp (List.max?_mem hmax)
      apply h.rows.bounded event hevent

/-- The migration leaves a log as it is. -/
theorem EventDb.Ordered.ensureEventSequences_eq (h : db.Ordered counter) :
  ensureEventSequences db = .ok db
  := by
  have hnone : (db.events.table.rows.any (fun event => event.sequence = 0)) = false := by
    rw [List.any_eq_false]
    intro event hevent
    simpa using h.positive event hevent
  rw [ensureEventSequences, backfillSequences, hnone]
  obtain ⟨events, value⟩ := db
  obtain rfl : value = some counter := h.counted
  simp only [Bool.false_eq_true, if_false, bind, Except.bind, Option.getD_some,
    max_eq_left h.maxSequence_le]

/-- A transaction keeps the log in order. An event that is new has the next sequence. -/
theorem EventDb.Ordered.step (h : db.Ordered counter) {op : EventOp}
    (hstep : eventStep db op = some db') :
  ∃ counter', db'.Ordered counter' ∧ counter ≤ counter'
    ∧ ∀ event ∈ db'.events.table.rows, event ∈ db.events.table.rows
      ∨ event.sequence = counter + 1
  := by
  cases op with
  | persist event =>
      simp only [eventStep] at hstep
      split at hstep
      case h_1 hpersist =>
        obtain rfl := Option.some.inj hstep
        obtain ⟨hordered, hsequence⟩ := h.persist hpersist
        obtain ⟨_, -, -, -, hrows⟩ := persistEvent_ok hpersist
        refine ⟨_, hordered, Nat.le_succ counter, ?_⟩
        intro row hrow
        rw [hrows] at hrow
        apply (List.mem_append.mp hrow).imp_right
        intro hnew
        rw [List.mem_singleton.mp hnew, hsequence]
      case h_2 =>
        obtain rfl := Option.some.inj hstep
        exact ⟨counter, h, le_refl counter, fun _ hrow => Or.inl hrow⟩
  | cleanup projectId =>
      obtain rfl := Option.some.inj hstep
      refine ⟨counter, h.cleanup projectId, le_refl counter, ?_⟩
      intro row hrow
      left
      apply (List.mem_filter.mp hrow).1
  | ensureSchema =>
      simp only [eventStep, h.ensureEventSequences_eq] at hstep
      obtain rfl := Option.some.inj hstep
      exact ⟨counter, h, le_refl counter, fun _ hrow => Or.inl hrow⟩

/-- A log that the current schema has just created is in order. -/
theorem ordered_init : EventDb.init.Ordered 0
  := ⟨rfl, OrderedLog.ordered_nil 0, by simp [EventDb.init, IndexedTable.empty, Table.empty]⟩

/-- Every log that is reached is in order. -/
theorem ordered_of_reaches (h : Transition.Reaches eventStep EventDb.init db) :
  ∃ counter, db.Ordered counter
  := by
  apply h.invariant (I := fun db => ∃ counter, db.Ordered counter)
  · rintro s op t ⟨counter, hs⟩ - hstep
    obtain ⟨counter', ht, -⟩ := hs.step hstep
    exact ⟨counter', ht⟩
  · exact ⟨0, ordered_init⟩

end

/-! ### Runs -/

/-- The order of the log: sequences are unique, and are assigned in increasing order, each at
most once; and the timestamps of the rows are in the order of the sequences. -/
structure EventLogOrdered (s : EventDb × List ℕ) : Prop where
  unique : (s.1.events.table.rows.map EventRecord.sequence).Nodup
  assigned : s.2.Pairwise (fun later earlier => earlier < later)
  rows : ∀ event ∈ s.1.events.table.rows, event.sequence ∈ s.2
  stamps : ∀ first ∈ s.1.events.table.rows, ∀ second ∈ s.1.events.table.rows,
    first.sequence < second.sequence → first.createdAt < second.createdAt

/-- What every run keeps: the rows and all assigned sequences are below the counter. -/
structure EventLogInvariant (s : EventDb × List ℕ) : Prop where
  ordered : ∃ counter, s.1.Ordered counter ∧ ∀ n ∈ s.2, n ≤ counter
  assigned : s.2.Pairwise (fun later earlier => earlier < later)
  rows : ∀ event ∈ s.1.events.table.rows, event.sequence ∈ s.2

/-- A log with the invariant is ordered. -/
theorem EventLogInvariant.log {s : EventDb × List ℕ} (h : EventLogInvariant s) :
  EventLogOrdered s
  := by
  obtain ⟨counter, hordered, -⟩ := h.ordered
  constructor
  · apply List.Pairwise.map EventRecord.sequence _ hordered.rows.increasing
    intro first second hlt
    apply hlt.1.ne
  · apply h.assigned
  · apply h.rows
  · intro first hfirst second hsecond
    apply hordered.rows.stamp_lt hfirst hsecond

/-- A transaction keeps the invariant. -/
theorem EventLogInvariant.step {s t : EventDb × List ℕ} {op : EventOp} (hs : EventLogInvariant s)
    (h : Transition.withHistory eventStep assignedSequences s op = some t) :
  EventLogInvariant t
  := by
  obtain ⟨db, assigned⟩ := s
  obtain ⟨db', assigned'⟩ := t
  obtain ⟨hstep, rfl⟩ := Transition.withHistory_eq_some.mp h
  obtain ⟨counter, hordered, hbounded⟩ := hs.ordered
  cases op with
  | persist event =>
      simp only [eventStep, assignedSequences] at hstep ⊢
      cases hpersist : persistEvent db event with
      | error error =>
          rw [hpersist] at hstep
          obtain rfl := Option.some.inj hstep
          apply hs
      | ok result =>
          obtain ⟨db'', stored⟩ := result
          rw [hpersist] at hstep
          obtain rfl := Option.some.inj hstep
          obtain ⟨hordered', hsequence⟩ := hordered.persist hpersist
          obtain ⟨_, -, -, -, hrows⟩ := persistEvent_ok hpersist
          constructor
          · use counter + 1, hordered'
            intro n hn
            rcases List.mem_cons.mp hn with rfl | hn
            · apply hsequence.le
            · apply (hbounded n hn).trans (Nat.le_succ counter)
          · rw [List.pairwise_cons]
            refine ⟨?_, hs.assigned⟩
            intro n hn
            rw [hsequence]
            apply Nat.lt_succ_of_le (hbounded n hn)
          · intro row hrow
            rw [hrows] at hrow
            rcases List.mem_append.mp hrow with hrow | hrow
            · apply List.mem_cons_of_mem
              apply hs.rows row hrow
            · rw [List.mem_singleton.mp hrow]
              apply List.mem_cons_self
  | cleanup projectId =>
      obtain rfl := Option.some.inj hstep
      constructor
      · exact ⟨counter, hordered.cleanup projectId, hbounded⟩
      · apply hs.assigned
      · intro event hevent
        apply hs.rows event (List.mem_filter.mp hevent).1
  | ensureSchema =>
      simp only [eventStep, hordered.ensureEventSequences_eq] at hstep
      obtain rfl := Option.some.inj hstep
      apply hs

/-- The event log is in order along every run. -/
theorem event_log_ordered (ops : List EventOp) :
  Transition.Along (Transition.withHistory eventStep assignedSequences)
    (fun _ _ t => EventLogOrdered t) (EventDb.init, []) ops
  := by
  apply Transition.along_of_invariant (I := EventLogInvariant) (P := fun _ _ _ => True)
  · intro s op t hs _ hstep
    have ht := hs.step hstep
    exact ⟨ht, ht.log⟩
  · constructor
    · exact ⟨0, ordered_init, by simp⟩
    · apply List.Pairwise.nil
    · intro event hevent
      cases hevent
  · apply Transition.along_true

end GoblinKing
