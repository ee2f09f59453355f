import GoblinKing.Library.EntryStream
import GoblinKing.Store.Events
import Mathlib.Data.List.Sort

/-!
# Delivery of events to the stream

`OrderedEventStreamDelivery`: the processes on one database append its events to one Redis
stream. A call holds the write lock of the database from its first statement to its last, so
calls follow each other, and nobody writes events meanwhile. What a call writes to the database
is rolled back when it raises; what it has appended to the stream stays.

A step of a call is one operation on Redis, with the statements around it. Each may fail, or
take effect without its reply being seen.
-/

namespace GoblinKing

/-- What an entry of the stream holds. -/
inductive StreamPayload where
  /-- an event, as `_append` serializes it -/
  | event (event : EventRecord)
  /-- anything else: the sequence and the identifier that are read from it, or the error with
  which it cannot be read -/
  | other (decoded : Except String (ℤ × Option Id))
  deriving DecidableEq

/-- The sequence and the identifier of an event in the payload of an entry. -/
def StreamPayload.decoded : StreamPayload → Except String (ℤ × Option Id)
  | .event e => .ok (e.sequence, some e.id)
  | .other decoded => decoded

/-- What serialization does to the payload of an event. -/
structure EventCodec where
  /-- the payload can be serialized -/
  serializes : EventRecord → Bool
  /-- the payload equals itself after it has been serialized and read again -/
  comparesEqual : EventRecord → Bool

/-- The row of `event_stream_deliveries` for the stream. -/
structure DeliveryRow where
  deliveredSequence : ℕ
  streamIdOffset : Option ℕ
  deriving DecidableEq

/-- Where a call stands, with the cursor and the offset that it has written. -/
inductive DeliveryPhase where
  /-- before the row is read -/
  | select
  /-- the row has no offset: before `XREVRANGE` -/
  | bootstrap (cursor : ℕ)
  /-- the stream is empty: before the first event is read -/
  | first (cursor : ℕ)
  /-- the newest entry has no sequence: before its event is looked up -/
  | lookup (cursor lastMilliseconds : ℕ) (eventId : Id)
  /-- before the next batch is read -/
  | query (cursor offset : ℕ)
  /-- the rest of a batch: before the next `XADD` -/
  | append (cursor offset : ℕ) (rows : List EventRecord)
  /-- `XADD` was rejected: before `XRANGE` -/
  | replay (offset : ℕ) (row : EventRecord) (rows : List EventRecord)
  /-- before the commit -/
  | commit (cursor offset : ℕ)
  deriving DecidableEq

/-- A call of `deliver_through`. -/
structure DeliveryCall where
  target : ℕ
  maxlen : ℕ
  phase : DeliveryPhase
  deriving DecidableEq

/-- The database, the stream and the call that holds the write lock; and what no step reads:
the entries that were appended, newest first, the cursor of the bootstrap from which they
go on, and the targets of the calls that have returned. -/
structure Delivery where
  log : EventDb
  row : Option DeliveryRow
  stream : EntryStream StreamPayload
  call : Option DeliveryCall
  appended : List (Entry EventRecord)
  bootstrapped : ℕ
  returned : List ℕ

/-- A database that was just created, and a stream with any content. -/
def Delivery.start (stream : EntryStream StreamPayload) : Delivery where
  log := .init
  row := none
  stream := stream
  call := none
  appended := []
  bootstrapped := 0
  returned := []

/-- What can happen. -/
inductive DeliveryAction where
  /-- a transaction on the event log -/
  | write (op : EventOp)
  /-- a process calls `deliver_through` -/
  | call (target maxlen : ℕ)
  /-- the next operation of the call succeeds; how many entries are trimmed at most -/
  | next (drop : ℕ)
  /-- the next operation takes effect, and the call raises all the same -/
  | lost (drop : ℕ)
  /-- the next operation fails -/
  | fail
  deriving DecidableEq

/-- `MAX_DELIVERY_BATCH` -/
def maxDeliveryBatch : ℕ := 100

/-- The events after the cursor up to the target. -/
def pendingEvents (log : EventDb) (cursor target : ℕ) : List EventRecord :=
  (log.events.table.rows.filter (fun event =>
    decide (cursor < event.sequence) && decide (event.sequence ≤ target))).insertionSort
    (fun a b => a.sequence ≤ b.sequence)

/-- The cursor and the offset that go on from a newest entry with a sequence, or without. -/
def bootstrapFrom (cursor lastMilliseconds sequence : ℕ) : ℕ × ℕ :=
  if sequence < 1 then
    (cursor, lastMilliseconds)
  else
    (max cursor sequence, lastMilliseconds - sequence)

/-- The cursor that goes on from an empty stream. -/
def bootstrapEmpty (log : EventDb) (cursor : ℕ) : ℕ :=
  match (log.events.table.rows.map EventRecord.sequence).min? with
  | none => cursor
  | some first => if first = 0 then cursor else max cursor (first - 1)

/-- The sequence of the event with an identifier, 0 when there is none. -/
def sequenceOf (log : EventDb) (eventId : Id) : ℕ :=
  match log.events.table.find? eventId with
  | none => 0
  | some event => event.sequence

/-- The integers that SQLite stores are below this bound. -/
def sqliteLimit : ℕ := 2 ^ 63

/-- The call goes on in a phase. -/
def Delivery.goto (s : Delivery) (call : DeliveryCall) (phase : DeliveryPhase) : Delivery :=
  { s with call := some { call with phase := phase } }

/-- The call raises, and what it has written to the database is rolled back. -/
def Delivery.raise (s : Delivery) : Delivery :=
  { s with call := none }

/-- The end of `_bootstrap`: the cursor and the offset are saved. -/
def Delivery.bootstrap (s : Delivery) (call : DeliveryCall) (state : ℕ × ℕ) : Delivery :=
  if state.1 < sqliteLimit ∧ state.2 < sqliteLimit then
    { s with
      call := some { call with phase := .query state.1 state.2 }
      bootstrapped := if s.appended = [] then state.1 else s.bootstrapped }
  else
    s.raise

/-- `_bootstrap` with the newest entry. -/
def Delivery.bootstrapEntry (s : Delivery) (call : DeliveryCall) (cursor : ℕ)
    (entry : Entry StreamPayload) : Delivery :=
  match entry.payload.decoded with
  | .error _ => s.raise
  | .ok (sequence, eventId) =>
      match eventId with
      | some eventId =>
          if sequence < 1 then
            s.goto call (.lookup cursor entry.id.main eventId)
          else
            s.bootstrap call (bootstrapFrom cursor entry.id.main sequence.toNat)
      | none => s.bootstrap call (bootstrapFrom cursor entry.id.main sequence.toNat)

/-- `_append`, up to the reply of `XADD`. -/
def Delivery.append (codec : EventCodec) (s : Delivery) (call : DeliveryCall) (offset : ℕ)
    (row : EventRecord) (rows : List EventRecord) (drop : ℕ) : Delivery :=
  if codec.serializes row then
    match s.stream.xadd (entryId (offset + row.sequence)) (.event row) call.maxlen drop with
    | some stream =>
        { s with
          stream := stream
          call := some { call with phase := .append row.sequence offset rows }
          appended := ⟨entryId (offset + row.sequence), row⟩ :: s.appended }
    | none => s.goto call (.replay offset row rows)
  else
    s.raise

/-- `_append` after a rejection: the entry that is there must be the event. -/
def Delivery.replay (codec : EventCodec) (s : Delivery) (call : DeliveryCall) (offset : ℕ)
    (row : EventRecord) (rows : List EventRecord) : Delivery :=
  match s.stream.xrange (entryId (offset + row.sequence)) with
  | some entry =>
      if entry.payload = .event row ∧ codec.comparesEqual row = true then
        s.goto call (.append row.sequence offset rows)
      else
        s.raise
  | none => s.raise

/-- The next operation of a call. -/
def Delivery.next (codec : EventCodec) (s : Delivery) (call : DeliveryCall) (drop : ℕ) :
    Delivery :=
  match call.phase with
  | .select =>
      let row := s.row.getD ⟨0, none⟩
      match row.streamIdOffset with
      | none => s.goto call (.bootstrap row.deliveredSequence)
      | some offset => s.goto call (.query row.deliveredSequence offset)
  | .bootstrap cursor =>
      match s.stream.xrevrange with
      | none => s.goto call (.first cursor)
      | some entry => s.bootstrapEntry call cursor entry
  | .first cursor => s.bootstrap call (bootstrapEmpty s.log cursor, 0)
  | .lookup cursor lastMilliseconds eventId =>
      s.bootstrap call (bootstrapFrom cursor lastMilliseconds (sequenceOf s.log eventId))
  | .query cursor offset =>
      if cursor < call.target then
        match (pendingEvents s.log cursor call.target).take maxDeliveryBatch with
        | [] => s.goto call (.commit call.target offset)
        | row :: rows => s.goto call (.append cursor offset (row :: rows))
      else
        s.goto call (.commit cursor offset)
  | .append cursor offset [] => s.goto call (.query cursor offset)
  | .append _ offset (row :: rows) => s.append codec call offset row rows drop
  | .replay offset row rows => s.replay codec call offset row rows
  | .commit cursor offset =>
      { s with
        row := some ⟨cursor, some offset⟩
        call := none
        returned := call.target :: s.returned }

/-- One step of the system. A call is made with the sequence of an event that was
persisted. -/
def deliveryStep (codec : EventCodec) (s : Delivery) (action : DeliveryAction) :
    Option Delivery :=
  match s.call, action with
  | none, .write op => (eventStep s.log op).map (fun log => { s with log := log })
  | none, .call target maxlen =>
      if s.log.counter.any (fun counter => target ≤ counter) then
        some { s with call := some ⟨target, maxlen, .select⟩ }
      else
        none
  | some call, .next drop => some (s.next codec call drop)
  | some call, .lost drop =>
      some { s.next codec call drop with call := none, returned := s.returned }
  | some _, .fail => some s.raise
  | _, _ => none

end GoblinKing
