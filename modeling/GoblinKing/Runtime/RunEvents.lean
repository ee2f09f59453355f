import GoblinKing.Library.Except
import GoblinKing.Library.Json
import GoblinKing.Library.Listing
import GoblinKing.Library.Scan
import GoblinKing.UtcClock
import Mathlib.Algebra.GroupWithZero.Nat

/-!
# The events of a run

Workers append events to a stream of their run, and clients read them page by page, each page after the
last sequence of the one before. A reader passes over the entries that are not valid events of the run,
and over all but the first of those with one sequence, so that a client receives every valid sequence
once and in order. But an entry that is not encoded in UTF-8 raises, and then no page is read.
-/

open Utf8

namespace GoblinKing

/-! ### Events -/

/-- `RunEventType` -/
inductive RunEventType where
  | progress
  | stdout
  | stderr
  | message
  deriving DecidableEq, Repr

/-- One bounded worker-authored event in a run-local stream. -/
structure RunEventEnvelope where
  sequence : ℕ
  createdAt : Datetime
  eventType : RunEventType
  runId : String
  payload : Json
  positive : 1 ≤ sequence
  named : runId ≠ ""
  dict : payload.isObj = true

/-- The validation of a text. The strings of what it reads are encodable. -/
structure RunEventReader where
  /-- `RunEventEnvelope.model_validate_json`, `none` where it raises a `ValueError` -/
  modelValidateJson : List CodePoint → Option RunEventEnvelope
  encodable : ∀ text event, modelValidateJson text = some event → Utf8.Encodable event.payload.chars

/-- The value of a field of an entry. -/
inductive RawField where
  | bytes (value : List UInt8)
  | text (value : List CodePoint)
  deriving DecidableEq

/-- What counts as true. -/
def RawField.truthy : RawField → Bool
  | .bytes value => !value.isEmpty
  | .text value => !value.isEmpty

/-- An entry with its values under the two keys that are looked up. -/
structure RunEventEntry where
  id : String
  /-- the value under `b"event"` -/
  bytesKey : Option RawField := none
  /-- the value under `"event"` -/
  textKey : Option RawField := none
  deriving DecidableEq

/-- The entries that are retained of a stream. -/
structure RunEventStream where
  entries : List RunEventEntry
  bounded : entries.length ≤ 256

/-- An event under the identifier of its entry. -/
abbrev RunEventItem := String × RunEventEnvelope

/-! ### Reading -/

/-- What a reader raises. -/
inductive RunEventFailure where
  | runEventError (message : String)
  | unicodeError
  deriving DecidableEq, Repr

/-- `DEFAULT_RUN_EVENT_MAX_PAYLOAD_BYTES` -/
def maxRunEventPayloadBytes : ℕ := 4 * 1024

/-- The event of an entry. -/
def RunEventEntry.raw (entry : RunEventEntry) : Option RawField :=
  (entry.bytesKey.filter RawField.truthy).or entry.textKey

/-- `raw.decode("utf-8")` or `str(raw)` -/
def RawField.decoded : RawField → Option (List CodePoint)
  | .bytes value => Utf8.decode value
  | .text value => some value

/-- A value with its exception. -/
def orUnicodeError {α : Type} (value : Option α) : Except RunEventFailure α :=
  match value with
  | some value => .ok value
  | none => .error .unicodeError

/-- `json.dumps` of a payload, in UTF-8 -/
def payloadBytes (payload : Json) : Option (List UInt8) :=
  Utf8.encode (Json.write Json.escape payload)

variable (reader : RunEventReader) (runId : String)

/-- The event in a text, unless it is skipped. -/
def readRunEventText (afterSequence : ℕ) (text : List CodePoint) :
    Except RunEventFailure (Option RunEventEnvelope) := do
  let size ← orUnicodeError (Utf8.encode text)
  if size.length > maxRunEventPayloadBytes + 1024 then
    .ok none
  else
    match reader.modelValidateJson text with
    | none => .ok none
    | some event => do
        let payload ← orUnicodeError (payloadBytes event.payload)
        if payload.length > maxRunEventPayloadBytes then
          .ok none
        else if event.runId ≠ runId ∨ event.sequence ≤ afterSequence then
          .ok none
        else
          .ok (some event)

/-- The event of an entry, unless it is skipped. -/
def readRunEventEntry (afterSequence : ℕ) (entry : RunEventEntry) :
    Except RunEventFailure (Option RunEventItem) :=
  match entry.raw with
  | none => .ok none
  | some raw => do
      let text ← orUnicodeError raw.decoded
      let event ← readRunEventText reader runId afterSequence text
      .ok (event.map (Prod.mk entry.id))

/-- The items with sequences above the ones before them. -/
def monotonic (lastSequence : ℕ) : List RunEventItem → List RunEventItem
  | [] => []
  | item :: items =>
      if item.2.sequence ≤ lastSequence then
        monotonic lastSequence items
      else
        item :: monotonic item.2.sequence items

/-- The order in which the items are sorted. -/
abbrev RunEventItem.Before (item item' : RunEventItem) : Prop :=
  item.2.sequence ≤ item'.2.sequence

/-- Read retained validated events for exactly one run in monotonic order. -/
def readRunEventEntries (stream : RunEventStream) (afterSequence limit : ℤ) :
    Except RunEventFailure (List RunEventItem) :=
  if afterSequence < 0 then
    .error (.runEventError "after_sequence must be non-negative")
  else if ¬ (1 ≤ limit ∧ limit ≤ 256) then
    .error (.runEventError "limit must be between 1 and 256")
  else do
    -- `xrange` returns at most 256 entries
    let decoded ← (stream.entries.take 256).mapM (readRunEventEntry reader runId afterSequence.toNat)
    let ordered := (decoded.filterMap id).insertionSort RunEventItem.Before
    .ok ((monotonic afterSequence.toNat ordered).take limit.toNat)

/-- `next_sequence` -/
def nextSequence (items : List RunEventItem) (afterSequence : ℕ) : ℕ :=
  (items.getLast?.map (fun item => item.2.sequence)).getD afterSequence

/-- Replay bounded worker-authored events, and return the sequence to continue from. -/
def listRunEvents (stream : RunEventStream) (afterSequence limit : ℤ) :
    Except RunEventFailure (List RunEventEnvelope × ℕ) := do
  let entries ← readRunEventEntries reader runId stream afterSequence limit
  .ok (entries.map Prod.snd, nextSequence entries afterSequence.toNat)

/-- What a client receives that asks for pages with these limits. -/
def receivePages (stream : RunEventStream) :
    List ℤ → ℤ → Except RunEventFailure (List RunEventEnvelope)
  | [], _ => .ok []
  | limit :: limits, afterSequence => do
      let (items, next) ← listRunEvents reader runId stream afterSequence limit
      let rest ← receivePages stream limits next
      .ok (items ++ rest)

/-! ### What an entry holds -/

/-- The field of an entry has the text of an event, if the entry has such a field. -/
def RunEventEntry.Decodable (entry : RunEventEntry) : Prop :=
  ∀ raw ∈ entry.raw, ∃ text, raw.decoded = some text ∧ Encodable text

/-- A text has an event of the run within the bounds. -/
structure IsEventIn (text : List CodePoint) (event : RunEventEnvelope) : Prop where
  validates : reader.modelValidateJson text = some event
  small : Utf8.size text ≤ maxRunEventPayloadBytes + 1024
  smallPayload : Utf8.size (Json.write Json.escape event.payload) ≤ maxRunEventPayloadBytes
  ofRun : event.runId = runId

/-- An entry has an event of the run within the bounds. -/
def IsEventOf (entry : RunEventEntry) (event : RunEventEnvelope) : Prop :=
  ∃ text, entry.raw.bind RawField.decoded = some text ∧ IsEventIn reader runId text event

/-- The event in a text, if it has one of the run within the bounds. -/
def eventIn (text : List CodePoint) : Option RunEventEnvelope :=
  (reader.modelValidateJson text).filter (fun event =>
    decide (Utf8.size text ≤ maxRunEventPayloadBytes + 1024
      ∧ Utf8.size (Json.write Json.escape event.payload) ≤ maxRunEventPayloadBytes
      ∧ event.runId = runId))

/-- The event of an entry under its identifier, if it has one of the run within the bounds. -/
def eventOf (entry : RunEventEntry) : Option RunEventItem :=
  ((entry.raw.bind RawField.decoded).bind (eventIn reader runId)).map (Prod.mk entry.id)

/-- An item comes after a sequence. -/
def comesAfter (afterSequence : ℕ) (item : RunEventItem) : Bool :=
  decide (afterSequence < item.2.sequence)

section

variable {reader : RunEventReader} {runId : String}

theorem comesAfter_eq_true {afterSequence : ℕ} {item : RunEventItem} :
  comesAfter afterSequence item = true ↔ afterSequence < item.2.sequence
  := decide_eq_true_iff

theorem eventIn_eq_some {text : List CodePoint} {event : RunEventEnvelope} :
  eventIn reader runId text = some event ↔ IsEventIn reader runId text event
  := by
  rw [eventIn, Option.filter_eq_some_iff, decide_eq_true_iff]
  constructor
  · rintro ⟨hvalidates, hsmall, hpayload, hrun⟩
    exact ⟨hvalidates, hsmall, hpayload, hrun⟩
  · rintro ⟨hvalidates, hsmall, hpayload, hrun⟩
    exact ⟨hvalidates, hsmall, hpayload, hrun⟩

theorem eventOf_eq_some {entry : RunEventEntry} {item : RunEventItem} :
  eventOf reader runId entry = some item ↔ IsEventOf reader runId entry item.2 ∧ entry.id = item.1
  := by
  rw [eventOf, Option.map_eq_some_iff]
  constructor
  · rintro ⟨event, hevent, rfl⟩
    obtain ⟨text, htext, hin⟩ := Option.bind_eq_some_iff.mp hevent
    exact ⟨⟨text, htext, eventIn_eq_some.mp hin⟩, rfl⟩
  · rintro ⟨⟨text, htext, hin⟩, hid⟩
    use item.2
    constructor
    · exact Option.bind_eq_some_iff.mpr ⟨text, htext, eventIn_eq_some.mpr hin⟩
    · rw [hid]

/-- What is written of a payload that was read can be encoded. -/
theorem payloadBytes_of_validated {text : List CodePoint} {event : RunEventEnvelope}
    (h : reader.modelValidateJson text = some event) :
  payloadBytes event.payload = some (Utf8.bytes (Json.write Json.escape event.payload))
  := by
  apply Utf8.encode_of_encodable
  exact (Json.encodable_write event.payload).mpr (reader.encodable text event h)

/-- A text that can be encoded has an event or is skipped. -/
theorem readRunEventText_eq (afterSequence : ℕ) {text : List CodePoint} (h : Encodable text) :
  readRunEventText reader runId afterSequence text
    = .ok ((eventIn reader runId text).filter (fun event => decide (afterSequence < event.sequence)))
  := by
  have hsize : Utf8.encode text = some (Utf8.bytes text) := Utf8.encode_of_encodable h
  rw [readRunEventText, hsize, orUnicodeError, Except.ok_bind, Utf8.length_bytes, eventIn]
  cases hread : reader.modelValidateJson text with
  | none =>
      dsimp only
      rw [ite_self]
      rfl
  | some event =>
      dsimp only
      rw [payloadBytes_of_validated hread, orUnicodeError, Except.ok_bind, Utf8.length_bytes]
      by_cases hsmall : Utf8.size text ≤ maxRunEventPayloadBytes + 1024
      · by_cases hpayload :
            Utf8.size (Json.write Json.escape event.payload) ≤ maxRunEventPayloadBytes
        · by_cases hrun : event.runId = runId
          · by_cases hafter : afterSequence < event.sequence
            · simp [Option.filter_some, hsmall.not_gt, hpayload.not_gt, hsmall, hpayload, hrun, hafter]
            · simp [Option.filter_some, hsmall.not_gt, hpayload.not_gt, hsmall, hpayload, hrun, hafter,
                not_lt.mp hafter]
          · simp [Option.filter_some, hsmall.not_gt, hpayload.not_gt, hrun]
        · simp [Option.filter_some, hsmall.not_gt, hpayload, not_le.mp hpayload]
      · simp [Option.filter_some, hsmall, not_le.mp hsmall]

/-- An entry whose field has a text has an event or is skipped. -/
theorem readRunEventEntry_eq (afterSequence : ℕ) {entry : RunEventEntry} (h : entry.Decodable) :
  readRunEventEntry reader runId afterSequence entry
    = .ok ((eventOf reader runId entry).filter (comesAfter afterSequence))
  := by
  rw [readRunEventEntry, eventOf]
  cases hraw : entry.raw with
  | none => rfl
  | some raw =>
      obtain ⟨text, htext, hencodable⟩ := h raw hraw
      dsimp only
      rw [htext, orUnicodeError, Except.ok_bind, readRunEventText_eq afterSequence hencodable,
        Except.ok_bind, Option.bind_some, htext, Option.bind_some, Option.filter_map]
      rfl

/-- An entry whose field has no text raises. -/
theorem readRunEventEntry_eq_error (afterSequence : ℕ) {entry : RunEventEntry}
    (h : ¬ entry.Decodable) :
  readRunEventEntry reader runId afterSequence entry = .error .unicodeError
  := by
  rw [RunEventEntry.Decodable] at h
  push Not at h
  obtain ⟨raw, hraw, hnone⟩ := h
  rw [readRunEventEntry, hraw]
  dsimp only
  cases htext : raw.decoded with
  | none => rfl
  | some text =>
      have hencode : Utf8.encode text = none := Utf8.encode_of_not_encodable (hnone text htext)
      rw [orUnicodeError, Except.ok_bind, readRunEventText, hencode]
      rfl

/-! ### One of each sequence -/

/-- The sequences of the items come after the last one. -/
theorem lt_of_mem_monotonic {lastSequence : ℕ} {items : List RunEventItem} {item : RunEventItem}
    (h : item ∈ monotonic lastSequence items) :
  item ∈ items ∧ lastSequence < item.2.sequence
  := by
  induction items generalizing lastSequence with
  | nil => cases h
  | cons first items ih =>
      rw [monotonic] at h
      split at h
      · obtain ⟨hmem, hlt⟩ := ih h
        exact ⟨List.mem_cons_of_mem first hmem, hlt⟩
      · next hlast =>
          rcases List.mem_cons.mp h with rfl | h
          · exact ⟨List.mem_cons_self, not_le.mp hlast⟩
          · obtain ⟨hmem, hlt⟩ := ih h
            exact ⟨List.mem_cons_of_mem first hmem, (not_le.mp hlast).trans hlt⟩

theorem increasing_monotonic (lastSequence : ℕ) (items : List RunEventItem) :
  Scan.Increasing (fun item => item.2.sequence) (monotonic lastSequence items)
  := by
  induction items generalizing lastSequence with
  | nil => exact List.Pairwise.nil
  | cons first items ih =>
      rw [monotonic]
      split
      · apply ih
      · exact List.Pairwise.cons (fun item hitem => (lt_of_mem_monotonic hitem).2) (ih _)

/-- Of sorted items, one of each sequence after the last one stays. -/
theorem exists_mem_monotonic {lastSequence : ℕ} {items : List RunEventItem} {item : RunEventItem}
    (hsorted : items.Pairwise RunEventItem.Before) (hmem : item ∈ items)
    (hlt : lastSequence < item.2.sequence) :
  ∃ item' ∈ monotonic lastSequence items, item'.2.sequence = item.2.sequence
  := by
  induction items generalizing lastSequence with
  | nil => cases hmem
  | cons first items ih =>
      obtain ⟨hfirst, hsorted⟩ := List.pairwise_cons.mp hsorted
      rw [monotonic]
      rcases List.mem_cons.mp hmem with rfl | hmem
      · rw [if_neg hlt.not_ge]
        exact ⟨item, List.mem_cons_self, rfl⟩
      · split
        · exact ih hsorted hmem hlt
        · rcases (hfirst item hmem).eq_or_lt with heq | hbefore
          · exact ⟨first, List.mem_cons_self, heq⟩
          · obtain ⟨item', hitem', heq⟩ := ih hsorted hmem hbefore
            exact ⟨item', List.mem_cons_of_mem first hitem', heq⟩

/-- What does not come after an earlier sequence than the last one plays no role. -/
theorem monotonic_filter_of_le {afterSequence lastSequence : ℕ} (h : afterSequence ≤ lastSequence)
    (items : List RunEventItem) :
  monotonic lastSequence (items.filter (comesAfter afterSequence))
    = monotonic lastSequence items
  := by
  induction items generalizing lastSequence with
  | nil => rfl
  | cons first items ih =>
      rw [List.filter_cons, monotonic]
      by_cases hafter : afterSequence < first.2.sequence
      · rw [if_pos (comesAfter_eq_true.mpr hafter), monotonic, ih h, ih hafter.le]
      · rw [if_neg (mt comesAfter_eq_true.mp hafter), if_pos ((not_lt.mp hafter).trans h), ih h]

/-- One can pass over the sequences up to some one before or after the repeated ones. -/
theorem filter_monotonic {afterSequence lastSequence : ℕ} (h : lastSequence ≤ afterSequence)
    (items : List RunEventItem) :
  (monotonic lastSequence items).filter (comesAfter afterSequence)
    = monotonic afterSequence
        (items.filter (comesAfter afterSequence))
  := by
  induction items generalizing lastSequence with
  | nil => rfl
  | cons first items ih =>
      by_cases hafter : afterSequence < first.2.sequence
      · have hlast : ¬ first.2.sequence ≤ lastSequence := (h.trans_lt hafter).not_ge
        rw [monotonic, if_neg hlast, List.filter_cons_of_pos (comesAfter_eq_true.mpr hafter),
          List.filter_cons_of_pos (comesAfter_eq_true.mpr hafter), monotonic, if_neg hafter.not_ge,
          monotonic_filter_of_le hafter.le]
        congr 1
        apply List.filter_eq_self.mpr
        intro item hitem
        exact comesAfter_eq_true.mpr (hafter.trans (lt_of_mem_monotonic hitem).2)
      · have hskip : ¬ comesAfter afterSequence first = true := mt comesAfter_eq_true.mp hafter
        rw [List.filter_cons_of_neg hskip, monotonic]
        split
        · exact ih h
        · rw [List.filter_cons_of_neg hskip]
          exact ih (not_lt.mp hafter)

/-! ### Pages -/

/-- The events of a stream: the first of every sequence, in their order. -/
def RunEventStream.events (reader : RunEventReader) (runId : String) (stream : RunEventStream) :
    List RunEventItem :=
  monotonic 0 ((stream.entries.filterMap (eventOf reader runId)).insertionSort RunEventItem.Before)

instance : Std.Total RunEventItem.Before where
  total item item' := le_total item.2.sequence item'.2.sequence

instance : IsTrans RunEventItem RunEventItem.Before where
  trans _ _ _ h h' := le_trans h h'

variable {stream : RunEventStream}

theorem increasing_events :
  Scan.Increasing (fun item => item.2.sequence) (stream.events reader runId)
  := increasing_monotonic 0 _

/-- A page has the first events after a sequence. -/
theorem readRunEventEntries_eq (h : ∀ entry ∈ stream.entries, entry.Decodable)
    {afterSequence limit : ℤ} (hafter : 0 ≤ afterSequence) (hlimit : 1 ≤ limit ∧ limit ≤ 256) :
  readRunEventEntries reader runId stream afterSequence limit
    = .ok (((stream.events reader runId).filter (comesAfter afterSequence.toNat)).take limit.toNat)
  := by
  have hdecoded : stream.entries.mapM (readRunEventEntry reader runId afterSequence.toNat)
      = .ok (stream.entries.map (fun entry =>
          (eventOf reader runId entry).filter (comesAfter afterSequence.toNat))) := by
    apply Except.mapM_eq_ok.mpr
    rw [List.forall₂_map_right_iff, List.forall₂_same]
    intro entry hentry
    exact readRunEventEntry_eq afterSequence.toNat (h entry hentry)
  have hitems : (stream.entries.map (fun entry =>
        (eventOf reader runId entry).filter (comesAfter afterSequence.toNat))).filterMap id
      = (stream.entries.filterMap (eventOf reader runId)).filter (comesAfter afterSequence.toNat) := by
    rw [List.filterMap_map, List.filter_filterMap]
    rfl
  rw [readRunEventEntries, if_neg hafter.not_gt, if_neg (not_not.mpr hlimit),
    List.take_of_length_le stream.bounded, hdecoded, Except.ok_bind, hitems,
    RunEventStream.events, filter_monotonic (Nat.zero_le _), List.filter_insertionSort]

/-- An entry whose field has no text keeps every page from being read. -/
theorem readRunEventEntries_eq_error {entry : RunEventEntry} (hentry : entry ∈ stream.entries)
    (h : ¬ entry.Decodable) {afterSequence limit : ℤ} {items : List RunEventItem} :
  readRunEventEntries reader runId stream afterSequence limit ≠ .ok items
  := by
  intro hread
  rw [readRunEventEntries] at hread
  split_ifs at hread
  obtain ⟨decoded, hdecoded, -⟩ := Except.bind_eq_ok.mp hread
  rw [List.take_of_length_le stream.bounded] at hdecoded
  obtain ⟨found, hfound⟩ := Except.exists_mapM_eq_ok.mp ⟨decoded, hdecoded⟩ entry hentry
  rw [readRunEventEntry_eq_error _ h] at hfound
  cases hfound

/-- The sequence from which a client goes on is that of the last event that it has received. -/
theorem nextSequence_take (items : List RunEventItem) (received limit : ℕ) :
  nextSequence ((items.drop received).take limit) (nextSequence (items.take received) 0)
    = nextSequence (items.take (received + limit)) 0
  := by
  rw [List.take_add, nextSequence, nextSequence, nextSequence, List.getLast?_append]
  cases ((items.drop received).take limit).getLast? with
  | none => rfl
  | some last => rfl

/-- The events after the last one that was received are those that were not. -/
theorem filter_nextSequence {items : List RunEventItem}
    (h : Scan.Increasing (fun item => item.2.sequence) items) (received : ℕ) :
  items.filter (comesAfter (nextSequence (items.take received) 0)) = items.drop received
  := by
  rw [← Scan.Increasing.filter_after_take h received]
  congr 1
  funext item
  apply Bool.eq_iff_iff.mpr
  rw [comesAfter_eq_true, Scan.after_iff, nextSequence]
  cases (items.take received).getLast? with
  | none => simpa using Nat.lt_of_lt_of_le Nat.zero_lt_one item.2.positive
  | some last => simp

/-- The pages continue each other. -/
theorem receivePages_eq (h : ∀ entry ∈ stream.entries, entry.Decodable) {limits : List ℤ}
    (hlimits : ∀ limit ∈ limits, 1 ≤ limit ∧ limit ≤ 256) (received : ℕ) :
  receivePages reader runId stream limits
      (nextSequence ((stream.events reader runId).take received) 0)
    = .ok ((((stream.events reader runId).drop received).take (limits.map Int.toNat).sum).map Prod.snd)
  := by
  induction limits generalizing received with
  | nil => simp [receivePages]
  | cons limit limits ih =>
      obtain ⟨hlimit, hlimits⟩ := List.forall_mem_cons.mp hlimits
      have hpage : readRunEventEntries reader runId stream
          (nextSequence ((stream.events reader runId).take received) 0) limit = _ :=
        readRunEventEntries_eq h (Int.natCast_nonneg _) hlimit
      rw [Int.toNat_natCast, filter_nextSequence increasing_events] at hpage
      rw [receivePages, listRunEvents, hpage, Except.ok_bind, Except.ok_bind]
      dsimp only
      rw [Int.toNat_natCast, nextSequence_take, ih hlimits, Except.ok_bind, List.map_cons,
        List.sum_cons, List.take_add, List.map_append, List.drop_drop]

/-- A reader obtains the events of a stream, whatever pages it asks for. -/
structure ReadsEvents (reader : RunEventReader) (runId : String) (stream : RunEventStream)
    (events : List RunEventItem) : Prop where
  increasing : Scan.Increasing (fun item => item.2.sequence) events
  valid : ∀ item ∈ events, ∃ entry ∈ stream.entries,
    entry.id = item.1 ∧ IsEventOf reader runId entry item.2
  complete : ∀ entry ∈ stream.entries, ∀ event, IsEventOf reader runId entry event →
    ∃ item ∈ events, item.2.sequence = event.sequence
  page : ∀ afterSequence limit : ℤ, 0 ≤ afterSequence → 1 ≤ limit ∧ limit ≤ 256 →
    readRunEventEntries reader runId stream afterSequence limit
      = .ok ((events.filter (fun item => decide (afterSequence < item.2.sequence))).take limit.toNat)
  paging : ∀ limits : List ℤ, (∀ limit ∈ limits, 1 ≤ limit ∧ limit ≤ 256) →
    receivePages reader runId stream limits 0
      = .ok ((events.take (limits.map Int.toNat).sum).map Prod.snd)

theorem mem_events {item : RunEventItem} (h : item ∈ stream.events reader runId) :
  ∃ entry ∈ stream.entries, entry.id = item.1 ∧ IsEventOf reader runId entry item.2
  := by
  have hmem := (List.mem_insertionSort _).mp (lt_of_mem_monotonic h).1
  obtain ⟨entry, hentry, hitem⟩ := List.mem_filterMap.mp hmem
  obtain ⟨hevent, hid⟩ := eventOf_eq_some.mp hitem
  exact ⟨entry, hentry, hid, hevent⟩

theorem exists_mem_events {entry : RunEventEntry} (hentry : entry ∈ stream.entries)
    {event : RunEventEnvelope} (h : IsEventOf reader runId entry event) :
  ∃ item ∈ stream.events reader runId, item.2.sequence = event.sequence
  := by
  have hitem : eventOf reader runId entry = some (entry.id, event) := eventOf_eq_some.mpr ⟨h, rfl⟩
  have hmem := List.mem_filterMap.mpr ⟨entry, hentry, hitem⟩
  exact exists_mem_monotonic (List.pairwise_insertionSort _ _) ((List.mem_insertionSort _).mpr hmem)
    (Nat.lt_of_lt_of_le Nat.zero_lt_one event.positive)

/-- The events of a stream are obtained when the fields of all entries have texts. -/
theorem readsEvents_events (h : ∀ entry ∈ stream.entries, entry.Decodable) :
  ReadsEvents reader runId stream (stream.events reader runId)
  := by
  constructor
  · exact increasing_events
  · exact fun item hitem => mem_events hitem
  · exact fun entry hentry event hevent => exists_mem_events hentry hevent
  · intro afterSequence limit hafter hlimit
    rw [readRunEventEntries_eq h hafter hlimit]
    congr 2
    apply List.filter_congr
    intro item _
    apply Bool.eq_iff_iff.mpr
    rw [comesAfter_eq_true, decide_eq_true_iff, Int.toNat_lt hafter]
  · intro limits hlimits
    exact receivePages_eq h hlimits 0

/-- A client obtains the events of a stream, each once and in their order, exactly when the fields of
all entries have texts. -/
theorem readsEvents_iff_decodable (reader : RunEventReader) (runId : String)
    (stream : RunEventStream) :
  (∃ events, ReadsEvents reader runId stream events) ↔ ∀ entry ∈ stream.entries, entry.Decodable
  := by
  constructor
  · rintro ⟨events, hevents⟩ entry hentry
    by_contra hnot
    exact readRunEventEntries_eq_error hentry hnot (hevents.page 0 1 le_rfl ⟨le_rfl, by decide⟩)
  · intro h
    use stream.events reader runId
    exact readsEvents_events h

end

theorem epoch_within :
  datetimeMin ≤ (0 : ℤ) ∧ (0 : ℤ) ≤ datetimeMax
  := by decide

theorem r_ne_empty :
  "r" ≠ ""
  := by decide

/-- A message of the run `r`. -/
def sampleRunEvent : RunEventEnvelope where
  sequence := 1
  createdAt := ⟨⟨0, epoch_within⟩, none⟩
  eventType := .message
  runId := "r"
  payload := .obj []
  positive := Nat.le_refl 1
  named := r_ne_empty
  dict := rfl

/-- The text of the message. -/
def sampleRunEventText : List CodePoint :=
  ofChars ("\x7b\"sequence\":1,\"created_at\":\"1970-01-01T00:00:00\",".toList
    ++ "\"event_type\":\"message\",\"run_id\":\"r\"\x7d".toList)

/-- What reads the message. -/
def sampleRunEventReader : RunEventReader where
  modelValidateJson text := if text = sampleRunEventText then some sampleRunEvent else none
  encodable := by
    intro text event h
    obtain ⟨-, hevent⟩ := Option.ite_none_right_eq_some.mp h
    cases hevent
    simp [sampleRunEvent, Json.chars, Json.fieldChars, Utf8.Encodable]

/-- A byte that is not of UTF-8 after a message. -/
def strayStream : RunEventStream where
  entries :=
    [{ id := "1-0", bytesKey := some (.bytes (Utf8.bytes sampleRunEventText)) },
      { id := "2-0", bytesKey := some (.bytes [0xFF]) }]
  bounded := by decide

/-- The message is an event of the run, but it is not obtained. -/
theorem strayStream_raises :
  (∃ entry ∈ strayStream.entries, IsEventOf sampleRunEventReader "r" entry sampleRunEvent)
    ∧ (readRunEventEntries sampleRunEventReader "r" strayStream 0 100 matches .error .unicodeError)
      = true
    ∧ ¬ ∃ events, ReadsEvents sampleRunEventReader "r" strayStream events
  := by
  have hraises : (readRunEventEntries sampleRunEventReader "r" strayStream 0 100
      matches .error .unicodeError) = true := by
    decide +kernel
  refine ⟨?_, hraises, ?_⟩
  · refine ⟨_, List.mem_cons_self, sampleRunEventText, ?_, ?_, ?_, ?_, ?_⟩
    · decide +kernel
    · simp [sampleRunEventReader]
    · decide +kernel
    · decide +kernel
    · rfl
  · rintro ⟨events, hevents⟩
    rw [hevents.page 0 100 le_rfl (by decide)] at hraises
    cases hraises

end GoblinKing
