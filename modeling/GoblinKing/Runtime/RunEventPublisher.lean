import GoblinKing.Kubernetes.JobRuns
import GoblinKing.Library.JsonDepth
import GoblinKing.Library.JsonTexts
import GoblinKing.Library.Transition
import GoblinKing.Runtime.RunEvents

/-!
# The publisher of the events of a run

A worker publishes events to the stream of its run. The payload is written and measured first, then
the publisher keeps to its rate, draws a sequence, and appends what is written of the envelope, while
the stream is trimmed. As long as an entry is retained, a reader obtains the envelope that was returned.

`try_emit` passes over what the publisher raises on purpose. But a payload with half of a surrogate pair
has no encoding in UTF-8, one that is nested too deep cannot be written at all, and both are raised
through it.
-/

open Utf8

namespace GoblinKing

open Transition

/-! ### Envelopes -/

/-- `RUN_EVENT_TYPES` -/
def runEventTypes : List RunEventType :=
  [.progress, .stdout, .stderr, .message]

/-- The text of a type. -/
def RunEventType.text : RunEventType → String
  | .progress => "progress"
  | .stdout => "stdout"
  | .stderr => "stderr"
  | .message => "message"

/-- The type with a text, if it is supported. -/
def runEventType (text : String) : Option RunEventType :=
  runEventTypes.find? (fun eventType => decide (eventType.text = text))

/-- A dictionary that is published: its numbers are integers. -/
structure EventPayload where
  value : Json
  dict : value.isObj = true
  integers : value.Exact (fun _ => True)
  distinct : value.KeysDistinct

/-- A datetime in UTC. -/
def utcDatetime (t : UtcTime) : Datetime where
  time := t
  offset := some ⟨0, zero_within⟩

/-- The fields of an envelope. -/
def RunEventEnvelope.json (createdAtText : Datetime → List CodePoint) (event : RunEventEnvelope) :
    Json :=
  .obj
    [(ofChars "sequence".toList, .int event.sequence),
      (ofChars "created_at".toList, .str (createdAtText event.createdAt)),
      (ofChars "event_type".toList, .str (ofChars event.eventType.text.toList)),
      (ofChars "run_id".toList, .str (ofChars event.runId.toList)),
      (ofChars "payload".toList, event.payload)]

/-- How envelopes are written and read. What is nested too deep is not written, and what is written is
read unless it is nested too deep for that. -/
structure RunEventFormat extends RunEventReader where
  /-- The text of a datetime in ISO 8601 -/
  createdAtText : Datetime → List CodePoint
  /-- The depth to which `model_dump_json` writes a payload -/
  writes : ℕ
  /-- The depth to which `model_validate_json` reads a payload -/
  reads : ℕ
  encodable_createdAt : ∀ value, Utf8.Encodable (createdAtText value)
  size_createdAt : ∀ value, Utf8.size (Json.quoted Json.escape (createdAtText value)) ≤ 128
  validates : ∀ event : RunEventEnvelope, (∃ t, event.createdAt = utcDatetime t) →
    event.payload.Exact (fun c => ¬ IsSurrogate c) → event.payload.KeysDistinct →
    event.payload.depth ≤ reads →
    modelValidateJson (Json.write Json.escape (event.json createdAtText)) = some event

/-- `model_dump_json`, `none` where it raises a `ValueError` -/
def RunEventFormat.modelDumpJson (format : RunEventFormat) (event : RunEventEnvelope) :
    Option (List CodePoint) :=
  if event.payload.depth ≤ format.writes then
    some (Json.write Json.escape (event.json format.createdAtText))
  else
    none

/-! ### Redis -/

/-- What is kept in Redis for a run. A key that is not there has no entries, or counts from zero. -/
structure RunEventRedis where
  stream : RunEventStream
  /-- the value of the sequence key -/
  sequence : ℕ
  /-- the rate key is there -/
  rate : Bool

/-- A command is performed and answered, or not performed, or performed without that the answer
arrives. -/
inductive RedisReply where
  | ok
  | refused
  | lost
  deriving DecidableEq, Repr

/-- What becomes of the commands of an emission. -/
structure RedisReplies where
  set : RedisReply := .ok
  incr : RedisReply := .ok
  execute : RedisReply := .ok
  /-- the identifier of the entry -/
  entryId : String

/-! ### The publisher -/

/-- Publish bounded worker events without receiving any control-plane credential. -/
structure RunEventPublisher where
  runId : RunId
  maxEvents : ℕ
  maxPayloadBytes : ℕ
  minIntervalMs : ℕ
  events_within : 1 ≤ maxEvents ∧ maxEvents ≤ 256
  payload_within : 1 ≤ maxPayloadBytes ∧ maxPayloadBytes ≤ maxRunEventPayloadBytes

/-- What an emission raises. -/
inductive EmitFailure where
  | runEventError (message : String)
  | runEventTransportError
  | unicodeEncodeError
  | recursionError
  deriving DecidableEq, Repr

/-- The failures that `try_emit` catches. -/
def EmitFailure.caught : EmitFailure → Bool
  | .runEventError _ | .runEventTransportError => true
  | .unicodeEncodeError | .recursionError => false

/-- Append an entry, and keep the newest ones. -/
def RunEventStream.add (stream : RunEventStream) (entry : RunEventEntry) (maxEvents : ℕ)
    (h : maxEvents ≤ 256) : RunEventStream where
  entries := (stream.entries ++ [entry]).drop (stream.entries.length + 1 - maxEvents)
  bounded := by
    rw [List.length_drop, List.length_append, List.length_singleton]
    omega

theorem RunEventStream.entries_add (stream : RunEventStream) (entry : RunEventEntry) (maxEvents : ℕ)
    (h : maxEvents ≤ 256) :
  (stream.add entry maxEvents h).entries
    = (stream.entries ++ [entry]).drop (stream.entries.length + 1 - maxEvents)
  := rfl

namespace RunEventPublisher

variable (publisher : RunEventPublisher) (format : RunEventFormat) (recursionLimit : ℕ)

/-- The checks before Redis is asked. -/
def measure (eventType : String) (payload : EventPayload) : Except EmitFailure RunEventType :=
  match runEventType eventType with
  | none => .error (.runEventError ("unsupported run event type: " ++ eventType))
  | some eventType =>
      match Json.dumps recursionLimit payload.value with
      | .error .valueError => .error (.runEventError "run event payload must be JSON serializable")
      | .error .recursionError => .error .recursionError
      | .ok payloadJson =>
          match Utf8.encode payloadJson with
          | none => .error .unicodeEncodeError
          | some bytes =>
              if bytes.length > publisher.maxPayloadBytes then
                .error (.runEventError ("run event payload exceeds " ++
                  toString publisher.maxPayloadBytes ++ " bytes: " ++ toString bytes.length))
              else
                .ok eventType

/-- Keep to the rate, and draw a sequence. -/
def reserve (redis : RunEventRedis) (replies : RedisReplies) :
    Except EmitFailure ℕ × RunEventRedis :=
  let kept := { redis with rate := true }
  let drawn := { kept with sequence := redis.sequence + 1 }
  match replies.set with
  | .refused => (.error .runEventTransportError, redis)
  | .lost => (.error .runEventTransportError, kept)
  | .ok =>
      if redis.rate then
        (.error (.runEventError ("run events are limited to one every " ++
          toString publisher.minIntervalMs ++ "ms")), redis)
      -- a counter has 64 bits
      else if redis.sequence + 1 ≥ 2 ^ 63 then
        (.error .runEventTransportError, kept)
      else
        match replies.incr with
        | .refused => (.error .runEventTransportError, kept)
        | .lost => (.error .runEventTransportError, drawn)
        | .ok => (.ok (redis.sequence + 1), drawn)

/-- The envelope with a sequence. -/
def envelope (eventType : RunEventType) (payload : EventPayload) (createdAt : Datetime)
    (sequence : ℕ) : Option RunEventEnvelope :=
  if h : 1 ≤ sequence ∧ publisher.runId.text ≠ "" then
    some
      { sequence := sequence
        createdAt := createdAt
        eventType := eventType
        runId := publisher.runId.text
        payload := payload.value
        positive := h.1
        named := h.2
        dict := payload.dict }
  else
    none

/-- Append one exactly bounded event and return its monotonic envelope. -/
def emit (eventType : String) (payload : EventPayload) (createdAt : Option Datetime) (now : UtcTime)
    (redis : RunEventRedis) (replies : RedisReplies) :
    Except EmitFailure RunEventEnvelope × RunEventRedis :=
  match publisher.measure recursionLimit eventType payload with
  | .error failure => (.error failure, redis)
  | .ok eventType =>
      match publisher.reserve redis replies with
      | (.error failure, redis) => (.error failure, redis)
      | (.ok sequence, redis) =>
          let createdAt := createdAt.getD (utcDatetime now)
          match publisher.envelope eventType payload createdAt sequence with
          | none => (.error .runEventTransportError, redis)
          | some event =>
              match format.modelDumpJson event with
              | none => (.error .runEventTransportError, redis)
              | some text =>
                  let entry : RunEventEntry :=
                    { id := replies.entryId, bytesKey := some (.bytes (Utf8.bytes text)) }
                  let appended := { redis with
                    stream := redis.stream.add entry publisher.maxEvents publisher.events_within.2 }
                  match replies.execute with
                  | .refused => (.error .runEventTransportError, redis)
                  | .lost => (.error .runEventTransportError, appended)
                  | .ok => (.ok event, appended)

/-- Publish best-effort progress without changing the worker's task outcome. -/
def tryEmit (eventType : String) (payload : EventPayload) (now : UtcTime) (redis : RunEventRedis)
    (replies : RedisReplies) : Except EmitFailure (Option RunEventEnvelope) × RunEventRedis :=
  match publisher.emit format recursionLimit eventType payload none now redis replies with
  | (.ok event, redis) => (.ok (some event), redis)
  | (.error failure, redis) => if failure.caught then (.ok none, redis) else (.error failure, redis)

end RunEventPublisher

/-- The entry of an envelope. -/
def RunEventFormat.entryOf (format : RunEventFormat) (item : RunEventItem) : RunEventEntry where
  id := item.1
  bytesKey := some (.bytes (Utf8.bytes (Json.write Json.escape (item.2.json format.createdAtText))))

/-! ### Runs -/

/-- Redis, and the envelopes that were returned under the identifiers of their entries. -/
structure RunEventSystem where
  redis : RunEventRedis := ⟨⟨[], Nat.zero_le _⟩, 0, false⟩
  returned : List RunEventItem := []

/-- An event is emitted, or keys expire. The stream and its sequence key expire together. -/
inductive RunEventAction where
  | emit (eventType : String) (payload : EventPayload) (now : UtcTime) (replies : RedisReplies)
  | expireRate
  | expireStream

/-- A step. -/
def runEventStep (publisher : RunEventPublisher) (format : RunEventFormat) (recursionLimit : ℕ)
    (system : RunEventSystem) : RunEventAction → Option RunEventSystem
  | .emit eventType payload now replies =>
      match publisher.emit format recursionLimit eventType payload none now system.redis replies with
      | (.ok event, redis) =>
          some { redis := redis, returned := system.returned ++ [(replies.entryId, event)] }
      | (.error _, redis) => some { system with redis := redis }
  | .expireRate => some { system with redis := { system.redis with rate := false } }
  | .expireStream =>
      some { system with
        redis := { system.redis with stream := ⟨[], Nat.zero_le _⟩, sequence := 0 } }

/-- An emission whose payload is not nested so deep that it is written but not read. -/
def RunEventFormat.ReadsWhatItWrites (format : RunEventFormat) (_ : RunEventSystem) :
    RunEventAction → Prop
  | .emit _ payload _ _ =>
      payload.value.depth ≤ format.reads ∨ format.writes < payload.value.depth
  | .expireRate | .expireStream => True

/-- A payload that `try_emit` does not get past: it is nested too deep for `json.dumps`, or it is
dumped and has half of a surrogate pair. -/
def RaisesThrough (recursionLimit : ℕ) (eventType : String) (payload : EventPayload) : Prop :=
  (runEventType eventType).isSome = true
    ∧ (Json.dumpsFailure recursionLimit payload.value = some .recursionError
      ∨ Json.dumpsFailure recursionLimit payload.value = none
        ∧ ¬ Encodable payload.value.chars)

/-- What can be encoded and is not nested beyond the limit is not raised through. -/
theorem not_raisesThrough {recursionLimit : ℕ} {eventType : String} {payload : EventPayload}
    (hdepth : payload.value.depth ≤ recursionLimit) (hchars : Encodable payload.value.chars) :
  ¬ RaisesThrough recursionLimit eventType payload
  := by
  rintro ⟨-, hfailure | ⟨-, hnot⟩⟩
  · exact Json.dumpsFailure_of_depth_le payload.value hdepth hfailure
  · exact hnot hchars

/-! ### One emission -/

section

variable {publisher : RunEventPublisher} {format : RunEventFormat} {recursionLimit : ℕ}
  {payload : EventPayload} {redis redis' : RunEventRedis} {replies : RedisReplies}

/-- A payload passes the checks when it is written, can be encoded, and is small enough. -/
theorem measure_eq_ok {text : String} {eventType : RunEventType}
    (h : publisher.measure recursionLimit text payload = .ok eventType) :
  Encodable payload.value.chars
    ∧ Utf8.size (Json.write Json.escape payload.value) ≤ publisher.maxPayloadBytes
  := by
  rw [RunEventPublisher.measure] at h
  split at h
  · cases h
  · rw [Json.dumps] at h
    cases hfailure : Json.dumpsFailure recursionLimit payload.value with
    | some failure =>
        rw [hfailure] at h
        cases failure <;> cases h
    | none =>
        rw [hfailure] at h
        by_cases hencodable : Encodable (Json.write Json.escape payload.value)
        · have hencode := Utf8.encode_of_encodable hencodable
          simp only [hencode] at h
          split_ifs at h with hsize
          exact ⟨(Json.encodable_write payload.value).mp hencodable, not_lt.mp hsize⟩
        · have hencode := Utf8.encode_of_not_encodable hencodable
          simp only [hencode] at h
          cases h

/-- The checks raise through `try_emit` on these payloads. -/
theorem measure_uncaught_iff {text : String} :
  (∃ failure, publisher.measure recursionLimit text payload = .error failure
      ∧ failure.caught = false)
    ↔ RaisesThrough recursionLimit text payload
  := by
  rw [RunEventPublisher.measure, RaisesThrough, Json.dumps]
  cases htype : runEventType text with
  | none => simp [EmitFailure.caught]
  | some eventType =>
      cases hfailure : Json.dumpsFailure recursionLimit payload.value with
      | some failure =>
          cases failure <;> simp [EmitFailure.caught]
      | none =>
          by_cases hencodable : Encodable (Json.write Json.escape payload.value)
          · have hencode := Utf8.encode_of_encodable hencodable
            have hchars := (Json.encodable_write payload.value).mp hencodable
            simp only [hencode]
            split_ifs <;> simp [EmitFailure.caught, hchars]
          · have hencode := Utf8.encode_of_not_encodable hencodable
            have hchars := mt (Json.encodable_write payload.value).mpr hencodable
            simp [hencode, EmitFailure.caught, hchars]

/-- Drawing a sequence leaves the stream alone. -/
theorem reserve_stream :
  (publisher.reserve redis replies).2.stream = redis.stream
    ∧ redis.sequence ≤ (publisher.reserve redis replies).2.sequence
  := by
  rw [RunEventPublisher.reserve]
  cases replies.set with
  | refused => exact ⟨rfl, le_rfl⟩
  | lost => exact ⟨rfl, le_rfl⟩
  | ok =>
      dsimp only
      split_ifs
      · exact ⟨rfl, le_rfl⟩
      · exact ⟨rfl, le_rfl⟩
      · cases replies.incr with
        | refused => exact ⟨rfl, le_rfl⟩
        | lost => exact ⟨rfl, Nat.le_succ _⟩
        | ok => exact ⟨rfl, Nat.le_succ _⟩

/-- What is drawn is the next sequence. -/
theorem reserve_eq_ok {sequence : ℕ} (h : publisher.reserve redis replies = (.ok sequence, redis')) :
  sequence = redis.sequence + 1 ∧ redis'.sequence = sequence ∧ sequence < 2 ^ 63
    ∧ redis'.stream = redis.stream
  := by
  rw [RunEventPublisher.reserve] at h
  cases hset : replies.set <;> rw [hset] at h <;> try cases h
  dsimp only at h
  split_ifs at h with hrate hcounter
  · cases h
  · cases h
  · cases hincr : replies.incr <;> rw [hincr] at h <;> cases h
    exact ⟨rfl, rfl, not_le.mp hcounter, rfl⟩

/-- The failures of the transport are caught. -/
theorem reserve_caught {failure : EmitFailure}
    (h : publisher.reserve redis replies = (.error failure, redis')) :
  failure.caught = true
  := by
  rw [RunEventPublisher.reserve] at h
  cases hset : replies.set <;> rw [hset] at h
  · dsimp only at h
    split_ifs at h with hrate hcounter
    · cases h
      rfl
    · cases h
      rfl
    · cases hincr : replies.incr <;> rw [hincr] at h <;> cases h <;> rfl
  · cases h
    rfl
  · cases h
    rfl

/-- What is read of an envelope of the publisher. -/
structure Published (publisher : RunEventPublisher) (event : RunEventEnvelope) : Prop where
  ofRun : event.runId = publisher.runId.text
  created : ∃ t, event.createdAt = utcDatetime t
  integers : event.payload.Exact (fun _ => True)
  encodable : Encodable event.payload.chars
  distinct : event.payload.KeysDistinct
  small : Utf8.size (Json.write Json.escape event.payload) ≤ maxRunEventPayloadBytes
  counted : event.sequence < 2 ^ 63

/-- An emission has appended the entry of an envelope. -/
structure Appended (publisher : RunEventPublisher) (format : RunEventFormat) (payload : EventPayload)
    (replies : RedisReplies) (redis redis' : RunEventRedis) (event : RunEventEnvelope) : Prop where
  published : Published publisher event
  ofPayload : event.payload = payload.value
  written : payload.value.depth ≤ format.writes
  sequence : event.sequence = redis.sequence + 1
  counter : redis'.sequence = event.sequence
  stream : redis'.stream = redis.stream.add (format.entryOf (replies.entryId, event))
    publisher.maxEvents publisher.events_within.2

theorem envelope_eq_some {eventType : RunEventType} {createdAt : Datetime} {sequence : ℕ}
    {event : RunEventEnvelope}
    (h : publisher.envelope eventType payload createdAt sequence = some event) :
  event.runId = publisher.runId.text ∧ event.createdAt = createdAt ∧ event.payload = payload.value
    ∧ event.sequence = sequence
  := by
  rw [RunEventPublisher.envelope] at h
  split_ifs at h
  cases h
  exact ⟨rfl, rfl, rfl, rfl⟩

theorem modelDumpJson_eq_some {event : RunEventEnvelope} {text : List CodePoint}
    (h : format.modelDumpJson event = some text) :
  event.payload.depth ≤ format.writes
    ∧ text = Json.write Json.escape (event.json format.createdAtText)
  := by
  rw [RunEventFormat.modelDumpJson] at h
  split_ifs at h with hdepth
  exact ⟨hdepth, (Option.some.inj h).symm⟩

/-- The envelope for what has passed the checks is one of the publisher. -/
theorem published_of_emitted {text : String} {eventType : RunEventType} {now : UtcTime}
    {sequence : ℕ} {event : RunEventEnvelope}
    (hmeasure : publisher.measure recursionLimit text payload = .ok eventType)
    (hreserve : publisher.reserve redis replies = (.ok sequence, redis'))
    (hevent : publisher.envelope eventType payload (utcDatetime now) sequence = some event) :
  Published publisher event
  := by
  obtain ⟨hchars, hsmall⟩ := measure_eq_ok hmeasure
  obtain ⟨-, -, hcounted, -⟩ := reserve_eq_ok hreserve
  obtain ⟨hrun, hcreated, hpayload, hsequence⟩ := envelope_eq_some hevent
  constructor
  · exact hrun
  · exact ⟨now, hcreated⟩
  · rw [hpayload]
    exact payload.integers
  · rw [hpayload]
    exact hchars
  · rw [hpayload]
    exact payload.distinct
  · rw [hpayload]
    exact hsmall.trans publisher.payload_within.2
  · rw [hsequence]
    exact hcounted

/-- An emission raises and leaves the stream alone, or it appends an entry and returns its envelope
unless the reply is lost. -/
theorem emit_cases {text : String} {now : UtcTime} {outcome : Except EmitFailure RunEventEnvelope}
    (h : publisher.emit format recursionLimit text payload none now redis replies
      = (outcome, redis')) :
  ((∃ failure, outcome = .error failure)
      ∧ redis'.stream = redis.stream ∧ redis.sequence ≤ redis'.sequence)
    ∨ ∃ event, Appended publisher format payload replies redis redis' event
      ∧ (outcome = .ok event ∨ (∃ failure, outcome = .error failure) ∧ replies.execute = .lost)
  := by
  rw [RunEventPublisher.emit] at h
  cases hmeasure : publisher.measure recursionLimit text payload with
  | error failure =>
      rw [hmeasure] at h
      obtain ⟨rfl, rfl⟩ := Prod.mk.inj h
      exact .inl ⟨⟨failure, rfl⟩, rfl, le_rfl⟩
  | ok eventType =>
      have hkept : (publisher.reserve redis replies).2.stream = redis.stream
          ∧ redis.sequence ≤ (publisher.reserve redis replies).2.sequence := reserve_stream
      rw [hmeasure] at h
      dsimp only at h
      cases hreserve : publisher.reserve redis replies with
      | mk drawn redis₁ =>
          rw [hreserve] at h hkept
          cases drawn with
          | error failure =>
              obtain ⟨rfl, rfl⟩ := Prod.mk.inj h
              exact .inl ⟨⟨failure, rfl⟩, hkept⟩
          | ok sequence =>
              obtain ⟨hsequence, hcounter, -⟩ := reserve_eq_ok hreserve
              dsimp only at h
              split at h
              · obtain ⟨rfl, rfl⟩ := Prod.mk.inj h
                exact .inl ⟨⟨_, rfl⟩, hkept⟩
              · next event hevent =>
                  obtain ⟨-, -, hpayload, heventSequence⟩ := envelope_eq_some hevent
                  split at h
                  · obtain ⟨rfl, rfl⟩ := Prod.mk.inj h
                    exact .inl ⟨⟨_, rfl⟩, hkept⟩
                  · next dumped hdumped =>
                      obtain ⟨hdepth, rfl⟩ := modelDumpJson_eq_some hdumped
                      have happended : ∀ redis₂ : RunEventRedis, redis₂.sequence = redis₁.sequence →
                          redis₂.stream = redis₁.stream.add (format.entryOf (replies.entryId, event))
                            publisher.maxEvents publisher.events_within.2 →
                          Appended publisher format payload replies redis redis₂ event := by
                        intro redis₂ hcount hstream
                        constructor
                        · exact published_of_emitted hmeasure hreserve hevent
                        · exact hpayload
                        · rw [← hpayload]
                          exact hdepth
                        · rw [heventSequence, hsequence]
                        · rw [hcount, hcounter, heventSequence]
                        · rw [hstream, hkept.1]
                      cases hexecute : replies.execute with
                      | refused =>
                          rw [hexecute] at h
                          obtain ⟨rfl, rfl⟩ := Prod.mk.inj h
                          exact .inl ⟨⟨_, rfl⟩, hkept⟩
                      | lost =>
                          rw [hexecute] at h
                          obtain ⟨rfl, rfl⟩ := Prod.mk.inj h
                          exact .inr ⟨event, happended _ rfl rfl, .inr ⟨⟨_, rfl⟩, rfl⟩⟩
                      | ok =>
                          rw [hexecute] at h
                          obtain ⟨rfl, rfl⟩ := Prod.mk.inj h
                          exact .inr ⟨event, happended _ rfl rfl, .inl rfl⟩

/-- What an emission raises is raised by the checks, or caught. -/
theorem emit_error {text : String} {createdAt : Option Datetime} {now : UtcTime}
    {failure : EmitFailure}
    (h : publisher.emit format recursionLimit text payload createdAt now redis replies
      = (.error failure, redis')) :
  publisher.measure recursionLimit text payload = .error failure ∨ failure.caught = true
  := by
  rw [RunEventPublisher.emit] at h
  cases hmeasure : publisher.measure recursionLimit text payload with
  | error raised =>
      rw [hmeasure] at h
      obtain ⟨heq, -⟩ := Prod.mk.inj h
      exact .inl (congrArg Except.error (Except.error.inj heq))
  | ok eventType =>
      rw [hmeasure] at h
      dsimp only at h
      right
      split at h
      · next hreserve =>
          obtain ⟨heq, -⟩ := Prod.mk.inj h
          obtain rfl := Except.error.inj heq
          exact reserve_caught hreserve
      · split at h
        · cases h
          rfl
        · split at h
          · cases h
            rfl
          · split at h
            · cases h
              rfl
            · cases h
              rfl
            · cases h

theorem emit_of_measure {text : String} {createdAt : Option Datetime} {now : UtcTime}
    {failure : EmitFailure}
    (h : publisher.measure recursionLimit text payload = .error failure) :
  publisher.emit format recursionLimit text payload createdAt now redis replies
    = (.error failure, redis)
  := by
  rw [RunEventPublisher.emit, h]

/-- `try_emit` returns except on the payloads that the checks raise through it. -/
theorem tryEmit_isOk_iff {text : String} {now : UtcTime} :
  (publisher.tryEmit format recursionLimit text payload now redis replies).1.isOk = true
    ↔ ¬ RaisesThrough recursionLimit text payload
  := by
  have hmeasure : (∃ failure, publisher.measure recursionLimit text payload = .error failure
      ∧ failure.caught = false) ↔ RaisesThrough recursionLimit text payload := measure_uncaught_iff
  rw [← hmeasure, RunEventPublisher.tryEmit]
  cases hemit : publisher.emit format recursionLimit text payload none now redis replies with
  | mk outcome redis' =>
      have hraised : ∀ failure, publisher.measure recursionLimit text payload = .error failure →
          outcome = .error failure := by
        intro failure hfailure
        rw [emit_of_measure hfailure] at hemit
        exact (Prod.mk.inj hemit).1.symm
      cases outcome with
      | ok event =>
          apply iff_of_true rfl
          rintro ⟨failure, hfailure, -⟩
          cases hraised failure hfailure
      | error failure =>
          dsimp only
          cases hcaught : failure.caught with
          | true =>
              apply iff_of_true rfl
              rintro ⟨failure', hfailure, huncaught⟩
              cases hraised failure' hfailure
              rw [hcaught] at huncaught
              cases huncaught
          | false =>
              apply iff_of_false Bool.false_ne_true
              intro hnone
              rcases emit_error hemit with hfailure | htrue
              · exact hnone ⟨failure, hfailure, hcaught⟩
              · rw [hcaught] at htrue
                cases htrue

/-! ### What is retained is read -/

/-- An envelope of the publisher that is not nested too deep to be read. -/
def Readable (publisher : RunEventPublisher) (format : RunEventFormat) (event : RunEventEnvelope) :
    Prop :=
  Published publisher event ∧ event.payload.depth ≤ format.reads

variable {event : RunEventEnvelope}

/-- The strings of an envelope can be encoded. -/
theorem Published.encodable_json (h : Published publisher event) :
  Encodable (Json.write Json.escape (event.json format.createdAtText))
  := by
  apply (Json.encodable_write _).mpr
  simp only [RunEventEnvelope.json, Json.chars, Json.fieldChars, List.append_nil, Utf8.Encodable,
    List.forall_mem_append]
  exact ⟨encodable_ofChars _, ⟨encodable_ofChars _, format.encodable_createdAt _⟩,
    ⟨encodable_ofChars _, encodable_ofChars _⟩, ⟨encodable_ofChars _, encodable_ofChars _⟩,
    encodable_ofChars _, h.encodable⟩

/-- The fields of an envelope besides its payload need less than a kilobyte. -/
theorem Published.size_json_le (h : Published publisher event) :
  Utf8.size (Json.write Json.escape (event.json format.createdAtText))
    ≤ maxRunEventPayloadBytes + 1024
  := by
  have hdigits : Utf8.size (Json.write Json.escape (.int event.sequence)) ≤ 20 := by
    have hcount : event.sequence < 10 ^ 19 := lt_trans h.counted (by decide)
    have hsize : Utf8.size (Json.decimal event.sequence) ≤ 19 + 1 :=
      Json.size_decimal_le (by decide) hcount
    exact hsize
  have htype : Utf8.size (Json.write Json.escape (.str (ofChars event.eventType.text.toList))) ≤ 50 := by
    cases event.eventType <;> decide
  have hrun : Utf8.size (Json.write Json.escape (.str (ofChars event.runId.toList))) ≤ 218 := by
    have hsize := Json.size_quoted_le (ofChars event.runId.toList)
    have hlength : (ofChars event.runId.toList).length = 36 := by
      rw [h.ofRun, ofChars, List.length_map, publisher.runId.length_text]
    rw [hlength] at hsize
    exact hsize
  have hcreated : Utf8.size (Json.write Json.escape (.str (format.createdAtText event.createdAt)))
      ≤ 128 := format.size_createdAt event.createdAt
  have hpayload := h.small
  have hobject := Json.size_write_obj_le
    [(ofChars "sequence".toList, .int event.sequence),
      (ofChars "created_at".toList, .str (format.createdAtText event.createdAt)),
      (ofChars "event_type".toList, .str (ofChars event.eventType.text.toList)),
      (ofChars "run_id".toList, .str (ofChars event.runId.toList)),
      (ofChars "payload".toList, event.payload)]
  have hkeys : (ofChars "sequence".toList).length = 8 ∧ (ofChars "created_at".toList).length = 10
      ∧ (ofChars "event_type".toList).length = 10 ∧ (ofChars "run_id".toList).length = 6
      ∧ (ofChars "payload".toList).length = 7 := by decide
  simp only [List.map_cons, List.map_nil, List.sum_cons, List.sum_nil, hkeys] at hobject
  rw [RunEventEnvelope.json]
  omega

/-- The entry of an envelope is read as this envelope. -/
theorem Readable.eventOf_entryOf (h : Readable publisher format event) (id : String) :
  eventOf format.toRunEventReader publisher.runId.text (format.entryOf (id, event))
    = some (id, event)
  := by
  apply eventOf_eq_some.mpr
  refine ⟨⟨Json.write Json.escape (event.json format.createdAtText), ?_, ?_⟩, rfl⟩
  · exact Utf8.decode_bytes h.1.encodable_json
  · constructor
    · exact format.validates event h.1.created (h.1.integers.of_chars h.1.encodable) h.1.distinct h.2
    · exact h.1.size_json_le
    · exact h.1.small
    · exact h.1.ofRun

/-- The entry of an envelope has a text. -/
theorem Readable.decodable_entryOf (h : Readable publisher format event) (id : String) :
  (format.entryOf (id, event)).Decodable
  := by
  rintro raw ⟨⟩
  exact ⟨_, Utf8.decode_bytes h.1.encodable_json, h.1.encodable_json⟩

/-- The stream has entries of readable envelopes, whose sequences increase up to the one that was drawn
last. -/
structure Kept (publisher : RunEventPublisher) (format : RunEventFormat) (system : RunEventSystem)
    (items : List RunEventItem) : Prop where
  entries : system.redis.stream.entries = items.map format.entryOf
  increasing : Scan.Increasing (fun item => item.2.sequence) items
  drawn : ∀ item ∈ items, item.2.sequence ≤ system.redis.sequence
  readable : ∀ item ∈ items, Readable publisher format item.2
  returned : ∀ item ∈ system.returned, Readable publisher format item.2

variable {system system' : RunEventSystem} {items : List RunEventItem}

/-- One of each sequence are all when the sequences increase. -/
theorem monotonic_eq_self {lastSequence : ℕ}
    (h : Scan.Increasing (fun item => item.2.sequence) items)
    (hlast : ∀ item ∈ items, lastSequence < item.2.sequence) :
  monotonic lastSequence items = items
  := by
  induction items generalizing lastSequence with
  | nil => rfl
  | cons first items ih =>
      obtain ⟨hfirst, hitems⟩ := List.pairwise_cons.mp h
      rw [monotonic, if_neg (hlast first List.mem_cons_self).not_ge, ih hitems hfirst]

/-- The events of the stream are those of its entries. -/
theorem Kept.events (h : Kept publisher format system items) :
  system.redis.stream.events format.toRunEventReader publisher.runId.text = items
  := by
  have hfilter : (items.map format.entryOf).filterMap
      (eventOf format.toRunEventReader publisher.runId.text) = items := by
    rw [List.filterMap_map]
    calc items.filterMap (eventOf format.toRunEventReader publisher.runId.text ∘ format.entryOf)
        = items.filterMap some := by
          apply List.filterMap_congr
          intro item hitem
          exact (h.readable item hitem).eventOf_entryOf item.1
      _ = items := List.filterMap_some
  have hsorted : items.Pairwise RunEventItem.Before := h.increasing.imp le_of_lt
  rw [RunEventStream.events, h.entries, hfilter, hsorted.insertionSort_eq]
  apply monotonic_eq_self h.increasing
  exact fun item _ => item.2.positive

/-- An envelope that was returned is read as long as its entry is retained. -/
theorem Kept.read (h : Kept publisher format system items) {item : RunEventItem}
    (hitem : item ∈ system.returned) (hretained : format.entryOf item ∈ system.redis.stream.entries)
    {afterSequence limit : ℤ} (hafter : 0 ≤ afterSequence) (hlt : afterSequence < item.2.sequence)
    (hlimit : system.redis.stream.entries.length ≤ limit ∧ limit ≤ 256) :
  ∃ found, readRunEventEntries format.toRunEventReader publisher.runId.text system.redis.stream
      afterSequence limit = .ok found ∧ item ∈ found
  := by
  have hdecodable : ∀ entry ∈ system.redis.stream.entries, entry.Decodable := by
    rw [h.entries]
    intro entry hentry
    obtain ⟨item, hitem, rfl⟩ := List.mem_map.mp hentry
    exact (h.readable item hitem).decodable_entryOf item.1
  have hmem : item ∈ items := by
    rw [h.entries] at hretained
    obtain ⟨item', hitem', heq⟩ := List.mem_map.mp hretained
    have hread := (h.readable item' hitem').eventOf_entryOf item'.1
    rw [heq, (h.returned item hitem).eventOf_entryOf item.1] at hread
    obtain rfl : item = item' := Option.some.inj hread
    exact hitem'
  have hlength : system.redis.stream.entries.length = items.length := by
    rw [h.entries, List.length_map]
  have hpositive := List.length_pos_of_mem hmem
  have hreads : ReadsEvents format.toRunEventReader publisher.runId.text system.redis.stream _ :=
    readsEvents_events hdecodable
  have hpage := hreads.page afterSequence limit hafter ⟨by omega, hlimit.2⟩
  rw [h.events] at hpage
  refine ⟨_, hpage, ?_⟩
  rw [List.take_of_length_le]
  · exact List.mem_filter.mpr ⟨hmem, decide_eq_true hlt⟩
  · have hfilter := List.length_filter_le
      (fun item : RunEventItem => decide (afterSequence < item.2.sequence)) items
    omega

/-- Appending an entry keeps the stream to readable envelopes. -/
theorem Kept.add (h : Kept publisher format system items) {id : String}
    (hevent : Readable publisher format event) (hsequence : event.sequence = system.redis.sequence + 1)
    (hcounter : system'.redis.sequence = event.sequence)
    (hstream : system'.redis.stream = system.redis.stream.add (format.entryOf (id, event))
      publisher.maxEvents publisher.events_within.2)
    (hreturned : ∀ item ∈ system'.returned, item ∈ system.returned ∨ item = (id, event)) :
  ∃ items', Kept publisher format system' items'
  := by
  use (items ++ [(id, event)]).drop (items.length + 1 - publisher.maxEvents)
  constructor
  · rw [hstream, RunEventStream.entries_add, h.entries, List.length_map, List.map_drop,
      List.map_append, List.map_singleton]
  · apply List.Pairwise.sublist (List.drop_sublist _ _)
    apply List.pairwise_append.mpr
    refine ⟨h.increasing, List.pairwise_singleton _ _, ?_⟩
    intro item hitem last hlast
    rw [List.mem_singleton.mp hlast]
    calc item.2.sequence
        ≤ system.redis.sequence := h.drawn item hitem
      _ < event.sequence := by omega
  · intro item hitem
    rcases List.mem_append.mp (List.mem_of_mem_drop hitem) with hitem | hitem
    · have hdrawn := h.drawn item hitem
      omega
    · rw [List.mem_singleton.mp hitem, hcounter]
  · intro item hitem
    rcases List.mem_append.mp (List.mem_of_mem_drop hitem) with hitem | hitem
    · exact h.readable item hitem
    · rw [List.mem_singleton.mp hitem]
      exact hevent
  · intro item hitem
    rcases hreturned item hitem with hitem | rfl
    · exact h.returned item hitem
    · exact hevent

/-- Every step keeps the stream to readable envelopes when nothing is written that cannot be read. -/
theorem Kept.step (h : Kept publisher format system items) {a : RunEventAction}
    (hreads : format.ReadsWhatItWrites system a)
    (hstep : runEventStep publisher format recursionLimit system a = some system') :
  ∃ items', Kept publisher format system' items'
  := by
  cases a with
  | emit text payload now replies =>
      rw [runEventStep] at hstep
      cases hemit : publisher.emit format recursionLimit text payload none now system.redis replies with
      | mk outcome redis' =>
          rw [hemit] at hstep
          rcases emit_cases hemit with ⟨⟨failure, rfl⟩, hstream, hcount⟩ | ⟨event, happended, hout⟩
          · obtain rfl := Option.some.inj hstep
            use items
            constructor
            · rw [← h.entries]
              exact congrArg RunEventStream.entries hstream
            · exact h.increasing
            · exact fun item hitem => (h.drawn item hitem).trans hcount
            · exact h.readable
            · exact h.returned
          · have hdepth : payload.value.depth ≤ format.reads :=
              hreads.resolve_right happended.written.not_gt
            have hreadable : Readable publisher format event := by
              use happended.published
              rw [happended.ofPayload]
              exact hdepth
            rcases hout with rfl | ⟨⟨failure, rfl⟩, -⟩
            · obtain rfl := Option.some.inj hstep
              apply h.add hreadable happended.sequence happended.counter happended.stream
              intro item hitem
              simpa using hitem
            · obtain rfl := Option.some.inj hstep
              apply h.add hreadable happended.sequence happended.counter happended.stream
              exact fun item hitem => .inl hitem
  | expireRate =>
      obtain rfl := Option.some.inj hstep
      exact ⟨items, h.entries, h.increasing, h.drawn, h.readable, h.returned⟩
  | expireStream =>
      obtain rfl := Option.some.inj hstep
      refine ⟨[], rfl, List.Pairwise.nil, List.forall_mem_nil _, List.forall_mem_nil _, h.returned⟩

end

/-! ### The publisher and the reader -/

/-- `try_emit` returns except on payloads that are nested too deep or have half of a surrogate pair. What
raises leaves the stream alone unless the reply of the transaction is lost. And as long as nothing is
written that is nested too deep to be read, the envelopes that were returned are read while their entries
are retained. -/
theorem publisher_and_reader_agree (publisher : RunEventPublisher) (format : RunEventFormat)
    (recursionLimit : ℕ) :
  (∀ text payload now redis replies,
    (publisher.tryEmit format recursionLimit text payload now redis replies).1.isOk = true
      ↔ ¬ RaisesThrough recursionLimit text payload)
    ∧ (∀ text payload now redis replies failure redis', replies.execute ≠ .lost →
      publisher.emit format recursionLimit text payload none now redis replies
        = (.error failure, redis') →
      redis'.stream = redis.stream)
    ∧ ∀ system, Path (runEventStep publisher format recursionLimit) format.ReadsWhatItWrites {}
        system →
      ∀ item ∈ system.returned, format.entryOf item ∈ system.redis.stream.entries →
      ∀ afterSequence limit : ℤ, 0 ≤ afterSequence → afterSequence < item.2.sequence →
      system.redis.stream.entries.length ≤ limit ∧ limit ≤ 256 →
      ∃ found, readRunEventEntries format.toRunEventReader publisher.runId.text system.redis.stream
        afterSequence limit = .ok found ∧ item ∈ found
  := by
  refine ⟨fun _ _ _ _ _ => tryEmit_isOk_iff, ?_, ?_⟩
  · intro text payload now redis replies failure redis' hlost hemit
    rcases emit_cases hemit with ⟨-, hstream, -⟩ | ⟨event, -, hok | ⟨-, hexecute⟩⟩
    · exact hstream
    · cases hok
    · exact absurd hexecute hlost
  · intro system hpath
    have hinitial : ∃ items, Kept publisher format {} items :=
      ⟨[], rfl, List.Pairwise.nil, List.forall_mem_nil _, List.forall_mem_nil _, List.forall_mem_nil _⟩
    have hkept : ∃ items, Kept publisher format system items := by
      apply hpath.invariant _ hinitial
      rintro system a system' ⟨items, hkept⟩ hreads hstep
      exact hkept.step hreads hstep
    obtain ⟨items, hkept⟩ := hkept
    intro item hitem hretained afterSequence limit hafter hlt hlimit
    exact hkept.read hitem hretained hafter hlt hlimit

/-! ### A payload that is raised through -/

/-- The text of the time of a datetime in microseconds. -/
def microsText (value : Datetime) : List CodePoint :=
  Json.decimal value.time.val

/-- A text is written of an envelope in UTC. -/
structure WrittenOf (text : List CodePoint) (event : RunEventEnvelope) : Prop where
  exact : event.payload.Exact (fun c => ¬ IsSurrogate c)
  created : ∃ t, event.createdAt = utcDatetime t
  eq : text = Json.write Json.escape (event.json microsText)

/-- The fields of an envelope are exact when its payload is. -/
theorem exact_json {event : RunEventEnvelope}
    (h : event.payload.Exact (fun c => ¬ IsSurrogate c)) :
  (event.json microsText).Exact (fun c => ¬ IsSurrogate c)
  := by
  apply Json.Exact.obj
  · simp only [List.forall_mem_cons]
    exact ⟨encodable_ofChars _, encodable_ofChars _, encodable_ofChars _, encodable_ofChars _,
      encodable_ofChars _, List.forall_mem_nil _⟩
  · simp only [List.forall_mem_cons]
    exact ⟨.int _, .str (fun c hc => (Json.isPrintable_decimal _ c hc).not_isSurrogate),
      .str (encodable_ofChars _), .str (encodable_ofChars _), h, List.forall_mem_nil _⟩

/-- Types are told apart by their texts. -/
theorem RunEventType.text_injective :
  Function.Injective RunEventType.text
  := by
  intro first second h
  cases first <;> cases second <;> first | rfl | exact absurd h (by decide)

/-- What is written of envelopes in UTC determines them. -/
theorem WrittenOf.unique {text : List CodePoint} {event event' : RunEventEnvelope}
    (h : WrittenOf text event) (h' : WrittenOf text event') :
  event = event'
  := by
  have hjson := (exact_json h.exact).legible.write_injective Json.separates_escape
    (exact_json h'.exact).legible (h.eq.symm.trans h'.eq)
  obtain ⟨t, hcreated⟩ := h.created
  obtain ⟨t', hcreated'⟩ := h'.created
  cases event with
  | mk sequence createdAt eventType runId payload _ _ _ =>
      cases event' with
      | mk sequence' createdAt' eventType' runId' payload' _ _ _ =>
          simp only [RunEventEnvelope.json, Json.obj.injEq, List.cons.injEq, Prod.mk.injEq,
            Json.int.injEq, Json.str.injEq, true_and, and_true] at hjson
          obtain ⟨hsequence, htime, htype, hrun, rfl⟩ := hjson
          obtain rfl := RunEventType.text_injective (String.toList_injective (ofChars_injective htype))
          obtain rfl := String.toList_injective (ofChars_injective hrun)
          obtain rfl := Int.ofNat.inj hsequence
          dsimp only at hcreated hcreated'
          subst hcreated hcreated'
          obtain rfl := UtcTime.ext (Json.decimal_injective htime)
          rfl

open Classical in
/-- A format that reads back what it has written, and no other texts. -/
noncomputable def inverseFormat : RunEventFormat where
  modelValidateJson text := if h : ∃ event, WrittenOf text event then some h.choose else none
  encodable := by
    intro text event h
    split_ifs at h with hwritten
    rw [← Option.some.inj h]
    exact hwritten.choose_spec.exact.forall_mem_chars
  createdAtText := microsText
  writes := 255
  reads := 199
  encodable_createdAt := by
    intro value c hc
    exact (Json.isPrintable_decimal _ c hc).not_isSurrogate
  size_createdAt := by
    intro value
    have hdigits : ∀ n : ℤ, -62135596800000000 ≤ n → n ≤ 253402300799999999 →
        n.natAbs < 10 ^ 18 := by
      intro n hlower hupper
      omega
    have hmicros := hdigits value.time.val value.time.within.1 value.time.within.2
    have hlength := Json.size_decimal_le (by decide) hmicros
    rw [Json.size_of_printable (Json.isPrintable_decimal _)] at hlength
    have hsize := Json.size_quoted_le (microsText value)
    rw [microsText] at hsize ⊢
    omega
  validates := by
    intro event hcreated hexact _ _
    have hwritten : WrittenOf (Json.write Json.escape (event.json microsText)) event :=
      ⟨hexact, hcreated, rfl⟩
    have hexists : ∃ event', WrittenOf (Json.write Json.escape (event.json microsText)) event' :=
      ⟨event, hwritten⟩
    rw [dif_pos hexists]
    exact congrArg some (hexists.choose_spec.unique hwritten)

/-- A payload of one text. -/
def textPayload (text : List CodePoint) : EventPayload where
  value := .obj [(ofChars "text".toList, .str text)]
  dict := rfl
  integers := by
    apply Json.Exact.obj
    · exact fun _ _ _ _ => trivial
    · intro field hfield
      obtain rfl := List.mem_singleton.mp hfield
      exact .str (fun _ _ => trivial)
  distinct := by
    apply Json.KeysDistinct.obj
    · exact List.nodup_singleton _
    · intro field hfield
      obtain rfl := List.mem_singleton.mp hfield
      exact .str _

/-- The text `"\ud800"`, which Python has, but not UTF-8. -/
def surrogatePayload : EventPayload :=
  textPayload [0xD800]

/-- The text `"hello"`. -/
def helloPayload : EventPayload :=
  textPayload (ofChars "hello".toList)

/-- A publisher with the default limits. -/
def samplePublisher : RunEventPublisher where
  runId := ⟨"00000000-0000-4000-8000-000000000000", by decide⟩
  maxEvents := 256
  maxPayloadBytes := 4096
  minIntervalMs := 50
  events_within := by decide
  payload_within := by decide

/-- The text is emitted in 1970. -/
def emitHello : RunEventAction :=
  .emit "message" helloPayload ⟨0, epoch_within⟩ { entryId := "0-1" }

/-- The text that was emitted is read back. -/
theorem publisher_and_reader_agree_hello :
  ∃ system event found, runEventStep samplePublisher inverseFormat 1000 {} emitHello = some system
    ∧ system.returned = [("0-1", event)] ∧ event.payload = helloPayload.value
    ∧ readRunEventEntries inverseFormat.toRunEventReader samplePublisher.runId.text
      system.redis.stream 0 256 = .ok found
    ∧ ("0-1", event) ∈ found
  := by
  obtain ⟨system, event, hstep, hreturned, hpayload, hretained, hsequence⟩ : ∃ system event,
      runEventStep samplePublisher inverseFormat 1000 {} emitHello = some system
        ∧ system.returned = [("0-1", event)] ∧ event.payload = helloPayload.value
        ∧ system.redis.stream.entries = [inverseFormat.entryOf ("0-1", event)]
        ∧ event.sequence = 1 := ⟨_, _, rfl, rfl, rfl, rfl, rfl⟩
  have hreads : inverseFormat.ReadsWhatItWrites {} emitHello :=
    Or.inl (show helloPayload.value.depth ≤ 199 by decide)
  have hpath : Path (runEventStep samplePublisher inverseFormat 1000) inverseFormat.ReadsWhatItWrites {}
      system := .tail (.refl _) hreads hstep
  obtain ⟨found, hfound, hmem⟩ := (publisher_and_reader_agree samplePublisher inverseFormat 1000).2.2
    system hpath ("0-1", event) (by rw [hreturned]; exact List.mem_cons_self)
    (by rw [hretained]; exact List.mem_cons_self) 0 256 le_rfl (by rw [hsequence]; decide)
    (by simp [hretained])
  exact ⟨system, event, found, hstep, hreturned, hpayload, hfound, hmem⟩

/-- `try_emit` raises on a text with half of a surrogate pair. -/
theorem tryEmit_raises :
  (samplePublisher.tryEmit inverseFormat 1000 "stdout" surrogatePayload ⟨0, epoch_within⟩
      ({} : RunEventSystem).redis { entryId := "1-0" }).1 = .error .unicodeEncodeError
  := by
  rfl

end GoblinKing
