import GoblinKing.Library.Transition
import Mathlib.Data.List.MinMax
import Mathlib.Algebra.Order.Ring.Rat

/-!
# The relay of a websocket

A relay opens the upstream connection and runs three tasks: one sends the frames of the client to the
upstream, one sends the frames of the upstream to the client, and a watchdog ends a relay that is
idle. A task that comes to a result records it, when no other task has done so before, and closes the
peers. The relay waits until a task has completed, gives the other tasks a grace period, cancels those
that have not completed by then, and returns the result that ranks highest among those of the
completed tasks.

A task runs until it awaits something, and so a step of the system is what a coroutine does between
two suspensions. Time is what the clock shows when the task goes on.
-/

namespace GoblinKing

/-- The limits of a relay that its tasks apply. -/
structure ServiceWebSocketProxyConfig where
  maxMessageBytes : ℤ := 1024 * 1024
  idleTimeoutSeconds : ℚ := 300

/-- The `outcome` of a result. -/
inductive RelayOutcome where
  | messageTooLarge
  | idleTimeout
  | upstreamClosed
  | clientClosed
  deriving DecidableEq, Repr

/-- The `priority` of an outcome -/
def RelayOutcome.priority : RelayOutcome → ℕ
  | .messageTooLarge => 4
  | .idleTimeout => 3
  | .upstreamClosed => 2
  | .clientClosed => 1

/-- The terminal outcome and the traffic of one relay. -/
structure ServiceWebSocketProxyResult where
  outcome : RelayOutcome
  closeCode : ℤ
  reason : String
  clientFrames : ℕ
  clientBytes : ℕ
  upstreamFrames : ℕ
  upstreamBytes : ℕ
  deriving DecidableEq, Repr

/-- `_RelayCounters` -/
structure RelayCounters where
  clientFrames : ℕ := 0
  clientBytes : ℕ := 0
  upstreamFrames : ℕ := 0
  upstreamBytes : ℕ := 0
  deriving DecidableEq, Repr

/-- `_result` -/
def relayResult (outcome : RelayOutcome) (closeCode : ℤ) (reason : String)
    (counters : RelayCounters) : ServiceWebSocketProxyResult where
  outcome := outcome
  closeCode := closeCode
  reason := reason
  clientFrames := counters.clientFrames
  clientBytes := counters.clientBytes
  upstreamFrames := counters.upstreamFrames
  upstreamBytes := counters.upstreamBytes

/-! ### Frames -/

/-- The payload of a frame. -/
inductive RelayPayload where
  | text (text : String)
  | bytes (bytes : List UInt8)
  deriving DecidableEq, Repr

/-- `_payload_size` -/
def payloadSize : RelayPayload → ℕ
  | .text text => text.utf8ByteSize
  | .bytes bytes => bytes.length

/-- What `receive` returns. -/
inductive ClientMessage where
  | disconnect (code : Option ℤ) (reason : Option String)
  | receive (text : Option String) (bytes : Option (List UInt8))
  deriving DecidableEq, Repr

/-- `_VALID_CLOSE_CODES` -/
def validCloseCode (code : ℤ) : Bool :=
  (decide (1000 ≤ code ∧ code < 1015) && !([1004, 1005, 1006] : List ℤ).contains code)
    || decide (3000 ≤ code ∧ code < 5000)

/-- `_close_code` -/
def closeCode (value : Option ℤ) (default : ℤ) : ℤ :=
  match value with
  | some code => if validCloseCode code then code else default
  | none => default

/-- `_close_reason` -/
def closeReason (value : Option String) : String :=
  String.ofList ((value.getD "").toList.take 123)

/-! ### The state of a relay -/

/-- The tasks of a relay. -/
inductive RelayParty where
  /-- `_client_to_upstream` -/
  | client
  /-- `_upstream_to_client` -/
  | upstream
  /-- `_idle_watchdog` -/
  | watchdog
  deriving DecidableEq, Repr

/-- Where a task is suspended, or how it has ended. -/
inductive RelayTask where
  /-- it waits for a message, or sleeps -/
  | waiting
  /-- it sends a payload -/
  | sending (payload : RelayPayload)
  /-- it has come to its result and closes the peers -/
  | closing (result : ServiceWebSocketProxyResult)
  | returned (result : ServiceWebSocketProxyResult)
  | raised
  | cancelled
  deriving DecidableEq, Repr

namespace RelayTask

/-- The task has completed. -/
def done : RelayTask → Bool
  | returned _ | raised | cancelled => true
  | _ => false

/-- The task has not come to a result. -/
def atWork : RelayTask → Bool
  | waiting | sending _ => true
  | _ => false

/-- The result that a completed task has returned. -/
def returned? : RelayTask → Option ServiceWebSocketProxyResult
  | returned result => some result
  | _ => none

/-- The result that a task has come to. -/
def result? : RelayTask → Option ServiceWebSocketProxyResult
  | closing result | returned result => some result
  | _ => none

/-- `Task.cancel`, and the end of the task. -/
def cancel : RelayTask → RelayTask
  | returned result => returned result
  | raised => raised
  | _ => cancelled

end RelayTask

/-- A `ServiceWebSocketProxyError`, or a `ValueError` as the endpoint reports it. -/
structure RelayFailure where
  closeCode : ℤ
  reason : String
  deriving DecidableEq, Repr

/-- What any other exception of the upstream connection or of the relay is turned into. -/
def upstreamUnavailable : RelayFailure :=
  ⟨1013, "upstream unavailable"⟩

/-- Why there is no upstream connection. -/
inductive OpeningError where
  /-- `service_websocket_url` raises -/
  | invalidRoute
  /-- `requested_subprotocols` raises -/
  | invalidSubprotocol
  /-- `connect` raises -/
  | unavailable
  deriving DecidableEq, Repr

def OpeningError.failure : OpeningError → RelayFailure
  | .invalidRoute => ⟨1008, "invalid route"⟩
  | .invalidSubprotocol => ⟨1008, "invalid subprotocol"⟩
  | .unavailable => upstreamUnavailable

/-- Where the coroutine of the endpoint is suspended. -/
inductive RelayPhase where
  /-- it opens the upstream connection -/
  | opening
  /-- it accepts the websocket of the client -/
  | accepting
  /-- it waits for the first task to complete -/
  | relaying
  /-- it waits for the other tasks -/
  | grace
  /-- it closes the upstream connection, with a result of the relay or with a failure -/
  | leaving (failure : Option RelayFailure)
  | ended
  deriving DecidableEq, Repr

/-- The `outcome` of an audit. -/
inductive RelayAuditOutcome where
  | success
  | result (outcome : RelayOutcome)
  | failed
  deriving DecidableEq, Repr

/-- An audit of a terminal outcome. -/
structure RelayAudit where
  outcome : RelayAuditOutcome
  closeCode : ℤ
  reason : String
  terminal : Option ServiceWebSocketProxyResult
  deriving DecidableEq, Repr

/-- `record_result` -/
def recordResult (result : ServiceWebSocketProxyResult) : RelayAudit where
  outcome :=
    if (result.outcome = .clientClosed ∨ result.outcome = .upstreamClosed)
        ∧ (result.closeCode = 1000 ∨ result.closeCode = 1001) then
      .success
    else
      .result result.outcome
  closeCode := result.closeCode
  reason := result.reason
  terminal := some result

/-- The audit of the error branch. -/
def recordFailure (failure : RelayFailure) : RelayAudit where
  outcome := .failed
  closeCode := failure.closeCode
  reason := failure.reason
  terminal := none

/-- A relay in `proxy_service_websocket`. The calls of `on_result`, the payloads passed to the `send`
of the upstream and the result that `_relay` returns are kept. -/
structure Relay where
  phase : RelayPhase := .opening
  counters : RelayCounters := {}
  activity : ℚ := 0
  client : RelayTask := .waiting
  upstream : RelayTask := .waiting
  watchdog : RelayTask := .waiting
  recorded : Bool := false
  calls : List ServiceWebSocketProxyResult := []
  sent : List RelayPayload := []
  returned : Option ServiceWebSocketProxyResult := none
  audits : List RelayAudit := []
  deriving DecidableEq, Repr

namespace Relay

def task (relay : Relay) : RelayParty → RelayTask
  | .client => relay.client
  | .upstream => relay.upstream
  | .watchdog => relay.watchdog

def setTask (relay : Relay) (task : RelayTask) : RelayParty → Relay
  | .client => { relay with client := task }
  | .upstream => { relay with upstream := task }
  | .watchdog => { relay with watchdog := task }

/-- The tasks run. -/
def running (relay : Relay) : Bool :=
  decide (relay.phase = .relaying ∨ relay.phase = .grace)

def allDone (relay : Relay) : Bool :=
  relay.client.done && relay.upstream.done && relay.watchdog.done

def anyDone (relay : Relay) : Bool :=
  relay.client.done || relay.upstream.done || relay.watchdog.done

/-- The results of the completed tasks. -/
def results (relay : Relay) : List ServiceWebSocketProxyResult :=
  [relay.client, relay.upstream, relay.watchdog].filterMap RelayTask.returned?

/-! ### What the coroutines do -/

/-- `finish`, with `record_result` as the callback -/
def finish (relay : Relay) (result : ServiceWebSocketProxyResult) : Relay :=
  if relay.recorded then
    relay
  else
    { relay with
      recorded := true
      calls := relay.calls ++ [result]
      audits := relay.audits ++ [recordResult result] }

/-- A task finishes and begins to close the peers. -/
def conclude (relay : Relay) (party : RelayParty) (outcome : RelayOutcome) (closeCode : ℤ)
    (reason : String) : Relay :=
  let result := relayResult outcome closeCode reason relay.counters
  (relay.finish result).setTask (.closing result) party

/-- `_client_to_upstream` after `receive` -/
def clientReceives (config : ServiceWebSocketProxyConfig) (relay : Relay) : ClientMessage → Relay
  | .disconnect code reason =>
      relay.conclude .client .clientClosed (GoblinKing.closeCode code 1000) (closeReason reason)
  | .receive text bytes =>
      match text.map RelayPayload.text <|> bytes.map RelayPayload.bytes with
      | none => relay
      | some payload =>
          if payloadSize payload > config.maxMessageBytes then
            relay.conclude .client .messageTooLarge 1009
              s!"message exceeds {config.maxMessageBytes} bytes"
          else
            { relay with
              client := .sending payload
              sent := relay.sent ++ [payload] }

/-- `_client_to_upstream` after `send` -/
def clientSent (relay : Relay) (payload : RelayPayload) (now : ℚ) : Relay :=
  { relay with
    client := .waiting
    counters.clientFrames := relay.counters.clientFrames + 1
    counters.clientBytes := relay.counters.clientBytes + payloadSize payload
    activity := now }

/-- `_upstream_to_client` after `send_text` or `send_bytes` -/
def upstreamSent (relay : Relay) (payload : RelayPayload) (now : ℚ) : Relay :=
  { relay with
    upstream := .waiting
    counters.upstreamFrames := relay.counters.upstreamFrames + 1
    counters.upstreamBytes := relay.counters.upstreamBytes + payloadSize payload
    activity := now }

/-- `_upstream_to_client` where `ConnectionClosed` is raised, with the close frame -/
def upstreamCloses (relay : Relay) (code : Option ℤ) (reason : Option String) : Relay :=
  relay.conclude .upstream .upstreamClosed (GoblinKing.closeCode code 1011) (closeReason reason)

/-- `_idle_watchdog` after `sleep` -/
def watchdogWakes (config : ServiceWebSocketProxyConfig) (relay : Relay) (now : ℚ) : Relay :=
  if now - relay.activity < config.idleTimeoutSeconds then
    relay
  else
    relay.conclude .watchdog .idleTimeout 1001 "managed service WebSocket idle timeout"

/-- A task when its close operations are over, of which one may have raised. Only the one after a
disconnect is not guarded. -/
def closes (relay : Relay) (party : RelayParty) (result : ServiceWebSocketProxyResult)
    (failed : Bool) : Relay :=
  relay.setTask (if failed ∧ result.outcome = .clientClosed then .raised else .returned result) party

/-- `_relay` after it has waited -/
def collect (relay : Relay) : Relay :=
  let relay := { relay with
    client := relay.client.cancel
    upstream := relay.upstream.cancel
    watchdog := relay.watchdog.cancel }
  match relay.results.argmax (fun result => result.outcome.priority) with
  | some result => { relay with phase := .leaving none, returned := some result }
  | none =>
      if relay.client = .raised ∨ relay.upstream = .raised ∨ relay.watchdog = .raised then
        { relay with phase := .leaving (some upstreamUnavailable) }
      else
        { relay with phase := .leaving (some ⟨1011, "relay failed"⟩) }

/-- The error branch of `proxy_service_websocket` -/
def fail (relay : Relay) (failure : RelayFailure) : Relay :=
  { relay with
    phase := .ended
    audits := relay.audits ++ [recordFailure failure] }

/-- The upstream connection is closed, or its closing raises. -/
def leave (relay : Relay) (failure : Option RelayFailure) (failed : Bool) : Relay :=
  if failed then
    relay.fail upstreamUnavailable
  else
    match failure with
    | some failure => relay.fail failure
    | none => { relay with phase := .ended }

end Relay

/-- What happens next. -/
inductive RelayAction where
  /-- the upstream connection is not opened -/
  | refused (error : OpeningError)
  | opened
  | accepted (now : ℚ)
  /-- the `accept` of the client raises -/
  | notAccepted
  | clientReceives (message : ClientMessage)
  | clientSent (now : ℚ)
  | upstreamReceives (payload : RelayPayload)
  | upstreamSent (now : ℚ)
  /-- an operation of the task raises `ConnectionClosed` -/
  | upstreamCloses (code : Option ℤ) (reason : Option String)
  | watchdogWakes (now : ℚ)
  /-- a receive or send operation raises -/
  | raises (party : RelayParty)
  /-- the close operations of a task are over -/
  | closes (party : RelayParty) (failed : Bool)
  /-- the relay goes on after the first task has completed -/
  | firstCompleted
  /-- the relay goes on after the grace period -/
  | graceOver
  /-- the upstream connection is closed at the end -/
  | leaves (failed : Bool)
  deriving DecidableEq, Repr

/-- One step of a relay. -/
def relayStep (config : ServiceWebSocketProxyConfig) (relay : Relay) : RelayAction → Option Relay
  | .refused error =>
      if relay.phase = .opening then some (relay.fail error.failure) else none
  | .opened =>
      if relay.phase = .opening then some { relay with phase := .accepting } else none
  | .accepted now =>
      if relay.phase = .accepting then
        some { relay with phase := .relaying, activity := now }
      else
        none
  | .notAccepted =>
      if relay.phase = .accepting then
        some { relay with phase := .leaving (some upstreamUnavailable) }
      else
        none
  | .clientReceives message =>
      if relay.running ∧ relay.client = .waiting then
        some (relay.clientReceives config message)
      else
        none
  | .clientSent now =>
      match relay.client with
      | .sending payload => if relay.running then some (relay.clientSent payload now) else none
      | _ => none
  | .upstreamReceives payload =>
      if relay.running ∧ relay.upstream = .waiting then
        some { relay with upstream := .sending payload }
      else
        none
  | .upstreamSent now =>
      match relay.upstream with
      | .sending payload => if relay.running then some (relay.upstreamSent payload now) else none
      | _ => none
  | .upstreamCloses code reason =>
      if relay.running ∧ relay.upstream.atWork then
        some (relay.upstreamCloses code reason)
      else
        none
  | .watchdogWakes now =>
      if relay.running ∧ relay.watchdog = .waiting then
        some (relay.watchdogWakes config now)
      else
        none
  | .raises party =>
      -- the watchdog does nothing but sleep
      if relay.running ∧ party ≠ .watchdog ∧ (relay.task party).atWork then
        some (relay.setTask .raised party)
      else
        none
  | .closes party failed =>
      match relay.task party with
      | .closing result =>
          if relay.running then some (relay.closes party result failed) else none
      | _ => none
  | .firstCompleted =>
      if relay.phase = .relaying ∧ relay.anyDone then
        some (if relay.allDone then relay.collect else { relay with phase := .grace })
      else
        none
  | .graceOver =>
      if relay.phase = .grace then some relay.collect else none
  | .leaves failed =>
      match relay.phase with
      | .leaving failure => some (relay.leave failure failed)
      | _ => none

end GoblinKing
