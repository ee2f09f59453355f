import GoblinKing.Library.Transition
import Mathlib.Data.List.Nodup
import Mathlib.Data.Int.Notation

/-!
# Draining the websockets of a replaced service

The registry of relays of one service: relays register and unregister, and when the service is
replaced a drain waits until they have left, or closes them after a timeout, and then runs the
callback that retires the old runtime. Three coroutines can decide to run the callback, the last
relay that unregisters, the drain itself and its timeout task. They claim it under a lock.

No section under the lock awaits. The lock is therefore free whenever a coroutine runs, taking it
does not suspend, and a section is one step.
-/

namespace GoblinKing

/-- The identity of a websocket object. -/
abbrev WebSocket := ℕ

/-- `_DrainState`. The callback `retire` is named by the number of the drain that it was passed
to, and the timeout task by its position among the tasks. -/
structure DrainState where
  connections : List WebSocket := []
  retire : Option ℕ := none
  callbackStarted : Bool := false
  timeoutTask : Option ℕ := none
  deriving DecidableEq, Repr

/-- Where a coroutine is suspended. -/
inductive DrainTask where
  /-- `_force_drain` in its sleep, perhaps cancelled there -/
  | sleeping (cancelled : Bool)
  /-- `_force_drain` closes the websockets, with the callback of a drain claimed -/
  | closing (drain : ℕ)
  /-- `unregister` awaits the timeout task, with the callback of a drain claimed -/
  | awaiting (drain timeoutTask : ℕ)
  /-- `_retire` is in the callback of a drain -/
  | retiring (drain : ℕ)
  | ended
  deriving DecidableEq, Repr

/-- The registry as seen from one service, whose state is the entry of `_states`, and the tasks.
The relays are those that will still unregister. The drains that took effect are counted, and it
is recorded which of them timed out, and whose callback was started and has finished. -/
structure DrainRegistry where
  state : Option DrainState := none
  tasks : List DrainTask := []
  relays : List WebSocket := []
  drains : ℕ := 0
  timedOut : List ℕ := []
  started : List ℕ := []
  finished : List ℕ := []
  deriving DecidableEq, Repr

namespace DrainRegistry

/-- `register`: the new registry, and whether the relay was accepted. -/
def register (registry : DrainRegistry) (websocket : WebSocket) : DrainRegistry × Bool :=
  let state := registry.state.getD {}
  if state.retire.isSome then
    ({ registry with state := some state }, false)
  else
    ({ registry with
        state := some { state with connections := state.connections.insert websocket }
        relays := registry.relays.insert websocket }, true)

/-- A task that was created, or a coroutine of another task that is suspended for the first
time. -/
def spawn (registry : DrainRegistry) (task : DrainTask) : DrainRegistry :=
  { registry with tasks := registry.tasks ++ [task] }

/-- A task that is suspended in another place, or has ended. -/
def suspend (registry : DrainRegistry) (task : ℕ) (place : DrainTask) : DrainRegistry :=
  { registry with tasks := registry.tasks.set task place }

/-- The callback of a drain is called. -/
def start (registry : DrainRegistry) (drain : ℕ) : DrainRegistry :=
  { registry with started := registry.started ++ [drain] }

/-- `Task.cancel`. A callback that is cancelled ends, which it can do at any time. -/
def cancelTask (registry : DrainRegistry) (task : ℕ) : DrainRegistry :=
  match registry.tasks[task]? with
  | some (.sleeping _) => registry.suspend task (.sleeping true)
  | some (.closing _) => registry.suspend task .ended
  | _ => registry

/-- `unregister` up to where it is suspended. -/
def unregister (registry : DrainRegistry) (websocket : WebSocket) : DrainRegistry :=
  let registry := { registry with relays := registry.relays.filter (· ≠ websocket) }
  match registry.state with
  | none => registry
  | some state =>
      let state := { state with connections := state.connections.filter (· ≠ websocket) }
      if state.connections.isEmpty ∧ state.retire.isNone then
        { registry with state := none }
      else if state.connections.isEmpty ∧ ¬state.callbackStarted then
        match state.retire, state.timeoutTask with
        | none, _ => { registry with state := some state }
        | some drain, none =>
            ({ registry with state := some { state with callbackStarted := true } }.start
              drain).spawn (.retiring drain)
        | some drain, some task =>
            ({ registry with state := some { state with callbackStarted := true } }.cancelTask
              task).spawn (.awaiting drain task)
      else
        { registry with state := some state }

/-- `drain` up to where it is suspended. -/
def drain (registry : DrainRegistry) : DrainRegistry :=
  let state := registry.state.getD {}
  if state.retire.isSome then
    { registry with state := some state }
  else
    let state := { state with retire := some registry.drains }
    if state.connections.isEmpty then
      ({ registry with
          state := some { state with callbackStarted := true }
          drains := registry.drains + 1 }.start registry.drains).spawn (.retiring registry.drains)
    else
      { registry with
          state := some { state with timeoutTask := some registry.tasks.length }
          drains := registry.drains + 1 }.spawn (.sleeping false)

/-- `_force_drain` after its sleep. -/
def forceDrain (registry : DrainRegistry) (task : ℕ) : DrainRegistry :=
  match registry.state with
  | none => registry.suspend task .ended
  | some state =>
      match state.callbackStarted, state.retire with
      | false, some drain =>
          { registry with
              state := some { state with callbackStarted := true }
              timedOut := registry.timedOut ++ [drain] }.suspend task (.closing drain)
      | _, _ => registry.suspend task .ended

/-- The beginning of `_retire` in a task. -/
def retire (registry : DrainRegistry) (task drain : ℕ) : DrainRegistry :=
  (registry.start drain).suspend task (.retiring drain)

/-- The end of `_retire`, when the callback returns or raises. -/
def endRetire (registry : DrainRegistry) (task drain : ℕ) : DrainRegistry :=
  { registry with state := none, finished := registry.finished ++ [drain] }.suspend task .ended

end DrainRegistry

/-- What happens next: a call, or a task goes on or is cancelled. -/
inductive DrainAction where
  | register (websocket : WebSocket)
  | unregister (websocket : WebSocket)
  /-- an unregister is cancelled before it holds the lock -/
  | abandon (websocket : WebSocket)
  | drain
  /-- the sleep of a timeout task is over -/
  | timeout (task : ℕ)
  /-- a timeout task that was cancelled ends -/
  | stop (task : ℕ)
  /-- the websockets are closed -/
  | closed (task : ℕ)
  /-- an unregister goes on when the timeout task has ended -/
  | resume (task : ℕ)
  /-- a callback returns or raises, perhaps since its task was cancelled -/
  | finish (task : ℕ)
  /-- an unregister is cancelled where it awaits the timeout task -/
  | cancel (task : ℕ)
  deriving DecidableEq, Repr

/-- An unregister is cancelled between its claim of the callback and the call. -/
def DrainAction.cancelsClaim : DrainAction → Bool
  | .cancel _ => true
  | _ => false

/-- One step of the registry and its tasks. -/
def drainStep (registry : DrainRegistry) : DrainAction → Option DrainRegistry
  | .register websocket => some (registry.register websocket).1
  | .unregister websocket => some (registry.unregister websocket)
  | .abandon websocket =>
      some { registry with relays := registry.relays.filter (· ≠ websocket) }
  | .drain => some registry.drain
  | .timeout task =>
      match registry.tasks[task]? with
      | some (.sleeping false) => some (registry.forceDrain task)
      | _ => none
  | .stop task =>
      match registry.tasks[task]? with
      | some (.sleeping true) => some (registry.suspend task .ended)
      | _ => none
  | .closed task =>
      match registry.tasks[task]? with
      | some (.closing drain) => some (registry.retire task drain)
      | _ => none
  | .resume task =>
      match registry.tasks[task]? with
      | some (.awaiting drain timeoutTask) =>
          if registry.tasks[timeoutTask]? = some .ended then
            some (registry.retire task drain)
          else
            none
      | _ => none
  | .finish task =>
      match registry.tasks[task]? with
      | some (.retiring drain) => some (registry.endRetire task drain)
      | _ => none
  | .cancel task =>
      match registry.tasks[task]? with
      | some (.awaiting _ _) => some (registry.suspend task .ended)
      | _ => none

end GoblinKing
