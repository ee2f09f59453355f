import GoblinKing.Api.RepositorySources
import GoblinKing.Api.Reads
import Mathlib.Logic.Function.Basic

/-!
# Live events

An event reaches a client on two ways: through the database, where the list endpoint filters by
project, and through the pub/sub channel, from which a WebSocket is sent every message. Emitting
an event persists and then publishes it; a cleanup may delete it before it has been sent.
-/

namespace GoblinKing

/-! ### The channel -/

/-- A WebSocket that has been accepted: its caller, and the messages of the channel that it has
not been sent yet. -/
structure Subscriber where
  principal : Principal
  queue : List EventRecord

/-- The event log, the events that are persisted and not yet published, and the open WebSockets;
and what no step reads: the events that cleanups have deleted. -/
structure LiveSystem where
  log : EventDb
  publishing : List EventRecord
  subscribers : ℕ → Option Subscriber
  deleted : List EventRecord

/-- A database that was just created, without WebSockets. -/
def LiveSystem.init : LiveSystem where
  log := .init
  publishing := []
  subscribers := fun _ => none
  deleted := []

/-- What can happen. -/
inductive LiveAction where
  /-- `EventBus.emit` by any component, up to the publication -/
  | emit (event : EventRecord) (after : Option Instant) (clock : Instant)
  /-- `_publish`, and whether Redis was there -/
  | publish (event : EventRecord) (available : Bool)
  /-- `stream_runs` up to the subscription, for a caller whose token is accepted -/
  | subscribe (connection : ℕ) (principal : Principal)
  /-- the loop of `stream_runs`: the next message is sent -/
  | send (connection : ℕ)
  /-- the end of `stream_runs` -/
  | close (connection : ℕ)
  /-- the deletion of events by `cleanup_runtime_rows` -/
  | cleanup (projectId : Option Id)
  /-- `ensure_schema_columns` -/
  | ensureSchema
  deriving DecidableEq

/-- A message of the channel is received. -/
def Subscriber.receive (event : EventRecord) (subscriber : Subscriber) : Subscriber :=
  { subscriber with queue := subscriber.queue ++ [event] }

/-- The next step. Redis hands a message to every WebSocket that has subscribed; whatever the
caller may see, it is sent. -/
def liveStep (σ : LiveSystem) : LiveAction → Option LiveSystem
  | .emit event after clock =>
      match emit σ.log event after clock with
      | .error _ => some σ
      | .ok (log, stored) =>
          some { σ with log := log, publishing := σ.publishing ++ [stored] }
  | .publish event available =>
      if event ∈ σ.publishing then
        some { σ with
          publishing := σ.publishing.erase event
          subscribers := if available then
            fun connection => (σ.subscribers connection).map (Subscriber.receive event)
          else
            σ.subscribers }
      else
        none
  | .subscribe connection principal =>
      match σ.subscribers connection with
      | some _ => none
      | none => some { σ with
          subscribers := Function.update σ.subscribers connection (some ⟨principal, []⟩) }
  | .send connection =>
      match σ.subscribers connection with
      | some ⟨principal, _ :: queue⟩ => some { σ with
          subscribers := Function.update σ.subscribers connection (some ⟨principal, queue⟩) }
      | _ => none
  | .close connection =>
      some { σ with subscribers := Function.update σ.subscribers connection none }
  | .cleanup projectId =>
      some { σ with
        log := cleanupEvents σ.log projectId
        deleted := σ.deleted ++ σ.log.events.table.select (fun event =>
          projectId.isNone || decide (event.projectId = projectId)) }
  | .ensureSchema =>
      match ensureEventSequences σ.log with
      | .error _ => some σ
      | .ok log => some { σ with log := log }

/-- The message that a step sends, and its receiver. -/
def LiveSystem.sends (σ : LiveSystem) : LiveAction → Option (Principal × EventRecord)
  | .send connection => (σ.subscribers connection).bind (fun subscriber =>
      subscriber.queue.head?.map (fun event => (subscriber.principal, event)))
  | _ => none

/-! ### The boundary -/

/-- The list endpoint returns an event to a caller who asks for a project, or for none. -/
def ListsEvent (settings : ApiSettings) (log : EventDb) (requested : Option Id)
    (principal : Principal) (event : EventRecord) : Prop :=
  ∃ query response, query.projectId = requested
    ∧ eventsResponse log.events settings principal query = .ok response ∧ event ∈ response.items

/-- What a step sends is listed to its receiver. -/
def SendsListed (settings : ApiSettings) (requested : Option Id) (σ : LiveSystem)
    (a : LiveAction) : Prop :=
  ∀ principal event, σ.sends a = some (principal, event) →
    ListsEvent settings σ.log requested principal event

/-- A caller may see the events of a project: the project that the request resolves to is one
that the caller may access, and it is this one, or none. -/
def seesProject (settings : ApiSettings) (requested : Option Id) (principal : Principal)
    (projectId : Option Id) : Bool :=
  principal.mayAccess (resolvedProject settings principal requested)
    && inScope (resolvedProject settings principal requested) projectId

/-- What a step sends is an event of a project that the receiver may see, and no cleanup has
deleted it. -/
def LiveSystem.keepsBoundary (settings : ApiSettings) (requested : Option Id) (σ : LiveSystem)
    (a : LiveAction) : Bool :=
  (σ.sends a).all (fun message => seesProject settings requested message.1 message.2.projectId
    && decide (message.2 ∉ σ.deleted))

section

variable {settings : ApiSettings} {requested : Option Id} {principal : Principal}
  {event : EventRecord} {σ τ : LiveSystem} {a : LiveAction}

/-- An event is listed when it is in the log, of a project that the caller may see. -/
theorem listsEvent_iff {log : EventDb} :
  ListsEvent settings log requested principal event
    ↔ event ∈ log.events.table.rows
      ∧ seesProject settings requested principal event.projectId = true
  := by
  rw [seesProject, Bool.and_eq_true]
  constructor
  · rintro ⟨query, response, rfl, h, hevent⟩
    obtain ⟨scope, hscope, h⟩ := Except.bind_eq_ok.mp h
    obtain ⟨hallowed, rfl⟩ := authorize_ok.mp hscope
    obtain rfl := Except.ok.inj h
    have hmem := (List.mem_insertionSort _).mp (PageQuery.mem_of_mem_page hevent)
    obtain ⟨hrow, hselects⟩ := List.mem_filter.mp hmem
    simp only [EventQuery.selects, Bool.and_eq_true] at hselects
    exact ⟨hrow, hallowed, hselects.1.1.1.1.1.1.1.2⟩
  · rintro ⟨hrow, hallowed, hscope⟩
    let query : EventQuery := { page := .default, projectId := requested }
    have hselected : event ∈ (log.events.table.select
        (query.selects (query.cursor log.events)
          (resolvedProject settings principal requested))).insertionSort
        (fun a b => a.sequence ≤ b.sequence) := by
      rw [List.mem_insertionSort, Table.select, List.mem_filter]
      refine ⟨hrow, ?_⟩
      simp only [EventQuery.selects, hscope]
      rfl
    obtain ⟨page, hpage⟩ := PageQuery.exists_mem_page hselected
    exact ⟨{ query with page := page }, _, rfl, Except.bind_eq_ok.mpr
      ⟨_, authorize_ok.mpr ⟨hallowed, rfl⟩, rfl⟩, hpage⟩

/-! ### Events in flight -/

/-- An event is on its way to some client. -/
def LiveSystem.InFlight (σ : LiveSystem) (event : EventRecord) : Prop :=
  event ∈ σ.publishing
    ∨ ∃ connection subscriber, σ.subscribers connection = some subscriber ∧ event ∈ subscriber.queue

/-- What every run keeps: the log is in order, it has none of the events that were deleted, and an
event in flight is in the log or was deleted. -/
structure LiveInvariant (σ : LiveSystem) : Prop where
  ordered : ∃ counter, σ.log.Ordered counter ∧ ∀ event ∈ σ.deleted, event.sequence ≤ counter
  apart : ∀ event ∈ σ.log.events.table.rows, event ∉ σ.deleted
  flight : ∀ event, σ.InFlight event → event ∈ σ.log.events.table.rows ∨ event ∈ σ.deleted

/-- Nothing is in flight before the first step. -/
theorem liveInvariant_init : LiveInvariant .init
  := by
  constructor
  · exact ⟨0, ordered_init, by simp [LiveSystem.init]⟩
  · intro event hevent
    cases hevent
  · rintro event (hevent | ⟨connection, subscriber, h, -⟩)
    · cases hevent
    · cases h

/-- A step that leaves the log keeps the invariant when it puts no event in flight. -/
theorem LiveInvariant.of_log (hσ : LiveInvariant σ) (hlog : τ.log = σ.log)
    (hdeleted : τ.deleted = σ.deleted) (hflight : ∀ event, τ.InFlight event → σ.InFlight event) :
  LiveInvariant τ
  := by
  constructor
  · rw [hlog, hdeleted]
    apply hσ.ordered
  · rw [hlog, hdeleted]
    apply hσ.apart
  · intro event hevent
    rw [hlog, hdeleted]
    apply hσ.flight event (hflight event hevent)

/-- Changing one WebSocket keeps the invariant when its messages were in flight. -/
theorem LiveInvariant.setSubscriber (hσ : LiveInvariant σ) (connection : ℕ)
    {subscriber : Option Subscriber}
    (hqueue : ∀ new ∈ subscriber, ∀ event ∈ new.queue, σ.InFlight event) :
  LiveInvariant { σ with subscribers := Function.update σ.subscribers connection subscriber }
  := by
  refine hσ.of_log rfl rfl ?_
  rintro flying (hflying | ⟨other, new, hnew, hflying⟩)
  · left
    apply hflying
  · simp only [Function.update_apply] at hnew
    split at hnew
    case isTrue => apply hqueue new hnew flying hflying
    case isFalse =>
      right
      exact ⟨other, new, hnew, hflying⟩

/-- Emitting an event keeps the invariant: the new event has a sequence that no event had. -/
theorem LiveInvariant.emit (hσ : LiveInvariant σ) {after : Option Instant} {clock : Instant}
    {log : EventDb} {stored : EventRecord}
    (h : GoblinKing.emit σ.log event after clock = .ok (log, stored)) :
  LiveInvariant { σ with log := log, publishing := σ.publishing ++ [stored] }
  := by
  obtain ⟨counter, hordered, hbounded⟩ := hσ.ordered
  obtain ⟨hordered', hrows, -⟩ := hordered.emit h
  have hsequence : stored.sequence = counter + 1 := (hordered.persist h).2
  constructor
  · use counter + 1, hordered'
    intro event hevent
    apply (hbounded event hevent).trans (Nat.le_succ counter)
  · intro row hrow hdeleted
    rw [hrows] at hrow
    rcases List.mem_append.mp hrow with hrow | hrow
    · apply hσ.apart row hrow hdeleted
    · obtain rfl := List.mem_singleton.mp hrow
      have hold := hbounded _ hdeleted
      omega
  · rintro flying (hflying | hflying)
    · rcases List.mem_append.mp hflying with hflying | hflying
      · apply (hσ.flight flying (.inl hflying)).imp_left
        intro hrow
        rw [hrows]
        apply List.mem_append_left _ hrow
      · left
        rw [hrows]
        apply List.mem_append_right _ hflying
    · apply (hσ.flight flying (.inr hflying)).imp_left
      intro hrow
      rw [hrows]
      apply List.mem_append_left _ hrow

/-- A cleanup keeps the invariant: what it deletes is remembered. -/
theorem LiveInvariant.cleanup (hσ : LiveInvariant σ) (projectId : Option Id) :
  LiveInvariant { σ with
    log := cleanupEvents σ.log projectId
    deleted := σ.deleted ++ σ.log.events.table.select (fun event =>
      projectId.isNone || decide (event.projectId = projectId)) }
  := by
  obtain ⟨counter, hordered, hbounded⟩ := hσ.ordered
  have hrows : ∀ event, event ∈ (cleanupEvents σ.log projectId).events.table.rows
      ↔ event ∈ σ.log.events.table.rows
        ∧ (projectId.isNone || decide (event.projectId = projectId)) = false :=
    fun event => Table.mem_delete
  constructor
  · use counter, hordered.cleanup projectId
    intro event hevent
    rcases List.mem_append.mp hevent with hevent | hevent
    · apply hbounded event hevent
    · apply hordered.rows.bounded event (List.mem_of_mem_filter hevent)
  · intro event hevent hdeleted
    obtain ⟨hrow, hspared⟩ := (hrows event).mp hevent
    rcases List.mem_append.mp hdeleted with hdeleted | hdeleted
    · apply hσ.apart event hrow hdeleted
    · rw [(List.mem_filter.mp hdeleted).2] at hspared
      cases hspared
  · intro event hevent
    rcases hσ.flight event hevent with hrow | hdeleted
    · cases hspared : (projectId.isNone || decide (event.projectId = projectId)) with
      | false =>
          left
          apply (hrows event).mpr ⟨hrow, hspared⟩
      | true =>
          right
          apply List.mem_append_right
          apply List.mem_filter.mpr ⟨hrow, hspared⟩
    · right
      apply List.mem_append_left _ hdeleted

/-- Every step keeps the invariant. -/
theorem LiveInvariant.step (hσ : LiveInvariant σ) (h : liveStep σ a = some τ) :
  LiveInvariant τ
  := by
  cases a with
  | emit event after clock =>
      rw [liveStep] at h
      split at h
      case h_1 =>
        obtain rfl := Option.some.inj h
        apply hσ
      case h_2 log stored hemit =>
        obtain rfl := Option.some.inj h
        apply hσ.emit hemit
  | publish event available =>
      rw [liveStep] at h
      split at h
      case isFalse => cases h
      case isTrue hpublishing =>
        obtain rfl := Option.some.inj h
        refine hσ.of_log rfl rfl ?_
        rintro flying (hflying | ⟨connection, subscriber, hsubscriber, hflying⟩)
        · left
          apply List.mem_of_mem_erase hflying
        · cases available with
          | false =>
              right
              exact ⟨connection, subscriber, hsubscriber, hflying⟩
          | true =>
              obtain ⟨old, hold, rfl⟩ := Option.map_eq_some_iff.mp hsubscriber
              rcases List.mem_append.mp hflying with hflying | hflying
              · right
                exact ⟨connection, old, hold, hflying⟩
              · obtain rfl := List.mem_singleton.mp hflying
                left
                apply hpublishing
  | subscribe connection principal =>
      rw [liveStep] at h
      split at h
      case h_1 => cases h
      case h_2 =>
        obtain rfl := Option.some.inj h
        apply hσ.setSubscriber connection
        rintro _ ⟨⟩ flying hflying
        cases hflying
  | send connection =>
      rw [liveStep] at h
      split at h
      case h_1 principal head queue hqueue =>
        obtain rfl := Option.some.inj h
        apply hσ.setSubscriber connection
        rintro _ ⟨⟩ flying hflying
        right
        exact ⟨connection, _, hqueue, List.mem_cons_of_mem head hflying⟩
      case h_2 => cases h
  | close connection =>
      obtain rfl := Option.some.inj h
      apply hσ.setSubscriber connection
      rintro _ ⟨⟩
  | cleanup projectId =>
      obtain rfl := Option.some.inj h
      apply hσ.cleanup projectId
  | ensureSchema =>
      obtain ⟨counter, hordered, -⟩ := hσ.ordered
      rw [liveStep, hordered.ensureEventSequences_eq] at h
      obtain rfl := Option.some.inj h
      apply hσ

/-- What a step sends is listed exactly when the receiver may see its project and it was not
deleted. -/
theorem sendsListed_iff (hσ : LiveInvariant σ) :
  SendsListed settings requested σ a ↔ σ.keepsBoundary settings requested a = true
  := by
  rw [SendsListed, LiveSystem.keepsBoundary, Option.all_eq_true]
  have hmessage : ∀ principal event, σ.sends a = some (principal, event) →
      (ListsEvent settings σ.log requested principal event
        ↔ (seesProject settings requested principal event.projectId
          && decide (event ∉ σ.deleted)) = true) := by
    intro principal event hsends
    have hflight : σ.InFlight event := by
      cases a with
      | send connection =>
          right
          obtain ⟨subscriber, hsubscriber, hhead⟩ := Option.bind_eq_some_iff.mp hsends
          obtain ⟨head, hfirst, hpair⟩ := Option.map_eq_some_iff.mp hhead
          obtain ⟨-, rfl⟩ := Prod.mk.inj hpair
          exact ⟨connection, subscriber, hsubscriber, List.mem_of_mem_head? hfirst⟩
      | emit _ _ _ | publish _ _ | subscribe _ _ | close _ | cleanup _ | ensureSchema => cases hsends
    have hkept : event ∈ σ.log.events.table.rows ↔ event ∉ σ.deleted :=
      ⟨hσ.apart event, fun hkept => (hσ.flight event hflight).resolve_right hkept⟩
    rw [listsEvent_iff, hkept, Bool.and_eq_true, decide_eq_true_eq, and_comm]
  constructor
  · rintro h ⟨principal, event⟩ hsends
    apply (hmessage principal event hsends).mp (h principal event hsends)
  · intro h principal event hsends
    apply (hmessage principal event hsends).mpr (h (principal, event) hsends)

end

/-- Along every run, what a WebSocket is sent is listed to the same caller, exactly when the caller
may see its project and no cleanup has deleted it. -/
theorem live_events_listed_iff (settings : ApiSettings) (requested : Option Id)
    (as : List LiveAction) :
  Transition.Along liveStep
    (fun σ a _ => SendsListed settings requested σ a
      ↔ σ.keepsBoundary settings requested a = true) .init as
  := by
  apply Transition.along_of_invariant (I := LiveInvariant) (P := fun _ _ _ => True)
  · intro σ a τ hσ _ hstep
    exact ⟨hσ.step hstep, sendsListed_iff hσ⟩
  · apply liveInvariant_init
  · apply Transition.along_true

/-- A member is connected while a component emits an event of another project. -/
def foreignEvent : EventRecord where
  id := "e"
  createdAt := 0
  eventType := "job.queued"
  projectId := some "team-b"

/-- The run up to the message. -/
def foreignEventSteps : List LiveAction :=
  [.subscribe 0 alice, .emit foreignEvent none 5,
    .publish { foreignEvent with sequence := 1, createdAt := 5 } true]

/-- A member is sent an event of another project, which the list endpoint does not return. -/
theorem foreign_event_sent :
  ¬∀ (settings : ApiSettings) (requested : Option Id) (as : List LiveAction),
    Transition.Along liveStep (fun σ a _ => SendsListed settings requested σ a) .init as
  := by
  intro h
  have hsent : (Transition.run liveStep .init foreignEventSteps).all (fun σ =>
      (σ.sends (.send 0)).any (fun message =>
        !seesProject .sample none message.1 message.2.projectId)) = true := by
    decide +kernel
  have hrun : (Transition.run liveStep .init (foreignEventSteps ++ [.send 0])).isSome = true := by
    decide +kernel
  obtain ⟨τ, hτ⟩ := Option.isSome_iff_exists.mp hrun
  obtain ⟨σ, hσ, -, hlisted⟩ := Transition.along_last (h .sample none _) hτ
  rw [hσ, Option.all_some] at hsent
  obtain ⟨⟨principal, event⟩, hsends, hforeign⟩ := (Option.any_eq_true _ _).mp hsent
  have hsees := (listsEvent_iff.mp (hlisted principal event hsends)).2
  rw [hsees] at hforeign
  cases hforeign

end GoblinKing
