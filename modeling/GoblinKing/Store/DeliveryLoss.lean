import GoblinKing.Store.DeliveryOrder

/-!
# Completeness of the delivery

When a call returns, every event up to its target has been in the stream, unless a bootstrap
has skipped it. The bootstrap goes on after the sequence that it reads from the newest entry;
it does not ask whether the entry is one of this database, nor whether the events before it
were ever appended.
-/

namespace GoblinKing

/-- An event has been in the stream: it was appended, it was there at the start, or it is known
to have been there in the past. -/
def Delivery.known (past : Id → Bool) (stream : EntryStream StreamPayload) (s : Delivery)
    (event : EventRecord) : Bool :=
  past event.id || decide (event ∈ s.appended.map Entry.payload)
    || decide (StreamPayload.event event ∈ stream.entries.map Entry.payload)

/-- The sequence that is taken over from the newest entry is one that the database has
assigned, and all events up to it have been in the stream. -/
def trustsOwnEvents (past : Id → Bool) (stream : EntryStream StreamPayload) (s : Delivery)
    (action : DeliveryAction) : Bool :=
  match s.call, action with
  | some call, .next _ | some call, .lost _ =>
      decide (call.phase.trusted s ≤ s.log.counter.getD 0)
        && s.log.events.table.rows.all (fun event =>
          decide (call.phase.trusted s < event.sequence) || s.known past stream event)
  | _, _ => true

/-- The cursor of the bootstrap skips no event that has not been in the stream. -/
structure SkipsNothing (past : Id → Bool) (stream : EntryStream StreamPayload) (s : Delivery) :
    Prop where
  known : ∀ event ∈ s.log.events.table.rows, event.sequence ≤ s.bootstrapped →
    s.known past stream event = true
  assigned : s.bootstrapped ≤ s.log.counter.getD 0

section

variable {codec : EventCodec} {past : Id → Bool} {stream : EntryStream StreamPayload}
  {s t : Delivery} {counter drop : ℕ} {call : DeliveryCall} {event : EventRecord}

/-- A delivered event has been in the stream. -/
theorem known_of_delivered (h : Delivered stream s.appended event) :
  s.known past stream event = true
  := by
  rcases h with h | h
  · simp [Delivery.known, h]
  · simp [Delivery.known, h]

/-- An event that has been in the stream stays so when nothing that was appended is
forgotten. -/
theorem known_of_subset (h : s.known past stream event = true)
    (hsubset : ∀ a ∈ s.appended, a ∈ t.appended) :
  t.known past stream event = true
  := by
  simp only [Delivery.known, Bool.or_eq_true, decide_eq_true_eq] at h ⊢
  rcases h with (h | h) | h
  · left
    left
    apply h
  · left
    right
    obtain ⟨a, ha, heq⟩ := List.mem_map.mp h
    apply List.mem_map.mpr ⟨a, hsubset a ha, heq⟩
  · right
    apply h

/-- The cursor after an operation skips nothing when the sequence that is taken over is
trusted. -/
theorem SkipsNothing.next (h : SkipsNothing past stream s)
    (hinvariant : DeliveryInvariant stream s counter) (hcall : s.call = some call)
    (htrusted : call.phase.trusted s ≤ s.log.counter.getD 0
      ∧ ∀ event ∈ s.log.events.table.rows, event.sequence ≤ call.phase.trusted s →
        s.known past stream event = true) :
  SkipsNothing past stream (s.next codec call drop)
  := by
  have hkept := hinvariant.kept
  have hcounter : s.log.counter.getD 0 = counter := by
    rw [hkept.ordered.counted, Option.getD_some]
  have heffect := deliveryEffect_next codec s call drop
  have hsound := (hinvariant.call call hcall).2
  generalize s.next codec call drop = t at heffect
  cases heffect with
  | quiet hsame hreturned =>
      constructor
      · rw [hsame.log, hsame.bootstrapped]
        intro event hevent hle
        apply known_of_subset (h.known event hevent hle)
        rw [hsame.appended]
        exact fun _ ha => ha
      · rw [hsame.log, hsame.bootstrapped]
        apply h.assigned
  | bootstrap offset =>
      obtain ⟨hlog, happended, -, hcursor⟩ := bootstrap_frame s call
        (max call.phase.startCursor (call.phase.trusted s), offset)
      -- the bootstrap starts with the cursor 0
      have hstart : max call.phase.startCursor (call.phase.trusted s) = call.phase.trusted s := by
        rw [max_eq_right]
        cases hphase : call.phase with
        | bootstrap cursor =>
            rw [hphase] at hsound
            rw [DeliveryPhase.startCursor, hsound.2]
            apply Nat.zero_le
        | first cursor =>
            rw [hphase] at hsound
            rw [DeliveryPhase.startCursor, hsound.2]
            apply Nat.zero_le
        | lookup cursor lastMilliseconds eventId =>
            rw [hphase] at hsound
            rw [DeliveryPhase.startCursor, hsound.2.1]
            apply Nat.zero_le
        | _ => apply Nat.zero_le
      have hsubset : ∀ a ∈ s.appended, a ∈ (s.bootstrap call
          (max call.phase.startCursor (call.phase.trusted s), offset)).appended := by
        rw [happended]
        exact fun _ ha => ha
      rw [hstart] at hcursor hsubset hlog ⊢
      constructor
      · intro event hevent hle
        rw [hlog] at hevent
        apply known_of_subset (s := s) _ hsubset
        rcases hcursor with hcursor | hcursor
        · rw [hcursor] at hle
          apply h.known event hevent hle
        · rw [hcursor] at hle
          apply htrusted.2 event hevent hle
      · rw [hlog]
        rcases hcursor with hcursor | hcursor
        · rw [hcursor]
          apply h.assigned
        · rw [hcursor]
          apply htrusted.1
  | @empty cursor hphase =>
      rw [hphase] at hsound
      obtain ⟨-, rfl⟩ := hsound
      obtain ⟨hbelow, hbounded⟩ := hkept.bootstrapEmpty_lt
      obtain ⟨hlog, happended, -, hcursor⟩ := bootstrap_frame s call (bootstrapEmpty s.log 0, 0)
      constructor
      · intro event hevent hle
        rw [hlog] at hevent
        apply known_of_subset (s := s)
        · rcases hcursor with hcursor | hcursor
          · rw [hcursor] at hle
            apply h.known event hevent hle
          · rw [hcursor] at hle
            cases not_lt.mpr hle (hbelow event hevent)
        · rw [happended]
          exact fun _ ha => ha
      · rw [hlog]
        rcases hcursor with hcursor | hcursor
        · rw [hcursor]
          apply h.assigned
        · rw [hcursor, hcounter]
          apply hbounded
  | append hphase =>
      constructor
      · intro event hevent hle
        apply known_of_subset (h.known event hevent hle)
        intro a ha
        apply List.mem_cons_of_mem _ ha
      · apply h.assigned
  | commit hphase => exact ⟨h.known, h.assigned⟩

/-- A step skips nothing when the sequence that it takes over is trusted. -/
theorem SkipsNothing.step (h : SkipsNothing past stream s)
    (hinvariant : DeliveryInvariant stream s counter) {action : DeliveryAction}
    (htrusts : trustsOwnEvents past stream s action = true)
    (hstep : deliveryStep codec s action = some t) :
  SkipsNothing past stream t
  := by
  have htrusted : ∀ call, s.call = some call → (∃ drop, action = .next drop ∨ action = .lost drop) →
      call.phase.trusted s ≤ s.log.counter.getD 0
        ∧ ∀ event ∈ s.log.events.table.rows, event.sequence ≤ call.phase.trusted s →
          s.known past stream event = true := by
    rintro call hcall ⟨drop, rfl | rfl⟩
    all_goals
      simp only [trustsOwnEvents, hcall, Bool.and_eq_true, decide_eq_true_eq, List.all_eq_true,
        Bool.or_eq_true] at htrusts
      use htrusts.1
      intro event hevent hle
      rcases htrusts.2 event hevent with hlt | hknown
      · cases not_lt.mpr hle hlt
      · apply hknown
  cases deliveryStep_cases hstep with
  | write hcall hwrite =>
      obtain ⟨counter', hordered, hle, hrows⟩ := hinvariant.kept.ordered.step hwrite
      have hassigned := h.assigned
      rw [hinvariant.kept.ordered.counted, Option.getD_some] at hassigned
      constructor
      · intro event hevent hbase
        rcases hrows event hevent with hold | hnew
        · apply h.known event hold hbase
        · dsimp only at hbase
          omega
      · dsimp only
        rw [hordered.counted, Option.getD_some]
        omega
  | call | fail => exact ⟨h.known, h.assigned⟩
  | next hcall => apply h.next hinvariant hcall (htrusted _ hcall ⟨_, .inl rfl⟩)
  | @lost call drop hcall =>
      have hnext : SkipsNothing past stream (s.next codec call drop) :=
        h.next hinvariant hcall (htrusted call hcall ⟨drop, .inr rfl⟩)
      exact ⟨hnext.known, hnext.assigned⟩

/-- A call that returns is committed. -/
theorem commit_of_returned {action : DeliveryAction} (h : deliveryStep codec s action = some t)
    {n : ℕ} (hreturned : t.returned = n :: s.returned) :
  ∃ call cursor offset, s.call = some call ∧ call.phase = .commit cursor offset
    ∧ call.target = n ∧ t.log = s.log ∧ t.appended = s.appended
  := by
  have hne : s.returned ≠ n :: s.returned := (List.cons_ne_self n s.returned).symm
  cases deliveryStep_cases h with
  | write | call | lost | fail => cases hne hreturned
  | @next call drop hcall =>
      generalize hnext : s.next codec call drop = t at hreturned ⊢
      have heffect := deliveryEffect_next codec s call drop
      rw [hnext] at heffect
      cases heffect with
      | quiet hsame hsameReturned =>
          rw [hsameReturned] at hreturned
          cases hne hreturned
      | bootstrap offset =>
          rw [(bootstrap_frame s call _).2.2.1] at hreturned
          cases hne hreturned
      | empty hphase =>
          rw [(bootstrap_frame s call _).2.2.1] at hreturned
          cases hne hreturned
      | append hphase => cases hne hreturned
      | commit hphase =>
          obtain ⟨rfl, -⟩ := List.cons.inj hreturned
          exact ⟨call, _, _, hcall, hphase, rfl, rfl, rfl⟩

/-- When a call returns, every event up to its target has been in the stream. -/
theorem known_of_returned (h : SkipsNothing past stream s)
    (hinvariant : DeliveryInvariant stream s counter) {action : DeliveryAction}
    (hstep : deliveryStep codec s action = some t) {n : ℕ} (hreturned : t.returned = n :: s.returned) :
  ∀ event ∈ t.log.events.table.rows, event.sequence ≤ n → t.known past stream event = true
  := by
  obtain ⟨call, cursor, offset, hcall, hphase, rfl, hlog, happended⟩ :=
    commit_of_returned hstep hreturned
  obtain ⟨-, hsound⟩ := hinvariant.call call hcall
  rw [hphase] at hsound
  obtain ⟨hposition, htarget⟩ := hsound
  rw [hlog]
  intro event hevent hle
  apply known_of_subset (s := s)
  · rcases le_or_gt event.sequence s.bootstrapped with hbase | hbase
    · apply h.known event hevent hbase
    · apply known_of_delivered (hposition.covered event hevent hbase (hle.trans htarget))
  · rw [happended]
    exact fun _ ha => ha

end

/-- Along every run in which each sequence that is taken over from the newest entry of the
stream is one that the database has assigned, with all events up to it in the stream before,
every event up to the target of a call that returns has been in the stream. -/
theorem stream_delivery_complete (codec : EventCodec) (past : Id → Bool)
    (stream : EntryStream StreamPayload) (actions : List DeliveryAction)
    (h : Transition.Along (deliveryStep codec)
      (fun s a _ => trustsOwnEvents past stream s a = true) (.start stream) actions) :
  Transition.Along (deliveryStep codec)
    (fun s _ t => ∀ n, t.returned = n :: s.returned →
      ∀ event ∈ t.log.events.table.rows, event.sequence ≤ n → t.known past stream event = true)
    (.start stream) actions
  := by
  apply Transition.along_of_invariant
    (I := fun s => ∃ counter, DeliveryInvariant stream s counter ∧ SkipsNothing past stream s) _ _ h
  · rintro s action t ⟨counter, hs, hskips⟩ htrusts hstep
    obtain ⟨counter', ht⟩ := hs.step hstep
    refine ⟨⟨counter', ht, hskips.step hs htrusts hstep⟩, ?_⟩
    intro n hreturned
    apply known_of_returned hskips hs hstep hreturned
  · refine ⟨0, deliveryInvariant_start stream, ?_, Nat.zero_le _⟩
    intro event hevent
    cases hevent

/-- Payloads that are serialized and read again unchanged. -/
def plainCodec : EventCodec where
  serializes := fun _ => true
  comparesEqual := fun _ => true

/-- A stream that holds an earlier entry of the database: its first event. -/
def ownStream : EntryStream StreamPayload where
  entries := [⟨entryId 1, .event { id := "e1", sequence := 1, createdAt := 10, eventType := "a" }⟩]
  top := entryId 1

/-- Two events are persisted, and delivered in one call. -/
def deliverTwo : List DeliveryAction :=
  [.write (.persist { id := "e1", createdAt := 10, eventType := "a" }),
    .write (.persist { id := "e2", createdAt := 20, eventType := "b" }), .call 2 1000, .next 0,
    .next 0, .next 0, .next 0, .next 0, .next 0, .next 0]

/-- A database that goes on from its own entry delivers all of its events. -/
theorem stream_delivery_complete_own :
  Transition.Along (deliveryStep plainCodec)
      (fun s _ t => ∀ n, t.returned = n :: s.returned → ∀ event ∈ t.log.events.table.rows,
        event.sequence ≤ n → t.known (fun _ => false) ownStream event = true)
      (.start ownStream) deliverTwo
    ∧ (Transition.run (deliveryStep plainCodec) (.start ownStream) deliverTwo).map
      (fun t => t.returned) = some [2]
  := by
  constructor
  · apply stream_delivery_complete
    have hrun : (Transition.runUnder (deliveryStep plainCodec)
        (trustsOwnEvents (fun _ => false) ownStream) (.start ownStream) deliverTwo).isSome
          = true := by
      decide +kernel
    obtain ⟨t, ht⟩ := Option.isSome_iff_exists.mp hrun
    apply Transition.along_of_runUnder ht
  · decide +kernel

/-- A stream that another database has left: its hundredth event. -/
def foreignStream : EntryStream StreamPayload where
  entries := [⟨entryId 100,
    .event { id := "f100", sequence := 100, createdAt := 5, eventType := "c" }⟩]
  top := entryId 100

/-- The first event is persisted, and a call through its sequence is made. -/
def deliverFirst : List DeliveryAction :=
  [.write (.persist { id := "e1", createdAt := 10, eventType := "a" }), .call 1 1000, .next 0,
    .next 0, .next 0]

/-- A call returns after it has skipped an event, because the stream holds a higher sequence
of another database. -/
theorem foreign_entry_skips_event :
  ¬ Transition.Along (deliveryStep plainCodec)
    (fun s _ t => ∀ n, t.returned = n :: s.returned → ∀ event ∈ t.log.events.table.rows,
      event.sequence ≤ n → t.known (fun _ => false) foreignStream event = true)
    (.start foreignStream) (deliverFirst ++ [.next 0])
  := by
  intro h
  have hrun : (Transition.run (deliveryStep plainCodec) (.start foreignStream)
      (deliverFirst ++ [.next 0])).map (fun t => (t.returned,
        t.log.events.table.rows.map (fun event =>
          (event.sequence, t.known (fun _ => false) foreignStream event))))
      = some ([1], [(1, false)]) := by
    decide +kernel
  have hbefore : (Transition.run (deliveryStep plainCodec) (.start foreignStream)
      deliverFirst).map (fun t => t.returned) = some [] := by
    decide +kernel
  obtain ⟨t, ht, hstate⟩ := Option.map_eq_some_iff.mp hrun
  obtain ⟨s, hs, -, hcomplete⟩ := Transition.along_last h ht
  rw [hs] at hbefore
  obtain ⟨hreturned, hrows⟩ := Prod.mk.inj hstate
  have hempty : s.returned = [] := Option.some.inj hbefore
  have hcomplete := hcomplete 1 (by rw [hreturned, hempty])
  obtain ⟨event, hevent, heq⟩ := List.mem_map.mp (hrows ▸ List.mem_singleton_self (1, false))
  obtain ⟨hsequence, hknown⟩ := Prod.mk.inj heq
  rw [hcomplete event hevent hsequence.le] at hknown
  cases hknown

end GoblinKing
