import GoblinKing.Store.DeliveryLoss

/-!
# Recovery of the delivery

When a call succeeds that meets no fault. A call goes on from the cursor and the offset in its
row, or from the newest entry of the stream. Every event after the cursor must then be appended
under an identifier that the stream still accepts, or be found in the stream under its
identifier, unchanged. An event that was appended by a call that was rolled back, and has been
trimmed since, is neither.
-/

namespace GoblinKing

/-- The cursor and the offset from which the bootstrap goes on; `none` when it raises. -/
def bootstrapState (s : Delivery) (cursor : ℕ) : Option (ℕ × ℕ) :=
  match s.stream.xrevrange with
  | none => some (bootstrapEmpty s.log cursor, 0)
  | some entry =>
      match entry.payload.decoded with
      | .error _ => none
      | .ok (sequence, eventId) =>
          match eventId with
          | some eventId =>
              if sequence < 1 then
                some (bootstrapFrom cursor entry.id.main (sequenceOf s.log eventId))
              else
                some (bootstrapFrom cursor entry.id.main sequence.toNat)
          | none => some (bootstrapFrom cursor entry.id.main sequence.toNat)

/-- The cursor and the offset can be stored. -/
def storable (state : ℕ × ℕ) : Bool :=
  decide (state.1 < sqliteLimit) && decide (state.2 < sqliteLimit)

/-- The cursor and the offset from which a call goes on; `none` when it raises before. -/
def Delivery.resume (s : Delivery) : Option (ℕ × ℕ) :=
  let row := s.row.getD ⟨0, none⟩
  match row.streamIdOffset with
  | some offset => some (row.deliveredSequence, offset)
  | none => (bootstrapState s row.deliveredSequence).filter storable

/-- An event can be delivered at an offset: its identifier is accepted, or it is in the stream
under it, unchanged. -/
def deliverable (codec : EventCodec) (stream : EntryStream StreamPayload) (offset : ℕ)
    (event : EventRecord) : Bool :=
  let id := entryId (offset + event.sequence)
  codec.serializes event
    && (stream.accepts id
      || (decide ((stream.xrange id).map Entry.payload = some (.event event))
        && codec.comparesEqual event))

/-- A call goes on from a position after which every event up to the target can be
delivered. -/
def Delivery.recoverable (codec : EventCodec) (s : Delivery) (target : ℕ) : Bool :=
  match s.resume with
  | none => false
  | some (cursor, offset) =>
      (pendingEvents s.log cursor target).all (deliverable codec s.stream offset)

/-- The call under way meets no fault, and is over; `drops` is what each append trims. -/
inductive Finishes (codec : EventCodec) : (ℕ → ℕ) → Delivery → Delivery → Prop where
  | done {drops : ℕ → ℕ} {s : Delivery} (hcall : s.call = none) : Finishes codec drops s s
  | next {drops : ℕ → ℕ} {s t : Delivery} {call : DeliveryCall} (hcall : s.call = some call)
      (h : Finishes codec (fun i => drops (i + 1)) (s.next codec call (drops 0)) t) :
      Finishes codec drops s t

/-- The call under way meets no fault, and returns. -/
def Succeeds (codec : EventCodec) (drops : ℕ → ℕ) (s : Delivery) (returned : List ℕ) : Prop :=
  ∃ t, Finishes codec drops s t ∧ t.returned = returned

section

variable {codec : EventCodec} {drops : ℕ → ℕ} {s t : Delivery} {call : DeliveryCall}
  {returned : List ℕ} {counter target maxlen cursor offset : ℕ} {row : EventRecord}
  {rows : List EventRecord}

/-! ### Runs without faults -/

/-- A call succeeds when it does after its next operation. -/
theorem succeeds_next (hcall : s.call = some call) :
  Succeeds codec drops s returned
    ↔ Succeeds codec (fun i => drops (i + 1)) (s.next codec call (drops 0)) returned
  := by
  constructor
  · rintro ⟨t, hfinishes, hreturned⟩
    cases hfinishes with
    | done hnone => cases hcall.symm.trans hnone
    | next hcall' h =>
        obtain rfl := Option.some.inj (hcall.symm.trans hcall')
        exact ⟨t, h, hreturned⟩
  · rintro ⟨t, hfinishes, hreturned⟩
    exact ⟨t, Finishes.next hcall hfinishes, hreturned⟩

/-- When no call is under way, what was returned is what it is. -/
theorem succeeds_done (hcall : s.call = none) :
  Succeeds codec drops s returned ↔ s.returned = returned
  := by
  constructor
  · rintro ⟨t, hfinishes, hreturned⟩
    cases hfinishes with
    | done _ => apply hreturned
    | next hsome h => cases hcall.symm.trans hsome
  · intro hreturned
    exact ⟨s, Finishes.done hcall, hreturned⟩

/-- A call that raises does not succeed. -/
theorem not_succeeds_raise (n : ℕ) :
  ¬ Succeeds codec drops s.raise (n :: s.returned)
  := by
  rw [succeeds_done rfl]
  exact (List.cons_ne_self n s.returned).symm

/-- A call that is over without a fault is a run of the system. -/
theorem run_of_finishes (h : Finishes codec drops s t) :
  ∃ k, Transition.run (deliveryStep codec) s
    ((List.range k).map (fun i => DeliveryAction.next (drops i))) = some t
  := by
  induction h with
  | done hcall => exact ⟨0, rfl⟩
  | @next drops s t call hcall _ ih =>
      obtain ⟨k, hk⟩ := ih
      use k + 1
      rw [List.range_succ_eq_map, List.map_cons, List.map_map, Transition.run]
      simp only [deliveryStep, hcall, Option.bind_some]
      apply hk

/-- No call is under way when one is over. -/
theorem call_of_finishes (h : Finishes codec drops s t) :
  t.call = none
  := by
  induction h with
  | done hcall => apply hcall
  | next _ _ ih => apply ih

/-- A run of a call without a fault in which the call is over. -/
theorem finishes_of_run {k : ℕ} (h : Transition.run (deliveryStep codec) s
    ((List.range k).map (fun i => DeliveryAction.next (drops i))) = some t) (hcall : t.call = none) :
  Finishes codec drops s t
  := by
  induction k generalizing s drops with
  | zero =>
      obtain rfl := Option.some.inj h
      apply Finishes.done hcall
  | succ k ih =>
      rw [List.range_succ_eq_map, List.map_cons, List.map_map, Transition.run] at h
      cases hsome : s.call with
      | none => simp [deliveryStep, hsome] at h
      | some call =>
          simp only [deliveryStep, hsome, Option.bind_some] at h
          apply Finishes.next hsome
          apply ih h

/-! ### Events -/

/-- An event can be delivered after an append of an earlier one as it could before. -/
theorem deliverable_of_xadd {stream stream' : EntryStream StreamPayload} {payload : StreamPayload}
    {drop : ℕ} (h : stream.xadd (entryId (offset + row.sequence)) payload maxlen drop = some stream')
    {event : EventRecord} (hlt : row.sequence < event.sequence) :
  deliverable codec stream' offset event = deliverable codec stream offset event
  := by
  obtain ⟨hbefore, hafter⟩ := EntryStream.accepts_of_xadd h (Nat.add_lt_add_left hlt offset)
  have haccepts : stream'.accepts (entryId (offset + event.sequence))
      = stream.accepts (entryId (offset + event.sequence)) := by
    rw [Bool.eq_iff_iff, hbefore, hafter]
  by_cases hbound : offset + event.sequence < EntryStream.mainLimit
  · rw [deliverable, deliverable, haccepts, hbefore.mpr hbound]
    simp
  · have hnone : ∀ stream : EntryStream StreamPayload,
        stream.xrange (entryId (offset + event.sequence)) = none :=
      fun _ => EntryStream.xrange_eq_none hbound
    rw [deliverable, deliverable, haccepts, hnone, hnone]

/-- What remains to be delivered after the first event of a batch. -/
theorem all_pending_iff
    (hbatch : Batch s.log cursor target (row :: rows)) (p : EventRecord → Bool) :
  (∀ event ∈ pendingEvents s.log cursor target, p event = true)
    ↔ p row = true ∧ ∀ event ∈ pendingEvents s.log row.sequence target, p event = true
  := by
  obtain ⟨hmem, hcursor, htarget⟩ := hbatch.mem row List.mem_cons_self
  constructor
  · intro hall
    constructor
    · apply hall row (mem_pendingEvents.mpr ⟨hmem, hcursor, htarget⟩)
    · intro event hevent
      obtain ⟨hrow, hlt, hle⟩ := mem_pendingEvents.mp hevent
      apply hall event (mem_pendingEvents.mpr ⟨hrow, hcursor.trans hlt, hle⟩)
  · rintro ⟨hrow, hall⟩ event hevent
    obtain ⟨hevent', hlt, hle⟩ := mem_pendingEvents.mp hevent
    rcases le_or_gt event.sequence row.sequence with hbefore | hafter
    · rcases hbatch.le_head hevent' hbefore with rfl | hle'
      · apply hrow
      · cases not_lt.mpr hle' hlt
    · apply hall event (mem_pendingEvents.mpr ⟨hevent', hafter, hle⟩)

/-- A call stands in a phase of the delivery of the events of a log up to a target. -/
structure InPhase (s : Delivery) (log : EventDb) (target maxlen : ℕ) (returned : List ℕ)
    (phase : DeliveryPhase) : Prop where
  call : s.call = some ⟨target, maxlen, phase⟩
  log : s.log = log
  returned : s.returned = returned

/-- A call that is about to read a batch succeeds exactly when all pending events can be
delivered. -/
def QuerySucceeds (codec : EventCodec) (log : EventDb) (target maxlen : ℕ) (returned : List ℕ)
    (offset cursor : ℕ) : Prop :=
  ∀ (s : Delivery) (drops : ℕ → ℕ),
    InPhase s log target maxlen returned (.query cursor offset) →
      (Succeeds codec drops s (target :: returned)
        ↔ ∀ event ∈ pendingEvents log cursor target, deliverable codec s.stream offset event = true)

/-- A call that goes on in a phase stands in it. -/
theorem inPhase_goto {log : EventDb} {phase : DeliveryPhase} (phase' : DeliveryPhase)
    (h : InPhase s log target maxlen returned phase) :
  InPhase (s.goto ⟨target, maxlen, phase⟩ phase') log target maxlen returned phase'
  := ⟨rfl, h.log, h.returned⟩

/-- A call that is about to commit succeeds. -/
theorem succeeds_commit {log : EventDb}
    (h : InPhase s log target maxlen returned (.commit cursor offset)) :
  Succeeds codec drops s (target :: returned)
  := by
  rw [succeeds_next h.call]
  simp only [Delivery.next]
  rw [succeeds_done rfl, ← h.returned]

/-- A call that is in the middle of a batch succeeds exactly when all pending events can be
delivered; provided that it does when it reads a later batch. -/
theorem succeeds_append {log : EventDb} (hlog : log.Ordered counter) (start : ℕ)
    (hquery : ∀ cursor, start < cursor →
      QuerySucceeds codec log target maxlen returned offset cursor)
    (hbatch : Batch log cursor target rows) (hstart : rows = [] → start < cursor)
    (hle : start ≤ cursor) (h : InPhase s log target maxlen returned (.append cursor offset rows)) :
  Succeeds codec drops s (target :: returned)
    ↔ ∀ event ∈ pendingEvents log cursor target, deliverable codec s.stream offset event = true
  := by
  induction rows generalizing cursor s drops with
  | nil =>
      rw [succeeds_next h.call]
      apply hquery cursor (hstart rfl)
      apply inPhase_goto _ h
  | cons row rows ih =>
      obtain rfl := h.log
      have hlt : start < row.sequence :=
        lt_of_le_of_lt hle (hbatch.mem row List.mem_cons_self).2.1
      rw [succeeds_next h.call, all_pending_iff hbatch]
      simp only [Delivery.next, Delivery.append]
      cases hserializes : codec.serializes row with
      | false =>
          rw [if_neg (by simp), ← h.returned]
          simp [not_succeeds_raise, deliverable, hserializes]
      | true =>
          rw [if_pos rfl]
          cases hadd : s.stream.xadd (entryId (offset + row.sequence)) (.event row) maxlen
              (drops 0) with
          | some stream =>
              -- the event is appended
              have haccepts : s.stream.accepts (entryId (offset + row.sequence)) = true := by
                rw [← EntryStream.xadd_isSome, hadd]
                rfl
              have hrow : deliverable codec s.stream offset row = true := by
                simp [deliverable, hserializes, haccepts]
              dsimp only
              rw [ih hbatch.tail (fun _ => hlt) hlt.le]
              swap
              · exact ⟨rfl, rfl, h.returned⟩
              constructor
              · intro hall
                use hrow
                intro event hevent
                rw [← deliverable_of_xadd hadd (mem_pendingEvents.mp hevent).2.1]
                apply hall event hevent
              · rintro ⟨-, hall⟩ event hevent
                dsimp only
                rw [deliverable_of_xadd hadd (mem_pendingEvents.mp hevent).2.1]
                apply hall event hevent
          | none =>
              -- the append is rejected
              have haccepts : s.stream.accepts (entryId (offset + row.sequence)) = false := by
                rw [← EntryStream.xadd_isSome, hadd]
                rfl
              have hreplay := inPhase_goto (.replay offset row rows) h
              rw [succeeds_next hreplay.call]
              simp only [Delivery.next, Delivery.replay]
              cases hentry : s.stream.xrange (entryId (offset + row.sequence)) with
              | none =>
                  simp only [Delivery.goto, hentry, ← h.returned]
                  rw [iff_false_left (not_succeeds_raise target)]
                  simp [deliverable, haccepts, hentry]
              | some entry =>
                  simp only [Delivery.goto, hentry]
                  split
                  case isTrue hsame =>
                    have hrow : deliverable codec s.stream offset row = true := by
                      simp [deliverable, hserializes, hentry, hsame.1, hsame.2]
                    rw [ih hbatch.tail (fun _ => hlt) hlt.le]
                    swap
                    · exact ⟨rfl, rfl, h.returned⟩
                    simp [hrow]
                  case isFalse hdiffers =>
                    have hrow : deliverable codec s.stream offset row = false := by
                      simp only [not_and, Bool.not_eq_true] at hdiffers
                      simp only [deliverable, haccepts, hentry, Option.map_some, Option.some.injEq,
                        Bool.false_or, Bool.and_eq_false_iff, decide_eq_false_iff_not]
                      right
                      by_cases hpayload : entry.payload = .event row
                      · right
                        apply hdiffers hpayload
                      · left
                        apply hpayload
                    rw [← h.returned, iff_false_left (not_succeeds_raise target)]
                    simp [hrow]

/-- A call that is about to read a batch succeeds exactly when all pending events can be
delivered. -/
theorem succeeds_query {log : EventDb} (hlog : log.Ordered counter) (cursor : ℕ) :
  QuerySucceeds codec log target maxlen returned offset cursor
  := by
  -- every batch brings the cursor closer to the target
  induction hdistance : target - cursor using Nat.strong_induction_on generalizing cursor with
  | _ distance ih =>
      intro s drops h
      obtain rfl := h.log
      rw [succeeds_next h.call]
      simp only [Delivery.next]
      split
      case isTrue hlt =>
        have hbatch := batch_take hlog cursor target maxDeliveryBatch
        split
        case h_1 hnone =>
          have hempty : pendingEvents s.log cursor target = [] := by
            rcases List.take_eq_nil_iff.mp hnone with hzero | hempty
            · cases hzero
            · apply hempty
          rw [hempty]
          simp [succeeds_commit (inPhase_goto _ h)]
        case h_2 row rows hrows =>
          rw [hrows] at hbatch
          apply succeeds_append hlog cursor _ hbatch (by simp) (le_refl cursor)
            (inPhase_goto _ h)
          intro cursor' hcursor'
          apply ih (target - cursor') (by omega) cursor' rfl
      case isFalse hge =>
        have hempty : pendingEvents s.log cursor target = [] := by
          rw [List.eq_nil_iff_forall_not_mem]
          intro event hevent
          obtain ⟨-, hlt, hle⟩ := mem_pendingEvents.mp hevent
          omega
        rw [hempty]
        simp [succeeds_commit (inPhase_goto _ h)]

/-- A call that ends its bootstrap succeeds exactly when the state can be stored, and all
pending events can be delivered from there. -/
theorem succeeds_bootstrap {log : EventDb} (hlog : log.Ordered counter) {phase : DeliveryPhase}
    (h : InPhase s log target maxlen returned phase) (state : ℕ × ℕ) :
  Succeeds codec drops (s.bootstrap ⟨target, maxlen, phase⟩ state) (target :: returned)
    ↔ storable state = true ∧ ∀ event ∈ pendingEvents log state.1 target,
      deliverable codec s.stream state.2 event = true
  := by
  rw [Delivery.bootstrap]
  split
  case isTrue hstorable =>
    have hphase : QuerySucceeds codec log target maxlen returned state.2 state.1 :=
      succeeds_query hlog state.1
    have hquery := hphase
      { s with
        call := some ⟨target, maxlen, .query state.1 state.2⟩
        bootstrapped := if s.appended = [] then state.1 else s.bootstrapped } drops
      ⟨rfl, h.log, h.returned⟩
    rw [hquery]
    simp [storable, hstorable]
  case isFalse hstorable =>
    rw [← h.returned, iff_false_left (not_succeeds_raise target)]
    simp only [storable, Bool.and_eq_true, decide_eq_true_eq]
    tauto

/-- A call that bootstraps succeeds exactly when the bootstrap leads to a state that can be
stored, and all pending events can be delivered from there. -/
theorem succeeds_bootstrapState {log : EventDb} (hlog : log.Ordered counter)
    (h : InPhase s log target maxlen returned (.bootstrap cursor)) :
  Succeeds codec drops s (target :: returned)
    ↔ ∃ state, bootstrapState s cursor = some state ∧ storable state = true
      ∧ ∀ event ∈ pendingEvents log state.1 target,
        deliverable codec s.stream state.2 event = true
  := by
  obtain rfl := h.log
  rw [succeeds_next h.call]
  simp only [Delivery.next, bootstrapState]
  cases hentry : s.stream.xrevrange with
  | none =>
      have hfirst := inPhase_goto (.first cursor) h
      dsimp only
      rw [succeeds_next hfirst.call]
      simp only [Delivery.next, Option.some.injEq, exists_eq_left']
      apply succeeds_bootstrap hlog hfirst
  | some entry =>
      simp only [Delivery.bootstrapEntry]
      cases hdecoded : entry.payload.decoded with
      | error error =>
          simp only [← h.returned, iff_false_left (not_succeeds_raise target)]
          simp
      | ok decoded =>
          obtain ⟨sequence, eventId⟩ := decoded
          cases eventId with
          | none =>
              simp only [Option.some.injEq, exists_eq_left']
              apply succeeds_bootstrap hlog h
          | some eventId =>
              dsimp only
              by_cases hsequence : sequence < 1
              · have hlookup := inPhase_goto (.lookup cursor entry.id.main eventId) h
                rw [if_pos hsequence, if_pos hsequence, succeeds_next hlookup.call]
                simp only [Delivery.next, Option.some.injEq, exists_eq_left']
                apply succeeds_bootstrap hlog hlookup
              · rw [if_neg hsequence, if_neg hsequence]
                simp only [Option.some.injEq, exists_eq_left']
                apply succeeds_bootstrap hlog h

/-- A call succeeds exactly when it is recoverable. -/
theorem succeeds_select {log : EventDb} (hlog : log.Ordered counter)
    (h : InPhase s log target maxlen returned .select) :
  Succeeds codec drops s (target :: returned) ↔ s.recoverable codec target = true
  := by
  obtain rfl := h.log
  rw [succeeds_next h.call]
  simp only [Delivery.next, Delivery.recoverable, Delivery.resume]
  cases hoffset : (s.row.getD ⟨0, none⟩).streamIdOffset with
  | some offset =>
      dsimp only
      rw [succeeds_query hlog _ _ _ (inPhase_goto _ h), List.all_eq_true]
      rfl
  | none =>
      dsimp only
      rw [succeeds_bootstrapState hlog (inPhase_goto _ h)]
      have hsame : bootstrapState (s.goto ⟨target, maxlen, .select⟩
          (.bootstrap (s.row.getD ⟨0, none⟩).deliveredSequence))
            (s.row.getD ⟨0, none⟩).deliveredSequence
          = bootstrapState s (s.row.getD ⟨0, none⟩).deliveredSequence := rfl
      rw [hsame]
      cases hstate : bootstrapState s (s.row.getD ⟨0, none⟩).deliveredSequence with
      | none => simp
      | some state =>
          simp only [Option.some.injEq, exists_eq_left', Option.filter_some]
          cases hstorable : storable state with
          | false => simp
          | true =>
              rw [if_pos rfl]
              simp only [List.all_eq_true, true_and]
              rfl

/-- A call that meets no fault returns, whatever is trimmed, exactly when it is recoverable. -/
theorem returns_iff_recoverable (hlog : s.log.Ordered counter) (hidle : s.call = none)
    (htarget : s.log.counter.any (fun counter => target ≤ counter) = true) :
  (∃ k t, Transition.run (deliveryStep codec) s
      (.call target maxlen :: (List.range k).map (fun i => .next (drops i))) = some t
    ∧ t.call = none ∧ t.returned = target :: s.returned)
    ↔ s.recoverable codec target = true
  := by
  have hbegin : deliveryStep codec s (.call target maxlen)
      = some { s with call := some ⟨target, maxlen, .select⟩ } := by
    simp only [deliveryStep, hidle]
    rw [if_pos htarget]
  have hselect : Succeeds codec drops { s with call := some ⟨target, maxlen, .select⟩ }
      (target :: s.returned) ↔ s.recoverable codec target = true :=
    succeeds_select hlog ⟨rfl, rfl, rfl⟩
  simp only [Transition.run, hbegin, Option.bind_some]
  apply Iff.trans _ hselect
  constructor
  · rintro ⟨k, t, hrun, hcall, hreturned⟩
    exact ⟨t, finishes_of_run hrun hcall, hreturned⟩
  · rintro ⟨t, hfinishes, hreturned⟩
    obtain ⟨k, hrun⟩ := run_of_finishes hfinishes
    exact ⟨k, t, hrun, call_of_finishes hfinishes, hreturned⟩

/-- The event log is ordered in every state that is reached. -/
theorem ordered_of_reaches_delivery {stream : EntryStream StreamPayload}
    (h : Transition.Reaches (deliveryStep codec) (.start stream) s) :
  ∃ counter, s.log.Ordered counter
  := by
  obtain ⟨counter, hs⟩ : ∃ counter, DeliveryInvariant stream s counter := by
    apply h.invariant (I := fun s => ∃ counter, DeliveryInvariant stream s counter)
    · rintro s action t ⟨counter, hs⟩ - hstep
      apply hs.step hstep
    · exact ⟨0, deliveryInvariant_start stream⟩
  use counter
  apply hs.kept.ordered

end

/-- From every state that is reached in which no call is under way, whatever the stream held at
the start: a call through the sequence of a persisted event that meets no fault returns,
whatever is trimmed, exactly when every event after the position from which it goes on can be
delivered. -/
theorem stream_delivery_recovers (codec : EventCodec) (stream : EntryStream StreamPayload)
    {s : Delivery} (h : Transition.Reaches (deliveryStep codec) (.start stream) s)
    (hidle : s.call = none) {target : ℕ}
    (htarget : s.log.counter.any (fun counter => target ≤ counter) = true) (maxlen : ℕ)
    (drops : ℕ → ℕ) :
  (∃ k t, Transition.run (deliveryStep codec) s
      (.call target maxlen :: (List.range k).map (fun i => .next (drops i))) = some t
    ∧ t.call = none ∧ t.returned = target :: s.returned)
    ↔ s.recoverable codec target = true
  := by
  obtain ⟨counter, hlog⟩ := ordered_of_reaches_delivery h
  apply returns_iff_recoverable hlog hidle htarget

/-- A stream that was never used. -/
def emptyStream : EntryStream StreamPayload where
  entries := []
  top := entryId 0

/-- The first event is delivered; then two more are persisted. -/
def deliverOne : List DeliveryAction :=
  [.write (.persist { id := "e1", createdAt := 10, eventType := "a" }), .call 1 1] ++
    List.replicate 8 (.next 0) ++
    [.write (.persist { id := "e2", createdAt := 20, eventType := "b" }),
      .write (.persist { id := "e3", createdAt := 30, eventType := "c" })]

/-- The events that are left are delivered. -/
theorem stream_delivery_recovers_one :
  ∃ s, Transition.run (deliveryStep plainCodec) (.start emptyStream) deliverOne = some s
    ∧ ∃ k t, Transition.run (deliveryStep plainCodec) s
        (.call 3 1 :: (List.range k).map (fun _ => .next 1)) = some t
      ∧ t.call = none ∧ t.returned = 3 :: s.returned
  := by
  have hrun : (Transition.run (deliveryStep plainCodec) (.start emptyStream) deliverOne).map
      (fun s => (s.call, s.log.counter, s.recoverable plainCodec 3)) = some (none, some 3, true) := by
    decide +kernel
  obtain ⟨s, hs, hstate⟩ := Option.map_eq_some_iff.mp hrun
  obtain ⟨hidle, hstate⟩ := Prod.mk.inj hstate
  obtain ⟨hcounter, hrecoverable⟩ := Prod.mk.inj hstate
  refine ⟨s, hs, ?_⟩
  apply (stream_delivery_recovers plainCodec emptyStream (Transition.reaches_of_run hs) hidle
    (by simp [hcounter]) 1 (fun _ => 1)).mpr hrecoverable

/-- The call that delivers them appends both, which trims the stream to its newest entry, and
is rolled back before it commits. -/
def rollBack : List DeliveryAction :=
  deliverOne ++ [.call 3 1, .next 0, .next 0, .next 1, .next 1, .fail]

/-- After a call was rolled back whose entries were trimmed, no call through the newest
sequence returns. -/
theorem trimmed_delivery_is_stuck :
  ¬ ∀ (codec : EventCodec) (stream : EntryStream StreamPayload) (s : Delivery),
    Transition.Reaches (deliveryStep codec) (.start stream) s → s.call = none →
      ∀ (target maxlen : ℕ) (drops : ℕ → ℕ), s.log.counter = some target →
        ∃ k t, Transition.run (deliveryStep codec) s
            (.call target maxlen :: (List.range k).map (fun i => .next (drops i))) = some t
          ∧ t.call = none ∧ t.returned = target :: s.returned
  := by
  intro h
  have hrun : (Transition.run (deliveryStep plainCodec) (.start emptyStream) rollBack).map
      (fun s => (s.call, s.log.counter, s.recoverable plainCodec 3))
        = some (none, some 3, false) := by
    decide +kernel
  obtain ⟨s, hs, hstate⟩ := Option.map_eq_some_iff.mp hrun
  obtain ⟨hidle, hstate⟩ := Prod.mk.inj hstate
  obtain ⟨hcounter, hrecoverable⟩ := Prod.mk.inj hstate
  have hreaches := Transition.reaches_of_run hs
  obtain ⟨counter, hlog⟩ := ordered_of_reaches_delivery hreaches
  have hreturns := h plainCodec emptyStream s hreaches hidle 3 1 (fun _ => 0) hcounter
  have htrue : s.recoverable plainCodec 3 = true :=
    (returns_iff_recoverable hlog hidle (by simp [hcounter])).mp hreturns
  rw [hrecoverable] at htrue
  cases htrue

end GoblinKing
