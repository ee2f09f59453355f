import GoblinKing.Store.Delivery

/-!
# Order of the delivery

The events that the calls append are in the stream in the order of their sequences, each at
most once, and none before an earlier event that is still there. Redis takes in no identifier
that is not above all others; so the order of the identifiers is given, and the order of the
sequences follows as long as the offset between the two never grows. A call that has no offset
takes that of the newest entry, which is the one appended last.
-/

namespace GoblinKing

/-- An event is in the stream, or has been: it was appended, or was there at the start. -/
def Delivered (stream : EntryStream StreamPayload) (appended : List (Entry EventRecord))
    (event : EventRecord) : Prop :=
  event ∈ appended.map Entry.payload ∨ .event event ∈ stream.entries.map Entry.payload

/-- A later entry is after an earlier one, and has no greater offset. -/
def LaterThan (later earlier : Entry EventRecord) : Prop :=
  earlier.id < later.id ∧ earlier.payload.sequence < later.payload.sequence
    ∧ EntryId.main later.id + earlier.payload.sequence
      ≤ EntryId.main earlier.id + later.payload.sequence

/-- A cursor and an offset from which events can be appended. -/
structure Position (stream : EntryStream StreamPayload) (s : Delivery)
    (counter cursor offset : ℕ) : Prop where
  offset_le : ∀ a ∈ s.appended, offset + a.payload.sequence ≤ EntryId.main a.id
  covered : ∀ event ∈ s.log.events.table.rows, s.bootstrapped < event.sequence →
    event.sequence ≤ cursor → Delivered stream s.appended event
  bounded : cursor ≤ max s.bootstrapped counter
  row : ∀ row, s.row = some row → row.streamIdOffset = some offset

/-- The rest of a batch: the next events after the cursor. -/
structure Batch (log : EventDb) (cursor target : ℕ) (rows : List EventRecord) : Prop where
  sorted : rows.Pairwise (fun a b => a.sequence < b.sequence)
  mem : ∀ event ∈ rows, event ∈ log.events.table.rows ∧ cursor < event.sequence
    ∧ event.sequence ≤ target
  complete : ∀ event ∈ log.events.table.rows, cursor < event.sequence →
    event.sequence ≤ target → event ∈ rows ∨ ∀ r ∈ rows, r.sequence < event.sequence

/-- What a call relies on in each phase. -/
def DeliveryPhase.Sound (stream : EntryStream StreamPayload) (s : Delivery)
    (counter target : ℕ) : DeliveryPhase → Prop
  | .select => True
  | .bootstrap cursor => s.row = none ∧ cursor = 0
  | .first cursor => s.row = none ∧ cursor = 0
  | .lookup cursor _ _ => s.row = none ∧ cursor = 0 ∧ s.appended = []
  | .query cursor offset => Position stream s counter cursor offset
  | .append cursor offset rows =>
      Position stream s counter cursor offset ∧ Batch s.log cursor target rows
  | .replay offset row rows => ∃ cursor, Position stream s counter cursor offset
      ∧ Batch s.log cursor target (row :: rows)
  | .commit cursor offset => Position stream s counter cursor offset ∧ target ≤ cursor

/-- What holds between the steps, whether a call is under way or not. -/
structure DeliveryKept (stream : EntryStream StreamPayload) (s : Delivery) (counter : ℕ) :
    Prop where
  ordered : s.log.Ordered counter
  entries : ∀ entry ∈ s.stream.entries, entry ∈ stream.entries
    ∨ ∃ a ∈ s.appended, entry.payload = .event a.payload
  newest : ∀ a rest, s.appended = a :: rest → s.stream.top = a.id
    ∧ ∀ entry, s.stream.xrevrange = some entry → entry = ⟨a.id, .event a.payload⟩
  ids : ∀ a ∈ s.appended, a.id = entryId (EntryId.main a.id)
  sequences : ∀ a ∈ s.appended, 0 < a.payload.sequence
    ∧ a.payload.sequence ≤ EntryId.main a.id ∧ a.payload.sequence ≤ counter
  later : s.appended.Pairwise LaterThan
  covered : ∀ a ∈ s.appended, ∀ event ∈ s.log.events.table.rows,
    s.bootstrapped < event.sequence → event.sequence ≤ a.payload.sequence →
      Delivered stream s.appended event
  row : ∀ row, s.row = some row → ∃ offset, row.streamIdOffset = some offset
    ∧ Position stream s counter row.deliveredSequence offset

/-- The invariant of the delivery. -/
structure DeliveryInvariant (stream : EntryStream StreamPayload) (s : Delivery) (counter : ℕ) :
    Prop where
  kept : DeliveryKept stream s counter
  call : ∀ call, s.call = some call → call.target ≤ counter
    ∧ call.phase.Sound stream s counter call.target

section

variable {codec : EventCodec} {stream : EntryStream StreamPayload} {s t : Delivery}
  {counter cursor offset target : ℕ} {call : DeliveryCall} {row : EventRecord}
  {rows : List EventRecord}

/-! ### Batches -/

/-- The pending events are those after the cursor up to the target. -/
theorem mem_pendingEvents {log : EventDb} {event : EventRecord} :
  event ∈ pendingEvents log cursor target ↔ event ∈ log.events.table.rows
    ∧ cursor < event.sequence ∧ event.sequence ≤ target
  := by
  simp [pendingEvents]

/-- The pending events are in the order of their sequences. -/
theorem sorted_pendingEvents {log : EventDb} (h : log.Ordered counter) (cursor target : ℕ) :
  (pendingEvents log cursor target).Pairwise (fun a b => a.sequence < b.sequence)
  := by
  have hrows : (log.events.table.rows.filter (fun event =>
      decide (cursor < event.sequence) && decide (event.sequence ≤ target))).Pairwise
        (fun a b => a.sequence < b.sequence) := by
    apply List.Pairwise.sublist List.filter_sublist
    apply h.rows.increasing.imp
    intro a b hab
    apply hab.1
  rw [pendingEvents, List.Pairwise.insertionSort_eq (hrows.imp (fun hab => le_of_lt hab))]
  apply hrows

/-- The first of the pending events are a batch. -/
theorem batch_take {log : EventDb} (h : log.Ordered counter) (cursor target n : ℕ) :
  Batch log cursor target ((pendingEvents log cursor target).take n)
  := by
  have hsorted := sorted_pendingEvents h cursor target
  constructor
  · apply hsorted.sublist (List.take_sublist _ _)
  · intro event hevent
    apply mem_pendingEvents.mp (List.mem_of_mem_take hevent)
  · intro event hrow hcursor htarget
    have hpending : event ∈ pendingEvents log cursor target :=
      mem_pendingEvents.mpr ⟨hrow, hcursor, htarget⟩
    rw [← List.take_append_drop n (pendingEvents log cursor target)] at hpending hsorted
    apply (List.mem_append.mp hpending).imp_right
    intro hdrop r hr
    apply (List.pairwise_append.mp hsorted).2.2 r hr event hdrop

/-- The events after the first one of a batch are a batch after it. -/
theorem Batch.tail (h : Batch s.log cursor target (row :: rows)) :
  Batch s.log row.sequence target rows
  := by
  have hpairs := List.pairwise_cons.mp h.sorted
  constructor
  · apply hpairs.2
  · intro event hevent
    obtain ⟨hrow, -, htarget⟩ := h.mem event (List.mem_cons_of_mem row hevent)
    exact ⟨hrow, hpairs.1 event hevent, htarget⟩
  · intro event hrow hcursor htarget
    have hlt := (h.mem row List.mem_cons_self).2.1
    rcases h.complete event hrow (hlt.trans hcursor) htarget with hmem | hafter
    · rcases List.mem_cons.mp hmem with rfl | hmem
      · cases lt_irrefl _ hcursor
      · left
        apply hmem
    · right
      intro r hr
      apply hafter r (List.mem_cons_of_mem row hr)

/-- An event up to the first one of a batch is that one, or is up to the cursor. -/
theorem Batch.le_head (h : Batch s.log cursor target (row :: rows)) {event : EventRecord}
    (hrow : event ∈ s.log.events.table.rows) (hle : event.sequence ≤ row.sequence) :
  event = row ∨ event.sequence ≤ cursor
  := by
  rcases le_or_gt event.sequence cursor with hcursor | hcursor
  · right
    apply hcursor
  · left
    have htarget := (h.mem row List.mem_cons_self).2.2
    rcases h.complete event hrow hcursor (hle.trans htarget) with hmem | hafter
    · rcases List.mem_cons.mp hmem with heq | hmem
      · apply heq
      · cases not_lt.mpr hle ((List.pairwise_cons.mp h.sorted).1 event hmem)
    · cases not_lt.mpr hle (hafter row List.mem_cons_self)

/-! ### Frames -/

/-- Two states agree on all but the call under way and what was returned. -/
structure SameDelivery (s t : Delivery) : Prop where
  log : t.log = s.log
  row : t.row = s.row
  stream : t.stream = s.stream
  appended : t.appended = s.appended
  bootstrapped : t.bootstrapped = s.bootstrapped

/-- A position depends on neither the call nor what was returned. -/
theorem Position.of_same (h : Position stream s counter cursor offset) (hst : SameDelivery s t) :
  Position stream t counter cursor offset
  := by
  constructor
  · rw [hst.appended]
    apply h.offset_le
  · rw [hst.log, hst.bootstrapped, hst.appended]
    apply h.covered
  · rw [hst.bootstrapped]
    apply h.bounded
  · rw [hst.row]
    apply h.row

/-- What is kept depends on neither the call nor what was returned. -/
theorem DeliveryKept.of_same (h : DeliveryKept stream s counter) (hst : SameDelivery s t) :
  DeliveryKept stream t counter
  := by
  constructor
  · rw [hst.log]
    apply h.ordered
  · rw [hst.stream, hst.appended]
    apply h.entries
  · rw [hst.stream, hst.appended]
    apply h.newest
  · rw [hst.appended]
    apply h.ids
  · rw [hst.appended]
    apply h.sequences
  · rw [hst.appended]
    apply h.later
  · rw [hst.appended, hst.log, hst.bootstrapped]
    apply h.covered
  · intro row hrow
    rw [hst.row] at hrow
    obtain ⟨offset, hoffset, hposition⟩ := h.row row hrow
    exact ⟨offset, hoffset, hposition.of_same hst⟩

/-- A call that raises keeps the invariant. -/
theorem DeliveryKept.raise (h : DeliveryKept stream s counter) :
  DeliveryInvariant stream s.raise counter
  := by
  constructor
  · exact h.of_same ⟨rfl, rfl, rfl, rfl, rfl⟩
  · intro call hcall
    cases hcall

/-- A call that goes on in a phase with what the phase relies on keeps the invariant. -/
theorem DeliveryKept.goto (h : DeliveryKept stream s counter) (htarget : call.target ≤ counter)
    {phase : DeliveryPhase} (hphase : phase.Sound stream (s.goto call phase) counter call.target) :
  DeliveryInvariant stream (s.goto call phase) counter
  := by
  constructor
  · exact h.of_same ⟨rfl, rfl, rfl, rfl, rfl⟩
  · intro call' hcall
    obtain rfl := Option.some.inj hcall
    exact ⟨htarget, hphase⟩

/-- Going on in a phase changes nothing else. -/
theorem same_goto (s : Delivery) (call : DeliveryCall) (phase : DeliveryPhase) :
  SameDelivery s (s.goto call phase)
  := ⟨rfl, rfl, rfl, rfl, rfl⟩

/-! ### Bootstrap -/

/-- The bootstrap keeps the invariant when it goes on from a position after what was
appended, if anything was. -/
theorem DeliveryKept.bootstrap (h : DeliveryKept stream s counter) (htarget : call.target ≤ counter)
    (hrow : s.row = none) {state : ℕ × ℕ}
    (hstate : s.appended ≠ [] → Position stream s counter state.1 state.2) :
  DeliveryInvariant stream (s.bootstrap call state) counter
  := by
  rw [Delivery.bootstrap]
  split
  case isFalse => apply h.raise
  case isTrue =>
    by_cases happended : s.appended = []
    · -- nothing was appended: the events are delivered from the new cursor on
      rw [if_pos happended]
      constructor
      · constructor
        · apply h.ordered
        · apply h.entries
        · apply h.newest
        · apply h.ids
        · apply h.sequences
        · apply h.later
        · intro a ha
          dsimp only at ha
          rw [happended] at ha
          cases ha
        · intro row hsome
          cases hrow.symm.trans hsome
      · intro call' hcall
        obtain rfl := Option.some.inj hcall
        use htarget
        constructor
        · intro a ha
          dsimp only at ha
          rw [happended] at ha
          cases ha
        · intro event _ hlt hle
          cases not_lt.mpr hle hlt
        · apply le_max_left
        · intro row hsome
          cases hrow.symm.trans hsome
    · rw [if_neg happended]
      constructor
      · exact h.of_same ⟨rfl, rfl, rfl, rfl, rfl⟩
      · intro call' hcall
        obtain rfl := Option.some.inj hcall
        exact ⟨htarget, (hstate happended).of_same ⟨rfl, rfl, rfl, rfl, rfl⟩⟩

/-- The newest entry that was appended gives a position. -/
theorem DeliveryKept.position_of_newest (h : DeliveryKept stream s counter) (hrow : s.row = none)
    {a : Entry EventRecord} {rest : List (Entry EventRecord)} (ha : s.appended = a :: rest) :
  Position stream s counter a.payload.sequence
    (EntryId.main a.id - a.payload.sequence)
  := by
  have hmem : a ∈ s.appended := by
    rw [ha]
    apply List.mem_cons_self
  obtain ⟨-, hmain, hcounter⟩ := h.sequences a hmem
  constructor
  · intro b hb
    rw [ha] at hb
    rcases List.mem_cons.mp hb with rfl | hb
    · omega
    · have hlater := h.later
      rw [ha] at hlater
      have hle := ((List.pairwise_cons.mp hlater).1 b hb).2.2
      omega
  · apply h.covered a hmem
  · apply hcounter.trans
    apply le_max_right
  · intro row hsome
    cases hrow.symm.trans hsome

/-- The bootstrap with the newest entry keeps the invariant. -/
theorem DeliveryKept.bootstrapEntry (h : DeliveryKept stream s counter)
    (htarget : call.target ≤ counter) (hrow : s.row = none) {entry : Entry StreamPayload}
    (hentry : s.stream.xrevrange = some entry) :
  DeliveryInvariant stream (s.bootstrapEntry call 0 entry) counter
  := by
  cases happended : s.appended with
  | nil =>
      have hposition : ∀ state : ℕ × ℕ,
          s.appended ≠ [] → Position stream s counter state.1 state.2 :=
        fun _ hne => absurd happended hne
      rw [Delivery.bootstrapEntry]
      split
      · apply h.raise
      · split
        · split
          · apply h.goto htarget
            exact ⟨hrow, rfl, happended⟩
          · apply h.bootstrap htarget hrow (hposition _)
        · apply h.bootstrap htarget hrow (hposition _)
  | cons a rest =>
      -- the newest entry is the one appended last, and its sequence is that of an event
      obtain rfl := (h.newest a rest happended).2 entry hentry
      have hmem : a ∈ s.appended := by
        rw [happended]
        apply List.mem_cons_self
      obtain ⟨hpositive, -, -⟩ := h.sequences a hmem
      have hseq : ¬ (a.payload.sequence : ℤ) < 1 := by omega
      have hstate : bootstrapFrom 0 (EntryId.main a.id) (a.payload.sequence : ℤ).toNat
          = (a.payload.sequence, EntryId.main a.id - a.payload.sequence) := by
        rw [bootstrapFrom, Int.toNat_natCast, if_neg (by omega), Nat.zero_max]
      simp only [Delivery.bootstrapEntry, StreamPayload.decoded, hseq, if_false, hstate]
      apply h.bootstrap htarget hrow
      intro _
      apply h.position_of_newest hrow happended

/-- The cursor that goes on from an empty stream is below all events, and has been
assigned. -/
theorem DeliveryKept.bootstrapEmpty_lt (h : DeliveryKept stream s counter) :
  (∀ event ∈ s.log.events.table.rows, bootstrapEmpty s.log 0 < event.sequence)
    ∧ bootstrapEmpty s.log 0 ≤ counter
  := by
  rw [bootstrapEmpty]
  constructor
  · intro event hevent
    have hpositive := h.ordered.positive event hevent
    split
    · omega
    case h_2 first hfirst =>
      have hle := (List.min?_eq_some_iff.mp hfirst).2 _ (List.mem_map_of_mem hevent)
      split
      · omega
      · rw [Nat.zero_max]
        omega
  · split
    · apply Nat.zero_le
    case h_2 first hfirst =>
      obtain ⟨event, hevent, hsequence⟩ := List.mem_map.mp (List.min?_mem hfirst)
      have hle := h.ordered.rows.bounded event hevent
      split
      · apply Nat.zero_le
      · rw [Nat.zero_max]
        omega

/-- The bootstrap with an empty stream keeps the invariant. -/
theorem DeliveryKept.bootstrapEmpty (h : DeliveryKept stream s counter)
    (htarget : call.target ≤ counter) (hrow : s.row = none) :
  DeliveryInvariant stream (s.bootstrap call (GoblinKing.bootstrapEmpty s.log 0, 0)) counter
  := by
  apply h.bootstrap htarget hrow
  intro _
  obtain ⟨hbelow, hbounded⟩ := h.bootstrapEmpty_lt
  constructor
  · intro a ha
    rw [Nat.zero_add]
    apply (h.sequences a ha).2.1
  · intro event hevent _ hle
    cases not_lt.mpr hle (hbelow event hevent)
  · apply hbounded.trans
    apply le_max_right
  · intro row hsome
    cases hrow.symm.trans hsome

/-! ### Batches of events -/

/-- The events of the next batch are read, or there are none up to the target. -/
theorem DeliveryKept.query (h : DeliveryKept stream s counter) (htarget : call.target ≤ counter)
    (hphase : call.phase = .query cursor offset) (hposition : Position stream s counter cursor offset)
    (drop : ℕ) :
  DeliveryInvariant stream (s.next codec call drop) counter
  := by
  simp only [Delivery.next, hphase]
  split
  case isTrue hlt =>
    have hbatch := batch_take h.ordered cursor call.target maxDeliveryBatch
    split
    case h_1 hnone =>
      -- no event is left between the cursor and the target
      rw [hnone] at hbatch
      have hposition' : Position stream s counter call.target offset := by
        refine { hposition with covered := ?_, bounded := htarget.trans (le_max_right _ _) }
        intro event hrow hbase hle
        rcases le_or_gt event.sequence cursor with hcursor | hcursor
        · apply hposition.covered event hrow hbase hcursor
        · have hpending : event ∈ pendingEvents s.log cursor call.target :=
            mem_pendingEvents.mpr ⟨hrow, hcursor, hle⟩
          have hempty : pendingEvents s.log cursor call.target = [] := by
            rcases List.take_eq_nil_iff.mp hnone with hzero | hempty
            · cases hzero
            · apply hempty
          rw [hempty] at hpending
          cases hpending
      apply h.goto htarget
      exact ⟨hposition'.of_same (same_goto _ _ _), le_refl _⟩
    case h_2 row rows hrows =>
      rw [hrows] at hbatch
      apply h.goto htarget
      exact ⟨hposition.of_same (same_goto _ _ _), hbatch⟩
  case isFalse hge =>
    apply h.goto htarget
    exact ⟨hposition.of_same (same_goto _ _ _), not_lt.mp hge⟩

/-- The position after an event that was delivered. -/
theorem Position.advance (h : Position stream s counter cursor offset) (hcounter : target ≤ counter)
    (hbatch : Batch s.log cursor target (row :: rows))
    (hrow : Delivered stream s.appended row) :
  Position stream s counter row.sequence offset
  := by
  obtain ⟨-, -, htarget⟩ := hbatch.mem row List.mem_cons_self
  refine { h with covered := ?_, bounded := ?_ }
  · intro event hevent hbase hle
    rcases hbatch.le_head hevent hle with rfl | hcursor
    · apply hrow
    · apply h.covered event hevent hbase hcursor
  · apply (htarget.trans hcounter).trans
    apply le_max_right

/-- What was delivered stays so when more is appended. -/
theorem Delivered.cons {appended : List (Entry EventRecord)} {event : EventRecord}
    (h : Delivered stream appended event) (a : Entry EventRecord) :
  Delivered stream (a :: appended) event
  := by
  rcases h with h | h
  · left
    rw [List.map_cons]
    apply List.mem_cons_of_mem _ h
  · right
    apply h

/-- An entry that is appended is later than all that were appended. -/
theorem DeliveryKept.laterThan_all (h : DeliveryKept stream s counter)
    (hposition : Position stream s counter cursor offset)
    (htop : s.stream.top < entryId (offset + row.sequence)) :
  ∀ a ∈ s.appended, LaterThan ⟨entryId (offset + row.sequence), row⟩ a
  := by
  intro a ha
  have hid : a.id < entryId (offset + row.sequence) := by
    cases happended : s.appended with
    | nil =>
        rw [happended] at ha
        cases ha
    | cons b rest =>
        obtain ⟨hb, -⟩ := h.newest b rest happended
        rw [happended] at ha
        rcases List.mem_cons.mp ha with rfl | ha
        · rw [← hb]
          apply htop
        · have hlater := h.later
          rw [happended] at hlater
          apply ((List.pairwise_cons.mp hlater).1 a ha).1.trans
          rw [← hb]
          apply htop
  have hmain : EntryId.main a.id < offset + row.sequence := by
    rw [h.ids a ha] at hid
    apply EntryStream.entryId_lt_entryId.mp hid
  have hoffset := hposition.offset_le a ha
  refine ⟨hid, ?_, ?_⟩
  · show a.payload.sequence < row.sequence
    omega
  · show offset + row.sequence + a.payload.sequence ≤ EntryId.main a.id + row.sequence
    omega

/-- An append keeps the invariant. -/
theorem DeliveryKept.append (h : DeliveryKept stream s counter) (htarget : call.target ≤ counter)
    (hposition : Position stream s counter cursor offset)
    (hbatch : Batch s.log cursor call.target (row :: rows)) (drop : ℕ) :
  DeliveryInvariant stream (s.append codec call offset row rows drop) counter
  := by
  rw [Delivery.append]
  split
  case isFalse => apply h.raise
  split
  case h_2 =>
    apply h.goto htarget
    exact ⟨cursor, hposition.of_same (same_goto _ _ _), hbatch⟩
  case h_1 state hadd =>
    obtain ⟨htop, -, hnew, -⟩ := EntryStream.xadd_eq_some hadd
    obtain ⟨hmem, hcursor, hle⟩ := hbatch.mem row List.mem_cons_self
    have hlater := h.laterThan_all hposition htop
    have hdelivered : Delivered stream
        (⟨entryId (offset + row.sequence), row⟩ :: s.appended) row := by
      left
      rw [List.map_cons]
      apply List.mem_cons_self
    have hcovered : ∀ event ∈ s.log.events.table.rows, s.bootstrapped < event.sequence →
        event.sequence ≤ row.sequence →
          Delivered stream (⟨entryId (offset + row.sequence), row⟩ :: s.appended) event := by
      intro event hevent hbase hevle
      rcases hbatch.le_head hevent hevle with rfl | hevcursor
      · apply hdelivered
      · apply (hposition.covered event hevent hbase hevcursor).cons
    constructor
    · constructor
      case ordered => apply h.ordered
      case entries =>
        intro entry hentry
        rcases EntryStream.mem_of_xadd hadd hentry with hold | rfl
        · rcases h.entries entry hold with hstart | ⟨a, ha, hpayload⟩
          · left
            apply hstart
          · right
            exact ⟨a, List.mem_cons_of_mem _ ha, hpayload⟩
        · right
          exact ⟨_, List.mem_cons_self, rfl⟩
      case newest =>
        rintro a rest heq
        obtain ⟨rfl, -⟩ := List.cons.inj heq
        use hnew
        intro entry hentry
        apply EntryStream.xrevrange_of_xadd hadd hentry
      case ids =>
        intro a ha
        rcases List.mem_cons.mp ha with rfl | ha
        · rfl
        · apply h.ids a ha
      case sequences =>
        intro a ha
        rcases List.mem_cons.mp ha with rfl | ha
        · refine ⟨Nat.zero_lt_of_lt hcursor, ?_, hle.trans htarget⟩
          show row.sequence ≤ offset + row.sequence
          apply Nat.le_add_left
        · apply h.sequences a ha
      case later => exact List.pairwise_cons.mpr ⟨hlater, h.later⟩
      case covered =>
        intro a ha event hevent hbase hevle
        rcases List.mem_cons.mp ha with rfl | ha
        · apply hcovered event hevent hbase hevle
        · apply (h.covered a ha event hevent hbase hevle).cons
      case row =>
        intro r hr
        obtain ⟨offset', hoffset', hold⟩ := h.row r hr
        refine ⟨offset', hoffset', ?_, ?_, hold.bounded, hold.row⟩
        · intro a ha
          rcases List.mem_cons.mp ha with rfl | ha
          · obtain rfl := Option.some.inj (hoffset'.symm.trans (hposition.row r hr))
            apply le_refl
          · apply hold.offset_le a ha
        · intro event hevent hbase hevle
          apply (hold.covered event hevent hbase hevle).cons
    · intro call' hcall
      obtain rfl := Option.some.inj hcall
      use htarget
      refine ⟨⟨?_, hcovered, ?_, hposition.row⟩, hbatch.tail⟩
      · intro a ha
        rcases List.mem_cons.mp ha with rfl | ha
        · apply le_refl
        · apply hposition.offset_le a ha
      · apply (hle.trans htarget).trans
        apply le_max_right

/-- The answer to a rejected append keeps the invariant: the entry that is found holds the
event. -/
theorem DeliveryKept.replay (h : DeliveryKept stream s counter) (htarget : call.target ≤ counter)
    (hposition : Position stream s counter cursor offset)
    (hbatch : Batch s.log cursor call.target (row :: rows)) :
  DeliveryInvariant stream (s.replay codec call offset row rows) counter
  := by
  rw [Delivery.replay]
  split
  case h_2 => apply h.raise
  case h_1 entry hentry =>
    split
    case isFalse => apply h.raise
    case isTrue hsame =>
      have hdelivered : Delivered stream s.appended row := by
        rcases h.entries entry (EntryStream.mem_of_xrange hentry).1 with hstart | ⟨a, ha, hpayload⟩
        · right
          rw [← hsame.1]
          apply List.mem_map_of_mem hstart
        · left
          rw [hsame.1] at hpayload
          cases hpayload
          apply List.mem_map_of_mem ha
      apply h.goto htarget
      exact ⟨(hposition.advance htarget hbatch hdelivered).of_same (same_goto _ _ _),
        hbatch.tail⟩

/-- The commit keeps the invariant. -/
theorem DeliveryKept.commit (h : DeliveryKept stream s counter)
    (hposition : Position stream s counter cursor offset) (returned : List ℕ) :
  DeliveryInvariant stream
    { s with row := some ⟨cursor, some offset⟩, call := none, returned := returned } counter
  := by
  constructor
  · refine ⟨h.ordered, h.entries, h.newest, h.ids, h.sequences, h.later, h.covered, ?_⟩
    rintro _ ⟨⟩
    refine ⟨offset, rfl, hposition.offset_le, hposition.covered, hposition.bounded, ?_⟩
    rintro _ ⟨⟩
    rfl
  · intro call hcall
    cases hcall

/-! ### Steps -/

/-- The next operation of a call keeps the invariant. -/
theorem DeliveryInvariant.next (h : DeliveryInvariant stream s counter)
    (hcall : s.call = some call) (drop : ℕ) :
  DeliveryInvariant stream (s.next codec call drop) counter
  := by
  have hkept := h.kept
  obtain ⟨htarget, hsound⟩ := h.call call hcall
  cases hphase : call.phase with
  | select =>
      simp only [Delivery.next, hphase]
      cases hrow : s.row with
      | none =>
          apply hkept.goto htarget
          exact ⟨hrow, rfl⟩
      | some row =>
          obtain ⟨offset, hoffset, hposition⟩ := hkept.row row hrow
          simp only [Option.getD_some, hoffset]
          apply hkept.goto htarget
          exact hposition.of_same (same_goto _ _ _)
  | bootstrap cursor =>
      rw [hphase] at hsound
      obtain ⟨hrow, rfl⟩ := hsound
      simp only [Delivery.next, hphase]
      cases hentry : s.stream.xrevrange with
      | none =>
          apply hkept.goto htarget
          exact ⟨hrow, rfl⟩
      | some entry => apply hkept.bootstrapEntry htarget hrow hentry
  | first cursor =>
      rw [hphase] at hsound
      obtain ⟨hrow, rfl⟩ := hsound
      simp only [Delivery.next, hphase]
      apply hkept.bootstrapEmpty htarget hrow
  | lookup cursor lastMilliseconds eventId =>
      rw [hphase] at hsound
      obtain ⟨hrow, -, happended⟩ := hsound
      simp only [Delivery.next, hphase]
      apply hkept.bootstrap htarget hrow
      intro hne
      cases hne happended
  | query cursor offset =>
      rw [hphase] at hsound
      apply hkept.query htarget hphase hsound
  | append cursor offset rows =>
      rw [hphase] at hsound
      cases rows with
      | nil =>
          simp only [Delivery.next, hphase]
          apply hkept.goto htarget
          exact hsound.1.of_same (same_goto _ _ _)
      | cons row rows =>
          simp only [Delivery.next, hphase]
          apply hkept.append htarget hsound.1 hsound.2
  | replay offset row rows =>
      rw [hphase] at hsound
      obtain ⟨cursor, hposition, hbatch⟩ := hsound
      simp only [Delivery.next, hphase]
      apply hkept.replay htarget hposition hbatch
  | commit cursor offset =>
      rw [hphase] at hsound
      simp only [Delivery.next, hphase]
      apply hkept.commit hsound.1

/-- A transaction on the event log keeps the invariant: a new event is after the cursor. -/
theorem DeliveryInvariant.write (h : DeliveryInvariant stream s counter) (hcall : s.call = none)
    {op : EventOp} {log : EventDb} (hstep : eventStep s.log op = some log) :
  ∃ counter', DeliveryInvariant stream { s with log := log } counter'
  := by
  obtain ⟨counter', hordered, hle, hrows⟩ := h.kept.ordered.step hstep
  use counter'
  constructor
  · refine ⟨hordered, h.kept.entries, h.kept.newest, h.kept.ids, ?_, h.kept.later, ?_, ?_⟩
    · intro a ha
      obtain ⟨hpositive, hmain, hcounter⟩ := h.kept.sequences a ha
      exact ⟨hpositive, hmain, hcounter.trans hle⟩
    · intro a ha event hevent hbase hevle
      rcases hrows event hevent with hold | hnew
      · apply h.kept.covered a ha event hold hbase hevle
      · have hcounter := (h.kept.sequences a ha).2.2
        omega
    · intro row hrow
      obtain ⟨offset, hoffset, hposition⟩ := h.kept.row row hrow
      refine ⟨offset, hoffset, hposition.offset_le, ?_, ?_, hposition.row⟩
      · intro event hevent hbase hevle
        rcases hrows event hevent with hold | hnew
        · apply hposition.covered event hold hbase hevle
        · have hbounded := hposition.bounded
          dsimp only at hbase
          rcases le_max_iff.mp hbounded with hbounded | hbounded
          · omega
          · omega
      · apply hposition.bounded.trans
        apply max_le_max_left _ hle
  · intro call hsome
    cases hcall.symm.trans hsome

/-- What a step does: a transaction on the event log or a new call while there is no call, and an
operation of the call that there is, of which the reply may be lost, or which may fail. -/
inductive DeliveryStep (codec : EventCodec) (s : Delivery) : DeliveryAction → Delivery → Prop where
  | write {op : EventOp} {log : EventDb} (hcall : s.call = none)
      (hwrite : eventStep s.log op = some log) :
      DeliveryStep codec s (.write op) { s with log := log }
  | call {target maxlen counter : ℕ} (hcall : s.call = none)
      (hcounter : s.log.counter = some counter) (htarget : target ≤ counter) :
      DeliveryStep codec s (.call target maxlen)
        { s with call := some ⟨target, maxlen, .select⟩ }
  | next {call : DeliveryCall} {drop : ℕ} (hcall : s.call = some call) :
      DeliveryStep codec s (.next drop) (s.next codec call drop)
  | lost {call : DeliveryCall} {drop : ℕ} (hcall : s.call = some call) :
      DeliveryStep codec s (.lost drop)
        { s.next codec call drop with call := none, returned := s.returned }
  | fail {call : DeliveryCall} (hcall : s.call = some call) :
      DeliveryStep codec s .fail s.raise

/-- Every step is one of these. -/
theorem deliveryStep_cases {action : DeliveryAction} (h : deliveryStep codec s action = some t) :
  DeliveryStep codec s action t
  := by
  cases hcall : s.call with
  | none =>
      cases action with
      | write op =>
          simp only [deliveryStep, hcall, Option.map_eq_some_iff] at h
          obtain ⟨log, hwrite, rfl⟩ := h
          rw [← hcall]
          apply DeliveryStep.write hcall hwrite
      | call target maxlen =>
          simp only [deliveryStep, hcall] at h
          split at h
          case isTrue htarget =>
            obtain rfl := Option.some.inj h
            obtain ⟨counter, hcounter, htarget⟩ := (Option.any_eq_true _ _).mp htarget
            apply DeliveryStep.call hcall hcounter (of_decide_eq_true htarget)
          case isFalse => cases h
      | next drop => simp [deliveryStep, hcall] at h
      | lost drop => simp [deliveryStep, hcall] at h
      | fail => simp [deliveryStep, hcall] at h
  | some call =>
      cases action with
      | write op => simp [deliveryStep, hcall] at h
      | call target maxlen => simp [deliveryStep, hcall] at h
      | next drop =>
          simp only [deliveryStep, hcall, Option.some.injEq] at h
          rw [← h]
          apply DeliveryStep.next hcall
      | lost drop =>
          simp only [deliveryStep, hcall, Option.some.injEq] at h
          rw [← h]
          apply DeliveryStep.lost hcall
      | fail =>
          simp only [deliveryStep, hcall, Option.some.injEq] at h
          rw [← h]
          apply DeliveryStep.fail hcall

/-- Every step keeps the invariant. -/
theorem DeliveryInvariant.step (h : DeliveryInvariant stream s counter) {action : DeliveryAction}
    (hstep : deliveryStep codec s action = some t) :
  ∃ counter', DeliveryInvariant stream t counter'
  := by
  cases deliveryStep_cases hstep with
  | write hcall hwrite => apply h.write hcall hwrite
  | call hcall hcounter htarget =>
      use counter
      constructor
      · exact h.kept.of_same ⟨rfl, rfl, rfl, rfl, rfl⟩
      · intro call' hcall'
        obtain rfl := Option.some.inj hcall'
        obtain rfl := Option.some.inj (h.kept.ordered.counted.symm.trans hcounter)
        exact ⟨htarget, trivial⟩
  | next hcall =>
      use counter
      apply h.next hcall
  | lost hcall =>
      use counter
      constructor
      · exact (h.next hcall _).kept.of_same ⟨rfl, rfl, rfl, rfl, rfl⟩
      · intro call' hcall'
        cases hcall'
  | fail hcall =>
      use counter
      apply h.kept.raise

/-- The invariant holds at the start. -/
theorem deliveryInvariant_start (stream : EntryStream StreamPayload) :
  DeliveryInvariant stream (.start stream) 0
  := by
  constructor
  · constructor
    · apply ordered_init
    · intro entry hentry
      left
      apply hentry
    · intro a rest heq
      cases heq
    · intro a ha
      cases ha
    · intro a ha
      cases ha
    · apply List.Pairwise.nil
    · intro a ha
      cases ha
    · intro row hrow
      cases hrow
  · intro call hcall
    cases hcall

/-! ### Order -/

/-- The events that were appended are in order, and no event was appended twice. -/
structure StreamOrdered (appended : List (Entry EventRecord)) : Prop where
  ids : appended.Pairwise (fun later earlier => earlier.id < later.id)
  sequences : appended.Pairwise (fun later earlier =>
    earlier.payload.sequence < later.payload.sequence)
  once : (appended.map Entry.payload).Nodup

/-- The entries of a state with the invariant are in order. -/
theorem DeliveryKept.streamOrdered (h : DeliveryKept stream s counter) :
  StreamOrdered s.appended
  := by
  constructor
  · apply h.later.imp
    intro later earlier hlater
    apply hlater.1
  · apply h.later.imp
    intro later earlier hlater
    apply hlater.2.1
  · apply List.Pairwise.map Entry.payload _ h.later
    intro later earlier hlater heq
    apply hlater.2.1.ne
    rw [heq]

/-- The cursor that a phase of the bootstrap goes on from. -/
def DeliveryPhase.startCursor : DeliveryPhase → ℕ
  | .bootstrap cursor | .first cursor | .lookup cursor _ _ => cursor
  | _ => 0

/-- The sequence that the next operation takes over from the newest entry, 0 when it takes
over none. -/
def DeliveryPhase.trusted (s : Delivery) : DeliveryPhase → ℕ
  | .bootstrap _ =>
      match s.stream.xrevrange with
      | none => 0
      | some entry =>
          match entry.payload.decoded with
          | .error _ => 0
          | .ok (sequence, _) => sequence.toNat
  | .lookup _ _ eventId => sequenceOf s.log eventId
  | _ => 0

/-- What an operation of a call does: it changes nothing but its phase, it ends the bootstrap,
it appends an event, or it commits. -/
inductive DeliveryEffect (s : Delivery) (call : DeliveryCall) : Delivery → Prop where
  | quiet {t : Delivery} (hsame : SameDelivery s t) (hreturned : t.returned = s.returned) :
      DeliveryEffect s call t
  | bootstrap (offset : ℕ) :
      DeliveryEffect s call (s.bootstrap call (max call.phase.startCursor (call.phase.trusted s), offset))
  | empty {cursor : ℕ} (hphase : call.phase = .first cursor) :
      DeliveryEffect s call (s.bootstrap call (GoblinKing.bootstrapEmpty s.log cursor, 0))
  | append {cursor offset : ℕ} {row : EventRecord} {rows : List EventRecord}
      {state : EntryStream StreamPayload} (hphase : call.phase = .append cursor offset (row :: rows)) :
      DeliveryEffect s call { s with
        stream := state
        call := some { call with phase := .append row.sequence offset rows }
        appended := ⟨entryId (offset + row.sequence), row⟩ :: s.appended }
  | commit {cursor offset : ℕ} (hphase : call.phase = .commit cursor offset) :
      DeliveryEffect s call { s with
        row := some ⟨cursor, some offset⟩
        call := none
        returned := call.target :: s.returned }

/-- Going on in a phase is quiet. -/
theorem deliveryEffect_goto (s : Delivery) (call : DeliveryCall) (phase : DeliveryPhase) :
  DeliveryEffect s call (s.goto call phase)
  := DeliveryEffect.quiet (same_goto s call phase) rfl

/-- Raising is quiet. -/
theorem deliveryEffect_raise (s : Delivery) (call : DeliveryCall) :
  DeliveryEffect s call s.raise
  := DeliveryEffect.quiet ⟨rfl, rfl, rfl, rfl, rfl⟩ rfl

/-- The cursor that goes on from a newest entry is the higher one of the two. -/
theorem bootstrapFrom_fst (cursor lastMilliseconds sequence : ℕ) :
  (bootstrapFrom cursor lastMilliseconds sequence).1 = max cursor sequence
  := by
  rw [bootstrapFrom]
  split
  case isTrue h =>
    rw [Nat.lt_one_iff.mp h]
    apply (max_eq_left (Nat.zero_le cursor)).symm
  case isFalse => rfl

/-- What an operation of a call does. -/
theorem deliveryEffect_next (codec : EventCodec) (s : Delivery) (call : DeliveryCall) (drop : ℕ) :
  DeliveryEffect s call (s.next codec call drop)
  := by
  cases hphase : call.phase with
  | select =>
      simp only [Delivery.next, hphase]
      split <;> apply deliveryEffect_goto
  | bootstrap cursor =>
      simp only [Delivery.next, hphase]
      cases hentry : s.stream.xrevrange with
      | none => apply deliveryEffect_goto
      | some entry =>
          simp only [Delivery.bootstrapEntry]
          cases hdecoded : entry.payload.decoded with
          | error error => apply deliveryEffect_raise
          | ok decoded =>
              obtain ⟨sequence, eventId⟩ := decoded
              have hbootstrap := @DeliveryEffect.bootstrap s call
                (bootstrapFrom cursor (EntryId.main entry.id) sequence.toNat).2
              simp only [hphase, DeliveryPhase.startCursor, DeliveryPhase.trusted, hentry, hdecoded,
                ← bootstrapFrom_fst cursor (EntryId.main entry.id)] at hbootstrap
              dsimp only
              split
              · split
                · apply deliveryEffect_goto
                · apply hbootstrap
              · apply hbootstrap
  | first cursor =>
      simp only [Delivery.next, hphase]
      apply DeliveryEffect.empty hphase
  | lookup cursor lastMilliseconds eventId =>
      have hbootstrap := @DeliveryEffect.bootstrap s call
        (bootstrapFrom cursor lastMilliseconds (sequenceOf s.log eventId)).2
      simp only [hphase, DeliveryPhase.startCursor, DeliveryPhase.trusted,
        ← bootstrapFrom_fst cursor lastMilliseconds] at hbootstrap
      simp only [Delivery.next, hphase]
      apply hbootstrap
  | query cursor offset =>
      simp only [Delivery.next, hphase]
      split
      · split <;> apply deliveryEffect_goto
      · apply deliveryEffect_goto
  | append cursor offset rows =>
      cases rows with
      | nil =>
          simp only [Delivery.next, hphase]
          apply deliveryEffect_goto
      | cons row rows =>
          simp only [Delivery.next, hphase, Delivery.append]
          split
          · split
            · apply DeliveryEffect.append hphase
            · apply deliveryEffect_goto
          · apply deliveryEffect_raise
  | replay offset row rows =>
      simp only [Delivery.next, hphase, Delivery.replay]
      split
      · split
        · apply deliveryEffect_goto
        · apply deliveryEffect_raise
      · apply deliveryEffect_raise
  | commit cursor offset =>
      simp only [Delivery.next, hphase]
      apply DeliveryEffect.commit hphase

/-- The bootstrap changes nothing but its cursor. -/
theorem bootstrap_frame (s : Delivery) (call : DeliveryCall) (state : ℕ × ℕ) :
  (s.bootstrap call state).log = s.log ∧ (s.bootstrap call state).appended = s.appended
    ∧ (s.bootstrap call state).returned = s.returned
    ∧ ((s.bootstrap call state).bootstrapped = s.bootstrapped
      ∨ (s.bootstrap call state).bootstrapped = state.1)
  := by
  rw [Delivery.bootstrap]
  split
  · refine ⟨rfl, rfl, rfl, ?_⟩
    dsimp only
    split
    · right
      rfl
    · left
      rfl
  · exact ⟨rfl, rfl, rfl, Or.inl rfl⟩

/-- An operation that appends an entry is an append of the next event of a batch. -/
theorem append_of_appended {drop : ℕ} {a : Entry EventRecord}
    (h : (s.next codec call drop).appended = a :: s.appended) :
  ∃ cursor offset row rows, call.phase = .append cursor offset (row :: rows) ∧ a.payload = row
  := by
  have hne : s.appended ≠ a :: s.appended := (List.cons_ne_self a s.appended).symm
  have heffect := deliveryEffect_next codec s call drop
  generalize s.next codec call drop = t at h heffect
  cases heffect with
  | quiet hsame hreturned =>
      rw [hsame.appended] at h
      cases hne h
  | bootstrap offset =>
      rw [(bootstrap_frame s call _).2.1] at h
      cases hne h
  | empty hphase =>
      rw [(bootstrap_frame s call _).2.1] at h
      cases hne h
  | append hphase =>
      obtain ⟨rfl, -⟩ := List.cons.inj h
      exact ⟨_, _, _, _, hphase, rfl⟩
  | commit hphase => cases hne h

/-- An operation of a call appends an event only when all earlier ones above the bootstrapped
cursor that are still there have been delivered. -/
theorem DeliveryInvariant.appended_in_order (h : DeliveryInvariant stream s counter)
    (hcall : s.call = some call) {drop : ℕ} {a : Entry EventRecord}
    (happended : (s.next codec call drop).appended = a :: s.appended) :
  ∀ event ∈ s.log.events.table.rows, s.bootstrapped < event.sequence →
    event.sequence < a.payload.sequence → Delivered stream s.appended event
  := by
  obtain ⟨cursor, offset, row, rows, hphase, hrow⟩ := append_of_appended happended
  obtain ⟨-, hsound⟩ := h.call call hcall
  rw [hphase] at hsound
  obtain ⟨hposition, hbatch⟩ := hsound
  intro event hevent hbase hlt
  rw [hrow] at hlt
  rcases hbatch.le_head hevent hlt.le with rfl | hcursor
  · cases lt_irrefl _ hlt
  · apply hposition.covered event hevent hbase hcursor

/-- Only an operation of a call appends. -/
theorem appended_of_step {action : DeliveryAction} (h : deliveryStep codec s action = some t)
    {a : Entry EventRecord} (happended : t.appended = a :: s.appended) :
  ∃ call drop, s.call = some call ∧ t.appended = (s.next codec call drop).appended
  := by
  have hne : s.appended ≠ a :: s.appended := (List.cons_ne_self a s.appended).symm
  cases deliveryStep_cases h with
  | write | call | fail => cases hne happended
  | next hcall | lost hcall => exact ⟨_, _, hcall, rfl⟩

end

/-- Along every run of the database and the stream, from any content of the stream and with
any operation failing or losing its reply, the entries that were appended have increasing
identifiers and sequences, no event is appended twice, and an event is appended only when all
earlier ones above the bootstrapped cursor that are still there have been delivered. -/
theorem stream_delivery_in_order (codec : EventCodec) (stream : EntryStream StreamPayload)
    (actions : List DeliveryAction) :
  Transition.Along (deliveryStep codec)
    (fun s _ t => StreamOrdered t.appended ∧ ∀ a, t.appended = a :: s.appended →
      ∀ event ∈ s.log.events.table.rows, s.bootstrapped < event.sequence →
        event.sequence < a.payload.sequence → Delivered stream s.appended event)
    (.start stream) actions
  := by
  apply Transition.along_of_invariant
    (I := fun s => ∃ counter, DeliveryInvariant stream s counter) (P := fun _ _ _ => True)
  · rintro s action t ⟨counter, hs⟩ - hstep
    obtain ⟨counter', ht⟩ := hs.step hstep
    refine ⟨⟨counter', ht⟩, ht.kept.streamOrdered, ?_⟩
    intro a happended
    obtain ⟨call, drop, hcall, hnext⟩ := appended_of_step hstep happended
    apply hs.appended_in_order hcall
    rw [← hnext, happended]
  · exact ⟨0, deliveryInvariant_start stream⟩
  · apply Transition.along_true

end GoblinKing
