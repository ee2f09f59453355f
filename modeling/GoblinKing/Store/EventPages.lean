import GoblinKing.Library.Scan
import GoblinKing.Store.Listing

/-!
# Paging through the events

A client reads the events page by page: it calls `list_events` with the identifier of the event it
has received last, until a page is empty. Meanwhile events are persisted and deleted. The store
translates the identifier to a sequence on every call; when the event is gone there is no
sequence, and the page begins with the first event that is left.
-/

namespace GoblinKing

/-! ### Calls -/

/-- The bounds of a page of events, and no offset. -/
def eventPage (limit : ℤ) : PageQuery where
  limit := (max 1 (min limit 500)).toNat
  offset := 0
  limitPositive := by omega
  limitBounded := by omega

/-- The query of a client that has received some events. -/
def pageQuery (filters : EventQuery) (limit : ℤ) (received : List EventRecord) : EventQuery :=
  { filters with
    page := eventPage limit
    afterId := received.getLast?.map EventRecord.id }

/-- The events that meet the filters. -/
def EventQuery.wanted (filters : EventQuery) (projectId : Option Id) (event : EventRecord) : Bool :=
  filters.selects none projectId event

/-- The log, the identifiers that were drawn for events, and a client with what it has received. -/
structure EventScan where
  db : EventDb
  drawn : List Id
  received : List EventRecord
  finished : Bool

/-- A new database, and a client that has not called yet. -/
def EventScan.init : EventScan :=
  ⟨.init, [], [], false⟩

/-- What happens: a transaction on the log, or a call of the client. -/
inductive ScanAction where
  | write (op : EventOp)
  | call
  deriving DecidableEq

/-- The identifiers that a transaction draws for its events. -/
def EventOp.draws : EventOp → List Id
  | .persist event => [event.id]
  | .cleanup _ | .ensureSchema => []

/-- A step. The identifier of an event is a `uuid4`, which has not been drawn before; the client
ends its calls with an empty page. -/
def scanStep (filters : EventQuery) (limit : ℤ) (projectId : Option Id) (s : EventScan) :
    ScanAction → Option EventScan
  | .write op =>
      if ∀ id ∈ op.draws, id ∉ s.drawn then
        (eventStep s.db op).map (fun db => { s with db := db, drawn := op.draws ++ s.drawn })
      else
        none
  | .call =>
      if s.finished then
        none
      else
        let page := listEvents s.db.events (pageQuery filters limit s.received) projectId
        some { s with received := s.received ++ page, finished := page.isEmpty }

/-- A step pages in order: what was received is in the order of the sequences, no event was
received twice, and with an empty page the client has received every stored event that meets the
filters, among them every one that has been stored during all of the calls. -/
structure PagesInOrder (filters : EventQuery) (projectId : Option Id) (s : EventScan)
    (a : ScanAction) (t : EventScan) : Prop where
  increasing : Scan.Increasing EventRecord.sequence t.received
  once : (t.received.map EventRecord.id).Nodup
  complete : a = .call → t.finished = true → ∀ event ∈ s.db.events.table.rows,
    filters.wanted projectId event = true → event ∈ t.received

/-- A call finds its cursor: the event that was received last is stored, or no event that meets the
filters has a sequence up to that of this event. -/
def FindsCursor (filters : EventQuery) (projectId : Option Id) (s : EventScan) (a : ScanAction) :
    Prop :=
  a = .call → ∀ last ∈ s.received.getLast?, s.db.events.find? last.id = none →
    ∀ event ∈ s.db.events.table.rows, filters.wanted projectId event = true →
      last.sequence < event.sequence

section

variable {filters : EventQuery} {limit : ℤ} {projectId : Option Id} {db : EventDb} {counter : ℕ}
  {received : List EventRecord}

/-- A cursor is one more condition of the events. -/
theorem selects_eq_wanted (cursor : Option ℕ) :
  (pageQuery filters limit received).selects cursor projectId
    = (fun event => filters.wanted projectId event
      && cursor.all (fun sequence => decide (sequence < event.sequence)))
  := by
  funext event
  simp only [pageQuery, EventQuery.selects, EventQuery.wanted, Option.all_none, Bool.and_true]
  ac_rfl

/-- The size of a page. -/
def pageLimit (limit : ℤ) : ℕ :=
  max 1 (min (max 1 (min limit 500)).toNat 500)

/-- A page has the first events of the log that are selected. -/
theorem listEvents_eq_take (hdb : db.Ordered counter) :
  listEvents db.events (pageQuery filters limit received) projectId
    = (db.events.table.rows.filter (fun event => filters.wanted projectId event
        && ((pageQuery filters limit received).cursor db.events).all
          (fun sequence => decide (sequence < event.sequence)))).take (pageLimit limit)
  := by
  simp only [listEvents, Table.select, selects_eq_wanted]
  rw [List.Pairwise.insertionSort_eq]
  · rfl
  · exact (hdb.rows.increasing.filter _).imp (fun h => h.1.le)

/-! ### What a scan keeps -/

/-- What every step keeps: the log is in order and ahead of the client, an identifier is that of
one event, and the client has passed over nothing. -/
structure ScanKept (filters : EventQuery) (projectId : Option Id) (s : EventScan) : Prop where
  ordered : ∃ counter, s.db.Ordered counter ∧ ∀ event ∈ s.received, event.sequence ≤ counter
  storedDrawn : ∀ event ∈ s.db.events.table.rows, event.id ∈ s.drawn
  receivedDrawn : ∀ event ∈ s.received, event.id ∈ s.drawn
  same : ∀ event ∈ s.received, ∀ event' ∈ s.db.events.table.rows, event.id = event'.id →
    event = event'
  once : (s.received.map EventRecord.id).Nodup
  complete : Scan.Complete EventRecord.sequence (filters.wanted projectId)
    s.db.events.table.rows s.received

/-- A scan has all that it keeps before the first call. -/
theorem scanKept_init :
  ScanKept filters projectId .init
  := by
  constructor
  · exact ⟨0, ordered_init, by simp [EventScan.init]⟩
  · simp [EventScan.init, EventDb.init, IndexedTable.empty, Table.empty]
  · simp [EventScan.init]
  · simp [EventScan.init]
  · exact List.nodup_nil
  · exact Scan.complete_nil

variable {s t : EventScan}

/-- The rows of a log are in the order of their sequences. -/
theorem EventDb.Ordered.sequences (hdb : db.Ordered counter) :
  Scan.Increasing EventRecord.sequence db.events.table.rows
  := hdb.rows.increasing.imp (fun h => h.1)

/-- A call that finds its cursor gets the next page. -/
theorem ScanKept.listEvents_eq_page (h : ScanKept filters projectId s)
    (hfinds : FindsCursor filters projectId s .call) :
  listEvents s.db.events (pageQuery filters limit s.received) projectId
    = Scan.page EventRecord.sequence (filters.wanted projectId) (pageLimit limit)
      s.db.events.table.rows s.received
  := by
  obtain ⟨counter, hdb, -⟩ := h.ordered
  rw [listEvents_eq_take hdb, Scan.page]
  congr 1
  apply List.filter_congr
  intro event hevent
  cases hlast : s.received.getLast? with
  | none => simp [pageQuery, EventQuery.cursor, Scan.after, hlast]
  | some last =>
      cases hfind : s.db.events.find? last.id with
      | some row =>
          have hrow := Table.mem_of_find? hfind
          have hid : row.id = last.id := Table.key_of_find? hfind
          obtain rfl := h.same last (List.mem_of_getLast? hlast) row hrow hid.symm
          simp [pageQuery, EventQuery.cursor, Scan.after, hlast, hfind]
      | none =>
          have hlater := hfinds rfl last hlast hfind event hevent
          cases hwanted : filters.wanted projectId event with
          | false => simp
          | true => simp [pageQuery, EventQuery.cursor, Scan.after, hlast, hfind, hlater hwanted]

/-- A call that does not find its cursor begins again, and gets events that are not in order. -/
theorem not_increasing_of_not_findsCursor (hdb : s.db.Ordered counter)
    (hfinds : ¬ FindsCursor filters projectId s .call) :
  ¬ Scan.Increasing EventRecord.sequence (s.received
    ++ listEvents s.db.events (pageQuery filters limit s.received) projectId)
  := by
  rw [FindsCursor] at hfinds
  push Not at hfinds
  obtain ⟨-, last, hlast, hfind, event, hevent, hwanted, hle⟩ := hfinds
  intro hincreasing
  rw [listEvents_eq_take hdb] at hincreasing
  have hcursor : (pageQuery filters limit s.received).cursor s.db.events = none := by
    simp [pageQuery, EventQuery.cursor, Option.mem_def.mp hlast, hfind]
  rw [hcursor] at hincreasing
  simp only [Option.all_none, Bool.and_true] at hincreasing
  have hmem : event ∈ s.db.events.table.rows.filter (filters.wanted projectId) :=
    List.mem_filter.mpr ⟨hevent, hwanted⟩
  have hsorted : Scan.Increasing EventRecord.sequence
      (s.db.events.table.rows.filter (filters.wanted projectId)) := hdb.sequences.filter _
  generalize s.db.events.table.rows.filter (filters.wanted projectId) = rows at *
  cases rows with
  | nil => cases hmem
  | cons first rows =>
      have hfirst : first.sequence ≤ event.sequence := by
        rcases List.mem_cons.mp hmem with rfl | hmem
        · exact le_refl _
        · exact ((List.pairwise_cons.mp hsorted).1 event hmem).le
      have hpage : first ∈ (first :: rows).take (pageLimit limit) := by
        obtain ⟨n, hn⟩ : ∃ n, pageLimit limit = n + 1 :=
          Nat.exists_eq_add_one.mpr (lt_of_lt_of_le Nat.zero_lt_one (le_max_left 1 _))
        rw [hn, List.take_succ_cons]
        exact List.mem_cons_self
      have hlt := (List.pairwise_append.mp hincreasing).2.2 last (List.mem_of_getLast? hlast)
        first hpage
      omega

/-- The rows after a transaction were stored before, or have an identifier that the transaction
draws. -/
theorem id_of_eventStep {db' : EventDb} {op : EventOp} (hdb : db.Ordered counter)
    (h : eventStep db op = some db') :
  ∀ event ∈ db'.events.table.rows, event ∈ db.events.table.rows ∨ event.id ∈ op.draws
  := by
  intro event hevent
  cases op with
  | persist new =>
      simp only [eventStep] at h
      split at h
      case h_1 hpersist =>
        obtain rfl := Option.some.inj h
        obtain ⟨_, -, -, rfl, hrows⟩ := persistEvent_ok hpersist
        rw [hrows] at hevent
        apply (List.mem_append.mp hevent).imp_right
        intro hnew
        rw [List.mem_singleton.mp hnew]
        exact List.mem_singleton_self _
      case h_2 =>
        obtain rfl := Option.some.inj h
        exact .inl hevent
  | cleanup projectId =>
      obtain rfl := Option.some.inj h
      exact .inl (List.mem_filter.mp hevent).1
  | ensureSchema =>
      simp only [eventStep, hdb.ensureEventSequences_eq] at h
      obtain rfl := Option.some.inj h
      exact .inl hevent

/-- A transaction on the log keeps what a scan keeps: what it inserts comes after everything that
the client has received. -/
theorem ScanKept.write {op : EventOp} (h : ScanKept filters projectId s)
    (hstep : scanStep filters limit projectId s (.write op) = some t) :
  ScanKept filters projectId t ∧ t.received = s.received
  := by
  simp only [scanStep] at hstep
  split_ifs at hstep with hfresh
  obtain ⟨db, hop, rfl⟩ := Option.map_eq_some_iff.mp hstep
  obtain ⟨counter, hdb, hbounded⟩ := h.ordered
  obtain ⟨counter', hdb', hle, hsequence⟩ := hdb.step hop
  have hid := id_of_eventStep hdb hop
  refine ⟨⟨?_, ?_, ?_, ?_, h.once, ?_⟩, rfl⟩
  · exact ⟨counter', hdb', fun event hevent => (hbounded event hevent).trans hle⟩
  · intro event hevent
    apply List.mem_append.mpr
    exact (hid event hevent).symm.imp_right (h.storedDrawn event)
  · intro event hevent
    exact List.mem_append_right _ (h.receivedDrawn event hevent)
  · intro event hevent event' hevent' heq
    rcases hid event' hevent' with hold | hnew
    · exact h.same event hevent event' hold heq
    · rw [← heq] at hnew
      exact absurd (h.receivedDrawn event hevent) (hfresh event.id hnew)
  · apply h.complete.mono
    intro event hevent
    apply (hsequence event hevent).imp_right
    intro hnew
    rw [Scan.after_iff]
    intro last hlast
    rw [hnew]
    exact Nat.lt_succ_of_le (hbounded last (List.mem_of_getLast? hlast))

/-- A call that finds its cursor keeps what a scan keeps. -/
theorem ScanKept.call (h : ScanKept filters projectId s)
    (hfinds : FindsCursor filters projectId s .call)
    (hstep : scanStep filters limit projectId s .call = some t) :
  ScanKept filters projectId t ∧ (t.finished = true →
    ∀ event ∈ s.db.events.table.rows, filters.wanted projectId event = true → event ∈ t.received)
  := by
  simp only [scanStep, h.listEvents_eq_page hfinds] at hstep
  split_ifs at hstep
  obtain rfl := Option.some.inj hstep
  obtain ⟨counter, hdb, hbounded⟩ := h.ordered
  have hids : (s.db.events.table.rows.map EventRecord.id).Nodup := s.db.events.table.nodup
  constructor
  · constructor
    · use counter, hdb
      intro event hevent
      rcases List.mem_append.mp hevent with hevent | hevent
      · exact hbounded event hevent
      · exact hdb.rows.bounded event (Scan.mem_page hevent).1
    · exact h.storedDrawn
    · intro event hevent
      rcases List.mem_append.mp hevent with hevent | hevent
      · exact h.receivedDrawn event hevent
      · exact h.storedDrawn event (Scan.mem_page hevent).1
    · intro event hevent event' hevent' heq
      rcases List.mem_append.mp hevent with hevent | hevent
      · exact h.same event hevent event' hevent' heq
      · exact s.db.events.table.eq_of_key_eq (Scan.mem_page hevent).1 hevent' heq
    · exact Scan.nodup_map_page h.once hids h.complete.increasing h.same
    · exact h.complete.page hdb.sequences
  · intro hfinished event hevent hwanted
    apply List.mem_append_left
    have hlimit : 0 < pageLimit limit := lt_of_lt_of_le Nat.zero_lt_one (le_max_left 1 _)
    exact h.complete.finished hlimit (List.isEmpty_iff.mp hfinished) hevent hwanted

/-- A step pages in order exactly when it finds its cursor, and then it keeps what a scan keeps. -/
theorem pagesInOrder_iff {a : ScanAction} (h : ScanKept filters projectId s)
    (hstep : scanStep filters limit projectId s a = some t) :
  (PagesInOrder filters projectId s a t ↔ FindsCursor filters projectId s a)
    ∧ (FindsCursor filters projectId s a → ScanKept filters projectId t)
  := by
  cases a with
  | write op =>
      obtain ⟨hkept, hreceived⟩ := h.write hstep
      refine ⟨iff_of_true ⟨?_, ?_, nofun⟩ nofun, fun _ => hkept⟩
      · rw [hreceived]
        exact h.complete.increasing
      · rw [hreceived]
        exact h.once
  | call =>
      have hcall := fun hfinds => h.call hfinds hstep
      refine ⟨⟨?_, ?_⟩, fun hfinds => (hcall hfinds).1⟩
      · intro hpages
        by_contra hfinds
        obtain ⟨counter, hdb, -⟩ := h.ordered
        simp only [scanStep] at hstep
        split_ifs at hstep
        obtain rfl := Option.some.inj hstep
        exact not_increasing_of_not_findsCursor hdb hfinds hpages.increasing
      · intro hfinds
        obtain ⟨hkept, hcomplete⟩ := hcall hfinds
        exact ⟨hkept.complete.increasing, hkept.once, fun _ => hcomplete⟩

/-- A client pages through the events in order, whatever is persisted and deleted between its
calls, exactly when each of its calls finds its cursor. -/
theorem events_paged_iff (filters : EventQuery) (limit : ℤ) (projectId : Option Id)
    (as : List ScanAction) :
  Transition.Along (scanStep filters limit projectId) (PagesInOrder filters projectId) .init as
    ↔ Transition.Along (scanStep filters limit projectId)
      (fun s a _ => FindsCursor filters projectId s a) .init as
  := by
  constructor
  · apply Transition.along_of_invariant (I := ScanKept filters projectId) _ scanKept_init
    intro s a t hs hpages hstep
    obtain ⟨hiff, hkept⟩ := pagesInOrder_iff hs hstep
    exact ⟨hkept (hiff.mp hpages), hiff.mp hpages⟩
  · apply Transition.along_of_invariant (I := ScanKept filters projectId) _ scanKept_init
    intro s a t hs hfinds hstep
    obtain ⟨hiff, hkept⟩ := pagesInOrder_iff hs hstep
    exact ⟨hkept hfinds, hiff.mpr hfinds⟩

end

/-- Events of two projects are read in one page; then those of the second are deleted, and the
client calls again. -/
def cursorDeleted : List ScanAction :=
  [.write (.persist { id := "e1", createdAt := 0, eventType := "job.queued", projectId := some "p" }),
    .write (.persist
      { id := "e2", createdAt := 0, eventType := "job.queued", projectId := some "q" }),
    .call, .write (.cleanup (some "q"))]

/-- What the client has received after a run without filters. -/
def receivedAfter (as : List ScanAction) : Option (List Id) :=
  (Transition.run (scanStep { page := .default } 100 none) .init as).map
    (fun s => s.received.map EventRecord.id)

/-- A client whose cursor is deleted receives an event twice. -/
theorem deleted_cursor_repeats_events :
  ¬ ∀ as, Transition.Along (scanStep { page := .default } 100 none)
    (PagesInOrder { page := .default } none) .init as
  := by
  intro h
  have hreceived : receivedAfter (cursorDeleted ++ [.call]) = some ["e1", "e2", "e1"] := by
    decide +kernel
  obtain ⟨s, hrun, hids⟩ := Option.map_eq_some_iff.mp hreceived
  obtain ⟨_, -, -, hpages⟩ := Transition.along_last (h _) hrun
  have honce := hpages.once
  rw [hids] at honce
  revert honce
  decide

end GoblinKing
