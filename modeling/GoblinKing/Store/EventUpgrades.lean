import GoblinKing.Store.Upgrades

/-!
# The event log in an upgrade

An upgrade numbers all events again as soon as one of them has no number. It reads neither the
numbers that the other events have, nor the cursors up to which they were delivered.
-/

namespace GoblinKing

open Sql

/-- The sequences after the backfill. -/
def numberedSequences (before : List ℤ) : List ℤ :=
  if 0 ∈ before then firstNumbers before.length else before

/-- The migration keeps the event log and its delivery. The events are the same, and their
sequences are positive and differ. Two events that had sequences are in the order of these, and two
that had none in the order of their rows. No sequence is above the counter; and an event that was
not delivered has a sequence above every saved cursor. -/
structure EventLogKept (db db' : SqliteDatabase) : Prop where
  ids : db'.events.rows.map (fun row => row "id") = db.events.rows.map (fun row => row "id")
  positive : ∀ sequence ∈ sequences db'.events, 0 < sequence
  unique : (sequences db'.events).Nodup
  ordered : ∀ (i j : ℕ) (a b a' b' : ℤ), db.legacySequences[i]? = some a →
    db.legacySequences[j]? = some b → (sequences db'.events)[i]? = some a' →
    (sequences db'.events)[j]? = some b' →
    (a ≠ 0 ∧ b ≠ 0 ∧ a < b) ∨ (a = 0 ∧ b = 0 ∧ i < j) → a' < b'
  counted : ∃ counter, db'.causalSequence = some counter
    ∧ ∀ sequence ∈ sequences db'.events, sequence ≤ counter
  undelivered : ∀ delivery ∈ db.eventStreamDeliveries, ∀ (i : ℕ) (a a' : ℤ),
    db.legacySequences[i]? = some a → (sequences db'.events)[i]? = some a' →
    ¬(0 < a ∧ a ≤ delivery.deliveredSequence) → delivery.deliveredSequence < a'

/-- The log can be kept: when all events have sequences, these are positive. When one has none, the
sequences of the others are in the order of the rows, and no cursor is above the number of a row
that was not delivered. -/
structure SqliteDatabase.LogKeepable (db : SqliteDatabase) : Prop where
  positive : 0 ∉ db.legacySequences → ∀ sequence ∈ db.legacySequences, 0 < sequence
  ordered : 0 ∈ db.legacySequences →
    db.legacySequences.Pairwise (fun a b => a ≠ 0 → b ≠ 0 → a ≤ b)
  undelivered : 0 ∈ db.legacySequences → ∀ delivery ∈ db.eventStreamDeliveries,
    ∀ (earlier : ℕ) (a : ℤ), db.legacySequences[earlier]? = some a →
      ¬(0 < a ∧ a ≤ delivery.deliveredSequence) → delivery.deliveredSequence ≤ earlier

/-- What the backfill makes of the sequences. -/
theorem Numberable.sequences_backfill {events numbered : Table} (h : Numberable events)
    (hok : backfillEventSequences events = .ok numbered) :
  sequences numbered = numberedSequences (sequences events)
    ∧ numbered.rows.map (fun row => row "id") = events.rows.map (fun row => row "id")
  := by
  rw [backfillEventSequences] at hok
  split at hok
  case isTrue hany =>
    obtain ⟨-, -, hrows⟩ := Table.update_ok hok
    constructor
    · rw [numberedSequences, if_pos (h.any_zero.mp hany), sequences, hrows,
        numbers_renumbered h.ids h.given List.prefix_rfl, sequences, List.length_map]
    · rw [hrows, List.map_map]
      apply List.map_congr_left
      intro row _
      simp [Row.write]
  case isFalse hany =>
    cases hok
    rw [numberedSequences, if_neg (fun hzero => hany (h.any_zero.mpr hzero))]
    exact ⟨rfl, rfl⟩

/-- The first numbers by position. -/
theorem getElem?_firstNumbers {count position : ℕ} (h : position < count) :
  (firstNumbers count)[position]? = some ((position : ℤ) + 1)
  := by
  rw [firstNumbers, List.getElem?_map, List.getElem?_range h]
  rfl

/-- A number stands at the position before it. -/
theorem eq_of_getElem?_firstNumbers {count position : ℕ} {n : ℤ}
    (h : (firstNumbers count)[position]? = some n) :
  n = position + 1
  := by
  obtain ⟨hlt, -⟩ := List.getElem?_eq_some_iff.mp h
  rw [firstNumbers, List.length_map, List.length_range] at hlt
  rw [getElem?_firstNumbers hlt] at h
  apply (Option.some.inj h).symm

/-! ### Numbering again -/

section

variable {before : List ℤ}

/-- Numbering again leaves the sequences alone when all events have one. -/
theorem numberedSequences_of_notMem (h : 0 ∉ before) :
  numberedSequences before = before
  := if_neg h

/-- Numbering again gives the first numbers when an event has none. -/
theorem numberedSequences_of_mem (h : 0 ∈ before) :
  numberedSequences before = firstNumbers before.length
  := if_pos h

/-- Which sequences are positive after the backfill. -/
theorem positive_numberedSequences :
  (∀ sequence ∈ numberedSequences before, 0 < sequence)
    ↔ (0 ∉ before → ∀ sequence ∈ before, 0 < sequence)
  := by
  by_cases hzero : 0 ∈ before
  · rw [numberedSequences_of_mem hzero]
    constructor
    · intro _ hnot
      cases hnot hzero
    · intro _ sequence hsequence
      apply (mem_firstNumbers.mp hsequence).1
  · rw [numberedSequences_of_notMem hzero]
    exact ⟨fun h _ => h, fun h => h hzero⟩

/-- The sequences differ after the backfill. -/
theorem nodup_numberedSequences (h : 0 ∉ before → before.Nodup) :
  (numberedSequences before).Nodup
  := by
  by_cases hzero : 0 ∈ before
  · rw [numberedSequences_of_mem hzero]
    apply nodup_firstNumbers
  · rw [numberedSequences_of_notMem hzero]
    apply h hzero

/-- No event is without a number after the backfill. -/
theorem zero_notMem_numberedSequences : 0 ∉ numberedSequences before
  := by
  by_cases hzero : 0 ∈ before
  · rw [numberedSequences_of_mem hzero, mem_firstNumbers]
    omega
  · rw [numberedSequences_of_notMem hzero]
    apply hzero

/-- The backfill keeps the order of the events when those with sequences are in the order of their
rows. -/
theorem ordered_numberedSequences :
  (∀ (i j : ℕ) (a b a' b' : ℤ), before[i]? = some a → before[j]? = some b →
      (numberedSequences before)[i]? = some a' → (numberedSequences before)[j]? = some b' →
      (a ≠ 0 ∧ b ≠ 0 ∧ a < b) ∨ (a = 0 ∧ b = 0 ∧ i < j) → a' < b')
    ↔ (0 ∈ before → before.Pairwise (fun a b => a ≠ 0 → b ≠ 0 → a ≤ b))
  := by
  by_cases hzero : 0 ∈ before
  · rw [numberedSequences_of_mem hzero]
    constructor
    · intro hordered _
      rw [List.pairwise_iff_getElem]
      intro i j hi hj hij ha hb
      by_contra hlt
      have hback := hordered j i _ _ _ _ (List.getElem?_eq_getElem hj)
        (List.getElem?_eq_getElem hi) (getElem?_firstNumbers hj) (getElem?_firstNumbers hi)
        (.inl ⟨hb, ha, lt_of_not_ge hlt⟩)
      omega
    · intro hordered i j a b a' b' hi hj hi' hj' hbefore
      rw [eq_of_getElem?_firstNumbers hi', eq_of_getElem?_firstNumbers hj']
      have hij : i < j := by
        rcases hbefore with ⟨ha, hb, hlt⟩ | ⟨-, -, hij⟩
        · by_contra hnot
          rcases Nat.eq_or_lt_of_not_lt hnot with rfl | hji
          · rw [hi] at hj
            cases hj
            apply lt_irrefl _ hlt
          · obtain ⟨hilt, rfl⟩ := List.getElem?_eq_some_iff.mp hi
            obtain ⟨hjlt, rfl⟩ := List.getElem?_eq_some_iff.mp hj
            have hle := List.pairwise_iff_getElem.mp (hordered hzero) j i hjlt hilt hji hb ha
            omega
        · apply hij
      omega
  · rw [numberedSequences_of_notMem hzero]
    constructor
    · intro _ hin
      cases hzero hin
    · intro _ i j a b a' b' hi hj hi' hj' hbefore
      rw [hi] at hi'
      rw [hj] at hj'
      cases hi'
      cases hj'
      rcases hbefore with ⟨-, -, hlt⟩ | ⟨rfl, -, -⟩
      · apply hlt
      · cases hzero (List.mem_of_getElem? hi)

/-- The backfill leaves every event above a cursor that was not delivered, when the cursor is not
above the number of its row. -/
theorem undelivered_numberedSequences (h : 0 ∉ before → ∀ sequence ∈ before, 0 < sequence)
    {cursor : ℤ} :
  (∀ (i : ℕ) (a a' : ℤ), before[i]? = some a → (numberedSequences before)[i]? = some a' →
      ¬(0 < a ∧ a ≤ cursor) → cursor < a')
    ↔ (0 ∈ before → ∀ (earlier : ℕ) (a : ℤ), before[earlier]? = some a →
      ¬(0 < a ∧ a ≤ cursor) → cursor ≤ earlier)
  := by
  by_cases hzero : 0 ∈ before
  · rw [numberedSequences_of_mem hzero]
    constructor
    · intro hall _ earlier a hget hnot
      obtain ⟨hlt, -⟩ := List.getElem?_eq_some_iff.mp hget
      have hcursor := hall earlier a _ hget (getElem?_firstNumbers hlt) hnot
      omega
    · intro hall i a a' hget hget' hnot
      rw [eq_of_getElem?_firstNumbers hget']
      have hcursor := hall hzero i a hget hnot
      omega
  · rw [numberedSequences_of_notMem hzero]
    constructor
    · intro _ hin
      cases hzero hin
    · intro _ i a a' hget hget' hnot
      rw [hget] at hget'
      cases hget'
      have hpositive := h hzero a (List.mem_of_getElem? hget)
      by_contra hle
      apply hnot ⟨hpositive, not_lt.mp hle⟩

end

/-! ### Upgraded databases -/

/-- What the migration leaves, table by table. -/
theorem parts_of_ok {db db' : SqliteDatabase} (h : ensureSchemaColumns db = .ok db') :
  ∃ events runs entries versions indexed,
    backfillEventSequences (db.events.withColumns eventAdditions) = .ok events
      ∧ repairFinishedRuns (db.runs.withColumns runAdditions) = .ok runs
      ∧ (db.repositoryEntries.withColumns repositoryEntryAdditions).createUniqueIndex
          activeProjectName = .ok entries
      ∧ (db.repositoryVersions.withColumns repositoryVersionAdditions).createUniqueIndex
          entryVersion = .ok versions
      ∧ events.createUniqueIndex causalSequenceIndex = .ok indexed
      ∧ db' = { db with
        jobs := db.jobs.withColumns jobAdditions
        runs := runs
        fanouts := db.fanouts.withColumns projectAdditions
        schedules := db.schedules.withColumns projectAdditions
        events := indexed
        longServices := db.longServices.withColumns longServiceAdditions
        repositoryEntries := entries
        repositoryVersions := versions
        causalSequence := some (max (db.causalSequence.getD (highestSequence events))
          (highestSequence events)) }
  := by
  rw [ensureSchemaColumns_eq] at h
  obtain ⟨events, hevents, h⟩ := Except.bind_eq_ok.mp h
  obtain ⟨runs, hruns, h⟩ := Except.bind_eq_ok.mp h
  obtain ⟨entries, hentries, h⟩ := Except.bind_eq_ok.mp h
  obtain ⟨versions, hversions, h⟩ := Except.bind_eq_ok.mp h
  obtain ⟨indexed, hindexed, h⟩ := Except.bind_eq_ok.mp h
  exact ⟨events, runs, entries, versions, indexed, hevents, hruns, hentries, hversions, hindexed,
    (Except.ok.inj h).symm⟩

/-- No sequence is above the highest. -/
theorem le_highestSequence {events : Table} {sequence : ℤ} (h : sequence ∈ sequences events) :
  sequence ≤ highestSequence events
  := by
  rw [highestSequence]
  cases hmax : (sequences events).max? with
  | none =>
      rw [List.max?_eq_none_iff.mp hmax] at h
      cases h
  | some highest => apply (List.max?_le_iff hmax).mp (le_refl highest) sequence h

/-- An upgrade that completes keeps the event log exactly when the log can be kept. -/
theorem eventLogKept_iff (db : LegacyDatabase) {db' : SqliteDatabase}
    (hnumbered : 0 ∉ db.legacySequences → db.legacySequences.Nodup)
    (h : ensureSchemaColumns db.toSqliteDatabase = .ok db') :
  EventLogKept db.toSqliteDatabase db' ↔ db.toSqliteDatabase.LogKeepable
  := by
  obtain ⟨events, runs, entries, versions, indexed, hevents, -, -, -, hindexed, rfl⟩ :=
    parts_of_ok h
  obtain ⟨-, hrows, -⟩ := Table.createUniqueIndex_ok hindexed
  obtain ⟨hsequences, hids⟩ := db.numberable.sequences_backfill hevents
  rw [sequences_withColumns] at hsequences
  have hafter : sequences indexed = numberedSequences db.legacySequences := by
    rw [← hsequences, sequences, sequences, hrows]
  constructor
  · intro hkept
    have hpositive := hkept.positive
    have hordered := hkept.ordered
    have hundelivered := hkept.undelivered
    simp only [hafter] at hpositive hordered hundelivered
    have hpositive := positive_numberedSequences.mp hpositive
    constructor
    · apply hpositive
    · apply ordered_numberedSequences.mp hordered
    · intro hzero delivery hdelivery
      apply (undelivered_numberedSequences hpositive).mp (hundelivered delivery hdelivery) hzero
  · intro hkeepable
    constructor
    · simp only [hrows, hids, Table.rows_withColumns]
      apply db.ids_upgraded
    · simp only [hafter]
      apply positive_numberedSequences.mpr hkeepable.positive
    · simp only [hafter]
      apply nodup_numberedSequences hnumbered
    · simp only [hafter]
      apply ordered_numberedSequences.mpr hkeepable.ordered
    · refine ⟨_, rfl, ?_⟩
      intro sequence hsequence
      apply le_trans _ (le_max_right _ _)
      apply le_highestSequence
      rw [hsequences, ← hafter]
      apply hsequence
    · simp only [hafter]
      intro delivery hdelivery
      apply (undelivered_numberedSequences hkeepable.positive).mpr
      intro hzero
      apply hkeepable.undelivered hzero delivery hdelivery

/-! ### Upgrading again -/

/-- A run that was repaired is not changed again. -/
theorem write_finished_idem (run : Row) :
  Row.write "finished_at" finishedAt (Row.write "finished_at" finishedAt run)
    = Row.write "finished_at" finishedAt run
  := by
  by_cases hneeds : finishNeedsRepair run = true
  · have hrepaired : Row.write "finished_at" finishedAt run
        = Function.update run "finished_at" (run "started_at") := by
      rw [Row.write, finishedAt, if_pos hneeds]
      rfl
    rw [hrepaired, Row.write, finishedAt]
    split
    case isTrue => simp
    case isFalse => rfl
  · have hsame : Row.write "finished_at" finishedAt run = run := by
      rw [Row.write, finishedAt, if_neg hneeds]
      rfl
    rw [hsame, hsame]

/-- A database that the migration does not change. -/
structure Current (db : SqliteDatabase) : Prop where
  jobs : ∀ column ∈ jobAdditions, column.name ∈ db.jobs.columns
  runs : ∀ column ∈ runAdditions, column.name ∈ db.runs.columns
  fanouts : ∀ column ∈ projectAdditions, column.name ∈ db.fanouts.columns
  schedules : ∀ column ∈ projectAdditions, column.name ∈ db.schedules.columns
  events : ∀ column ∈ eventAdditions, column.name ∈ db.events.columns
  longServices : ∀ column ∈ longServiceAdditions, column.name ∈ db.longServices.columns
  entries : ∀ column ∈ repositoryEntryAdditions, column.name ∈ db.repositoryEntries.columns
  versions : ∀ column ∈ repositoryVersionAdditions, column.name ∈ db.repositoryVersions.columns
  numbered : db.events.rows.any (fun row => decide (row "sequence" = .integer 0)) = false
  counted : ∃ counter, db.causalSequence = some counter ∧ highestSequence db.events ≤ counter
  finishedColumn : "finished_at" ∈ db.runs.columns
  finished : ∀ run ∈ db.runs.rows, Row.write "finished_at" finishedAt run = run
  entryIndex : ∃ index ∈ db.repositoryEntries.indexes, index.name = activeProjectName.name
  versionIndex : ∃ index ∈ db.repositoryVersions.indexes, index.name = entryVersion.name
  eventIndex : ∃ index ∈ db.events.indexes, index.name = causalSequenceIndex.name

/-- The migration completes on such a database, and leaves it as it is. -/
theorem Current.ensureSchemaColumns_eq {db : SqliteDatabase} (h : Current db) :
  ensureSchemaColumns db = .ok db
  := by
  obtain ⟨counter, hcounter, hhighest⟩ := h.counted
  have hbackfill : backfillEventSequences db.events = .ok db.events := by
    rw [backfillEventSequences, h.numbered]
    rfl
  have hrepair : repairFinishedRuns db.runs = .ok db.runs :=
    Table.update_eq h.finishedColumn h.finished
  rw [GoblinKing.ensureSchemaColumns_eq, Table.withColumns_eq h.jobs, Table.withColumns_eq h.runs,
    Table.withColumns_eq h.fanouts, Table.withColumns_eq h.schedules, Table.withColumns_eq h.events,
    Table.withColumns_eq h.longServices, Table.withColumns_eq h.entries,
    Table.withColumns_eq h.versions, hbackfill, hrepair, Table.createUniqueIndex_eq h.entryIndex,
    Table.createUniqueIndex_eq h.versionIndex]
  simp only [bind, Except.bind]
  rw [Table.createUniqueIndex_eq h.eventIndex, hcounter, Option.getD_some, max_eq_left hhighest,
    ← hcounter]

/-- A column that is added is there. -/
theorem names_withColumns (additions : List Column) (table : Table) :
  ∀ column ∈ additions, column.name ∈ (table.withColumns additions).columns
  := by
  intro column hcolumn
  apply Table.mem_columns_withColumns.mpr
  apply Or.inr (List.mem_map_of_mem hcolumn)

/-- An upgrade that completes leaves a database that is not changed again. -/
theorem current_of_ok (db : LegacyDatabase) {db' : SqliteDatabase}
    (h : ensureSchemaColumns db.toSqliteDatabase = .ok db') :
  Current db'
  := by
  obtain ⟨events, runs, entries, versions, indexed, hevents, hruns, hentries, hversions, hindexed,
    rfl⟩ := parts_of_ok h
  obtain ⟨hentryColumns, -, hentryIndex⟩ := Table.createUniqueIndex_ok hentries
  obtain ⟨hversionColumns, -, hversionIndex⟩ := Table.createUniqueIndex_ok hversions
  obtain ⟨heventColumns, heventRows, heventIndex⟩ := Table.createUniqueIndex_ok hindexed
  obtain ⟨hrunColumns, -, hrunRows⟩ := Table.update_ok hruns
  obtain ⟨hbackfilled, -⟩ := backfill_ok hevents
  obtain ⟨hsequences, -⟩ := db.numberable.sequences_backfill hevents
  have hfinished : "finished_at" ∈ runs.columns := by
    rw [hrunColumns]
    apply Table.mem_columns_withColumns.mpr
    apply Or.inl (db.runColumns _ (by decide))
  have hnumbered : events.rows.any (fun row => decide (row "sequence" = .integer 0)) = false := by
    rw [List.any_eq_false]
    intro row hrow hzero
    apply zero_notMem_numberedSequences
    rw [← hsequences]
    apply List.mem_map.mpr
    use row, hrow
    rw [of_decide_eq_true hzero, Value.number]
  constructor
  · exact names_withColumns jobAdditions db.jobs
  · rw [hrunColumns]
    exact names_withColumns runAdditions db.runs
  · exact names_withColumns projectAdditions db.fanouts
  · exact names_withColumns projectAdditions db.schedules
  · rw [heventColumns, hbackfilled]
    exact names_withColumns eventAdditions db.events
  · exact names_withColumns longServiceAdditions db.longServices
  · rw [hentryColumns]
    exact names_withColumns repositoryEntryAdditions db.repositoryEntries
  · rw [hversionColumns]
    exact names_withColumns repositoryVersionAdditions db.repositoryVersions
  · rw [heventRows]
    apply hnumbered
  · refine ⟨_, rfl, ?_⟩
    have hsame : highestSequence indexed = highestSequence events := by
      rw [highestSequence, highestSequence, sequences, sequences, heventRows]
    rw [hsame]
    apply le_max_right
  · apply hfinished
  · rw [hrunRows]
    intro run hrun
    obtain ⟨old, -, rfl⟩ := List.mem_map.mp hrun
    apply write_finished_idem
  · apply hentryIndex
  · apply hversionIndex
  · apply heventIndex

/-- The migration completes only on rows that can be indexed, with sequences that differ where all
events have one. -/
theorem sequences_differ_of_ok (db : LegacyDatabase) {db' : SqliteDatabase}
    (h : ensureSchemaColumns db.toSqliteDatabase = .ok db') :
  0 ∉ db.legacySequences → db.legacySequences.Nodup
  := by
  obtain ⟨events, runs, entries, versions, indexed, hevents, -, -, -, hindexed, -⟩ := parts_of_ok h
  apply (db.events_isOk.mp ⟨events, indexed, hevents, hindexed⟩).1

/-- For every content of a legacy database: the migration completes, keeps the event log and its
delivery, and changes nothing when it runs again, exactly when the rows can be indexed and the log
can be kept. -/
theorem event_log_kept_iff (db : LegacyDatabase) :
  (∃ db', ensureSchemaColumns db.toSqliteDatabase = .ok db'
      ∧ EventLogKept db.toSqliteDatabase db' ∧ ensureSchemaColumns db' = .ok db')
    ↔ db.toSqliteDatabase.Migratable ∧ db.toSqliteDatabase.LogKeepable
  := by
  rw [← db.isOk_iff]
  constructor
  · rintro ⟨db', hok, hkept, -⟩
    exact ⟨⟨db', hok⟩, (eventLogKept_iff db (sequences_differ_of_ok db hok) hok).mp hkept⟩
  · rintro ⟨⟨db', hok⟩, hkeepable⟩
    refine ⟨db', hok, ?_, (current_of_ok db hok).ensureSchemaColumns_eq⟩
    apply (eventLogKept_iff db (sequences_differ_of_ok db hok) hok).mpr hkeepable

/-- Three events: two were numbered, one of them is delivered, and the third has no number. -/
def partlyNumbered : LegacyDatabase :=
  { bareDatabase with
    events := unindexed ["id", "sequence"] [[("id", .text "a"), ("sequence", .integer 5)],
      [("id", .text "b"), ("sequence", .integer 6)], [("id", .text "c"), ("sequence", .integer 0)]]
    causalSequence := some 6
    eventStreamDeliveries := [⟨"stream", 5, some 0⟩]
    eventIds := by decide
    eventIdsGiven := by decide
    eventSequences := by simp [unindexed, List.lookup_cons]
    eventIndexes := by simp [unindexed]
    eventIndexNames := by simp [unindexed] }

/-- The events are numbered again from the first, and all are below the cursor. -/
theorem renumbered_event_lost :
  ¬∀ db : LegacyDatabase, ∃ db', ensureSchemaColumns db.toSqliteDatabase = .ok db'
      ∧ EventLogKept db.toSqliteDatabase db' ∧ ensureSchemaColumns db' = .ok db'
  := by
  intro h
  obtain ⟨db', hok, hkept, -⟩ := h partlyNumbered
  have hsequences : partlyNumbered.legacySequences = [5, 6, 0] := by decide
  have hkeepable :=
    (eventLogKept_iff partlyNumbered (sequences_differ_of_ok partlyNumbered hok) hok).mp hkept
  -- The second event has sequence 6, it is not delivered, and one row is before it.
  have hcursor : (5 : ℤ) ≤ (1 : ℕ) :=
    hkeepable.undelivered (by simp [hsequences]) ⟨"stream", 5, some 0⟩ List.mem_cons_self 1 6
      (by simp [hsequences]) (by simp)
  omega

end GoblinKing
