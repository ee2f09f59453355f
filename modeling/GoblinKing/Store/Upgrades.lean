import GoblinKing.Store.Migrations

/-!
# Upgrades of a database

When the migration completes, and what it makes of the event log. Columns are added and finished
runs are repaired in every database. The unique indexes are created over columns some of which
have just received their defaults, and events that have numbers are numbered again when one of
them has none.
-/

namespace GoblinKing

open Sql

/-! ### Conditions on a database -/

/-- The rows of a table with the defaults of the columns that it lacks. -/
def upgraded (table : Table) (additions : List Column) : List Row :=
  table.rows.map (fill table.columns additions)

/-- The sequences of the events before the upgrade, 0 where there is none. -/
def SqliteDatabase.legacySequences (db : SqliteDatabase) : List ℤ :=
  (upgraded db.events eventAdditions).map (fun row => (row "sequence").number)

/-- No event has the number of an earlier row as its sequence. -/
def RenumberedApart (sequences : List ℤ) : Prop :=
  ∀ (earlier : ℕ) (sequence : ℤ), sequences[earlier]? = some sequence →
    ¬(0 < sequence ∧ sequence ≤ earlier)

/-- The migration completes: with the defaults of the missing columns, no two entries that are not
retired have the same project and name, and no two versions the same entry and number. When all
events have sequences, these differ; and when one has none while the index is there, no event has
the number of an earlier row as its sequence. -/
structure SqliteDatabase.Migratable (db : SqliteDatabase) : Prop where
  entries : activeProjectName.Holds (upgraded db.repositoryEntries repositoryEntryAdditions)
  versions : entryVersion.Holds (upgraded db.repositoryVersions repositoryVersionAdditions)
  numbered : 0 ∉ db.legacySequences → db.legacySequences.Nodup
  renumbered : 0 ∈ db.legacySequences → causalSequenceIndex ∈ db.events.indexes →
    RenumberedApart db.legacySequences

/-! ### Columns are added -/

/-- Columns that are named once and have defaults where they need them. -/
def Additions (columns : List Column) : Prop :=
  (columns.map Column.name).Nodup ∧ ∀ column ∈ columns, column.addable = true

instance (columns : List Column) : Decidable (Additions columns) :=
  inferInstanceAs (Decidable (_ ∧ _))

/-- Such columns are added to any table. -/
theorem Additions.addColumns_eq {columns : List Column} (h : Additions columns) (table : Table) :
  Table.addColumns table.columns columns table = .ok (table.withColumns columns)
  := Table.addColumns_ok h.1 h.2 (fun _ _ => Iff.rfl)

/-- The migration once all columns are added. -/
theorem ensureSchemaColumns_eq (db : SqliteDatabase) :
  ensureSchemaColumns db = (do
    let events ← backfillEventSequences (db.events.withColumns eventAdditions)
    let runs ← repairFinishedRuns (db.runs.withColumns runAdditions)
    let entries ← (db.repositoryEntries.withColumns repositoryEntryAdditions).createUniqueIndex
      activeProjectName
    let versions ← (db.repositoryVersions.withColumns repositoryVersionAdditions).createUniqueIndex
      entryVersion
    let indexed ← events.createUniqueIndex causalSequenceIndex
    .ok { db with
      jobs := db.jobs.withColumns jobAdditions
      runs := runs
      fanouts := db.fanouts.withColumns projectAdditions
      schedules := db.schedules.withColumns projectAdditions
      events := indexed
      longServices := db.longServices.withColumns longServiceAdditions
      repositoryEntries := entries
      repositoryVersions := versions
      causalSequence := some (max (db.causalSequence.getD (highestSequence events))
        (highestSequence events)) })
  := by
  have hjobs : Additions jobAdditions := by decide
  have hruns : Additions runAdditions := by decide
  have hprojects : Additions projectAdditions := by decide
  have hevents : Additions eventAdditions := by decide
  have hservices : Additions longServiceAdditions := by decide
  have hentries : Additions repositoryEntryAdditions := by decide
  have hversions : Additions repositoryVersionAdditions := by decide
  rw [ensureSchemaColumns, hjobs.addColumns_eq, hruns.addColumns_eq, hprojects.addColumns_eq,
    hprojects.addColumns_eq, hevents.addColumns_eq, hservices.addColumns_eq, hentries.addColumns_eq,
    hversions.addColumns_eq]
  simp only [bind, Except.bind]

/-- The value of a column after the upgrade that is not added. -/
theorem fill_of_none {inspected : List String} {additions : List Column} {name : String}
    (h : addedDefault inspected additions name = none) (row : Row) :
  fill inspected additions row name = row name
  := by
  rw [fill, h, Option.getD_none]

/-! ### Events are numbered -/

/-- The rows of events have numbers as their sequences. -/
def NumberedRows (rows : List Row) : Prop :=
  ∀ row ∈ rows, ∃ n, row "sequence" = .integer n

/-- The index over the sequences holds when the sequences differ. -/
theorem holds_causalSequenceIndex {rows : List Row} (h : NumberedRows rows) :
  causalSequenceIndex.Holds rows
    ↔ (rows.map (fun row => (row "sequence").number)).Nodup
  := by
  have hkeys : rows.filterMap causalSequenceIndex.key
      = (rows.map (fun row => (row "sequence").number)).map (fun n => [Value.integer n]) := by
    rw [List.map_map, ← List.filterMap_eq_map]
    apply List.filterMap_congr
    intro row hrow
    obtain ⟨n, hn⟩ := h row hrow
    simp [UniqueIndex.key, causalSequenceIndex, Term.eval, hn, Value.number]
  rw [UniqueIndex.Holds, hkeys, List.nodup_map_iff]
  intro a b hab
  simpa using hab

/-- The events have sequences after the columns were added. -/
theorem LegacyDatabase.numberedRows (db : LegacyDatabase) :
  NumberedRows (upgraded db.events eventAdditions)
  := by
  intro row hrow
  obtain ⟨old, hold, rfl⟩ := List.mem_map.mp hrow
  by_cases hthere : "sequence" ∈ db.events.columns
  · obtain ⟨n, hn⟩ := db.eventSequences hthere old hold
    use n
    rw [fill_of_none _ old, hn]
    simp [addedDefault, eventAdditions, nullable, integerColumn, hthere]
  · use 0
    simp [fill, addedDefault, eventAdditions, nullable, integerColumn, hthere]

/-- The identifiers of events stay when columns are added. -/
theorem LegacyDatabase.ids_upgraded (db : LegacyDatabase) :
  (upgraded db.events eventAdditions).map (fun row => row "id")
    = db.events.rows.map (fun row => row "id")
  := by
  rw [upgraded, List.map_map]
  apply List.map_congr_left
  intro row _
  apply fill_of_none
  simp [addedDefault, eventAdditions, nullable, integerColumn]

/-- The number of an event is that of its position. -/
theorem causalSequence_eq {rows : List Row} (hids : (rows.map (fun row => row "id")).Nodup)
    (hgiven : ∀ row ∈ rows, row "id" ≠ .null) {position : ℕ} {row : Row}
    (h : rows[position]? = some row) :
  causalSequence rows row = .integer (position + 1)
  := by
  have hfind : rows.findIdx? (fun other => decide (other "id" = row "id" ∧ row "id" ≠ .null))
      = some position := by
    obtain ⟨hlt, hrow⟩ := List.getElem?_eq_some_iff.mp h
    rw [List.findIdx?_eq_some_iff_getElem]
    refine ⟨hlt, ?_, ?_⟩
    · rw [hrow]
      apply decide_eq_true
      exact ⟨rfl, hgiven row (List.mem_of_getElem? h)⟩
    · intro other hother hsame
      have hsame' : rows[other] "id" = row "id" := (of_decide_eq_true hsame).1
      apply List.nodup_iff_getElem?_ne_getElem?.mp hids other position hother (by simpa using hlt)
      rw [List.getElem?_map, List.getElem?_map, h, List.getElem?_eq_getElem (by omega),
        Option.map_some, Option.map_some, hsame']
  rw [causalSequence, hfind]

/-- The first numbers. -/
def firstNumbers (count : ℕ) : List ℤ :=
  (List.range count).map (fun position : ℕ => (position : ℤ) + 1)

/-- The first numbers are the positive numbers up to a bound. -/
theorem mem_firstNumbers {count : ℕ} {n : ℤ} :
  n ∈ firstNumbers count ↔ 0 < n ∧ n ≤ count
  := by
  rw [firstNumbers, List.mem_map]
  constructor
  · rintro ⟨position, hposition, rfl⟩
    rw [List.mem_range] at hposition
    omega
  · rintro ⟨hpositive, hle⟩
    refine ⟨(n - 1).toNat, ?_, ?_⟩
    · rw [List.mem_range]
      omega
    · omega

/-- The first numbers differ. -/
theorem nodup_firstNumbers (count : ℕ) :
  (firstNumbers count).Nodup
  := by
  apply List.Nodup.map _ List.nodup_range
  intro a b hab
  simp only at hab
  omega

/-- Rows from the beginning have the first numbers when they are numbered. -/
theorem numbers_renumbered {rows initial : List Row}
    (hids : (rows.map (fun row => row "id")).Nodup) (hgiven : ∀ row ∈ rows, row "id" ≠ .null)
    (hinitial : initial <+: rows) :
  (initial.map (Row.write "sequence" (fun row => some (causalSequence rows row)))).map
      (fun row => (row "sequence").number)
    = firstNumbers initial.length
  := by
  apply List.ext_getElem?
  intro position
  rw [firstNumbers, List.getElem?_map, List.getElem?_map, List.getElem?_map]
  cases hrow : initial[position]? with
  | none =>
      rw [List.getElem?_eq_none_iff] at hrow
      rw [List.getElem?_eq_none (by simpa using hrow)]
      rfl
  | some row =>
      obtain ⟨hlt, -⟩ := List.getElem?_eq_some_iff.mp hrow
      obtain ⟨rest, rfl⟩ := hinitial
      have hthere : (initial ++ rest)[position]? = some row := by
        rw [List.getElem?_append_left hlt, hrow]
      rw [List.getElem?_range hlt, Option.map_some, Option.map_some, Option.map_some, Row.write,
        causalSequence_eq hids hgiven hthere]
      simp [Value.number]

/-- Rows that are numbered have numbers. -/
theorem numberedRows_renumbered {rows initial : List Row}
    (hids : (rows.map (fun row => row "id")).Nodup) (hgiven : ∀ row ∈ rows, row "id" ≠ .null)
    (hinitial : initial <+: rows) :
  NumberedRows (initial.map (Row.write "sequence" (fun row => some (causalSequence rows row))))
  := by
  intro row hrow
  obtain ⟨old, hold, rfl⟩ := List.mem_map.mp hrow
  obtain ⟨position, hposition⟩ := List.getElem?_of_mem (hinitial.subset hold)
  use position + 1
  rw [Row.write, causalSequence_eq hids hgiven hposition]
  simp

/-- Numbering from the beginning runs into no number when the later sequences are none of those
that were given. -/
theorem renumberedApart_iff {sequences : List ℤ} (h : sequences.Nodup) :
  (∀ earlier sequence later, sequences = earlier ++ sequence :: later →
      (firstNumbers (earlier.length + 1) ++ later).Nodup)
    ↔ RenumberedApart sequences
  := by
  constructor
  · intro hstages earlier sequence hsequence hbetween
    obtain ⟨hpositive, hle⟩ := hbetween
    obtain ⟨hlt, hget⟩ := List.getElem?_eq_some_iff.mp hsequence
    have hbefore : earlier - 1 < sequences.length := by omega
    have hsplit : sequences = sequences.take (earlier - 1)
        ++ sequences[earlier - 1] :: sequences.drop (earlier - 1 + 1) := by
      rw [← List.drop_eq_getElem_cons hbefore, List.take_append_drop]
    have hnodup := hstages _ _ _ hsplit
    have hnumber : sequence ∈ firstNumbers ((sequences.take (earlier - 1)).length + 1) := by
      rw [mem_firstNumbers, List.length_take]
      omega
    have hlater : sequence ∈ sequences.drop (earlier - 1 + 1) := by
      rw [show earlier - 1 + 1 = earlier by omega, List.drop_eq_getElem_cons hlt, hget]
      apply List.mem_cons_self
    apply List.disjoint_of_nodup_append hnodup hnumber hlater
  · intro hapart earlier sequence later hsplit
    apply List.Nodup.append (nodup_firstNumbers _)
    · rw [hsplit] at h
      apply (List.nodup_cons.mp (h.of_append_right)).2
    · intro n hnumber hlater
      obtain ⟨position, hposition⟩ := List.getElem?_of_mem hlater
      have hthere : sequences[earlier.length + 1 + position]? = some n := by
        rw [hsplit, List.getElem?_append_right (by omega)]
        rw [show earlier.length + 1 + position - earlier.length = position + 1 by omega]
        simpa using hposition
      apply hapart _ _ hthere
      rw [mem_firstNumbers] at hnumber
      omega

/-- Number all rows of events. -/
def renumberRow (rows : List Row) : Row → Row :=
  Row.write "sequence" (fun row => some (causalSequence rows row))

/-- The index over the sequences after some rows are numbered. -/
theorem holds_stage {rows earlier later : List Row} {row : Row} (hnumbers : NumberedRows rows)
    (hids : (rows.map (fun row => row "id")).Nodup) (hgiven : ∀ row ∈ rows, row "id" ≠ .null)
    (hsplit : rows = earlier ++ row :: later) :
  causalSequenceIndex.Holds ((earlier ++ [row]).map (renumberRow rows) ++ later)
    ↔ (firstNumbers (earlier.length + 1)
        ++ later.map (fun row => (row "sequence").number)).Nodup
  := by
  have hprefix : earlier ++ [row] <+: rows := by
    use later
    rw [hsplit, List.append_assoc, List.singleton_append]
  have hstage : NumberedRows ((earlier ++ [row]).map (renumberRow rows) ++ later) := by
    intro other hother
    rcases List.mem_append.mp hother with hother | hother
    · apply numberedRows_renumbered hids hgiven hprefix other hother
    · apply hnumbers other
      rw [hsplit]
      apply List.mem_append_right _ (List.mem_cons_of_mem row hother)
  rw [holds_causalSequenceIndex hstage, List.map_append, renumberRow,
    numbers_renumbered hids hgiven hprefix, List.length_append, List.length_singleton]

/-- The index over the sequences holds when all rows are numbered. -/
theorem holds_renumbered {rows : List Row} (hids : (rows.map (fun row => row "id")).Nodup)
    (hgiven : ∀ row ∈ rows, row "id" ≠ .null) :
  causalSequenceIndex.Holds (rows.map (renumberRow rows))
  := by
  rw [renumberRow, holds_causalSequenceIndex (numberedRows_renumbered hids hgiven List.prefix_rfl),
    numbers_renumbered hids hgiven List.prefix_rfl]
  apply nodup_firstNumbers

/-! ### Completion -/

/-- Events that can be numbered have distinct identifiers, numbers as sequences, and no other index
over these than that of the migration. -/
structure Numberable (events : Table) : Prop where
  column : "sequence" ∈ events.columns
  numbers : NumberedRows events.rows
  ids : (events.rows.map (fun row => row "id")).Nodup
  given : ∀ row ∈ events.rows, row "id" ≠ .null
  indexes : ∀ index ∈ events.indexes, "sequence" ∈ index.columns → index = causalSequenceIndex

section

variable {events : Table}

/-- An event without a number is one whose sequence is 0. -/
theorem Numberable.any_zero (h : Numberable events) :
  events.rows.any (fun row => decide (row "sequence" = .integer 0)) = true
    ↔ 0 ∈ sequences events
  := by
  rw [List.any_eq_true, sequences, List.mem_map]
  constructor
  · rintro ⟨row, hrow, hzero⟩
    use row, hrow
    rw [of_decide_eq_true hzero, Value.number]
  · rintro ⟨row, hrow, hzero⟩
    obtain ⟨n, hn⟩ := h.numbers row hrow
    use row, hrow
    rw [hn, Value.number] at hzero
    rw [hn, hzero, decide_eq_true rfl]

/-- The sequences differ where the index is. -/
theorem Numberable.nodup (h : Numberable events) (hindex : causalSequenceIndex ∈ events.indexes) :
  (sequences events).Nodup
  := (holds_causalSequenceIndex h.numbers).mp (events.unique _ hindex)

/-- All events can be numbered, unless the index is there and the numbering runs into a sequence. -/
theorem Numberable.update_isOk (h : Numberable events) :
  (∃ numbered, events.update "sequence" (fun row => some (causalSequence events.rows row))
      = .ok numbered)
    ↔ (causalSequenceIndex ∈ events.indexes → RenumberedApart (sequences events))
  := by
  rw [Table.update_isOk h.column]
  constructor
  · intro hstages hindex
    rw [← renumberedApart_iff (h.nodup hindex)]
    intro earlier sequence later hsplit
    obtain ⟨before, rest, hrows, rfl, hrest⟩ := List.map_eq_append_iff.mp hsplit
    obtain ⟨row, after, rfl, -, rfl⟩ := List.map_eq_cons_iff.mp hrest
    rw [List.length_map, ← holds_stage h.numbers h.ids h.given hrows]
    exact hstages before row after hrows _ hindex
  · intro hapart earlier row later hsplit index hindex
    by_cases hover : "sequence" ∈ index.columns
    · obtain rfl := h.indexes index hindex hover
      refine (holds_stage h.numbers h.ids h.given hsplit).mpr ?_
      have hstages := (renumberedApart_iff (h.nodup hindex)).mpr (hapart hindex)
      rw [← List.length_map (fun row : Row => (row "sequence").number)]
      apply hstages _ ((row "sequence").number)
      rw [sequences, hsplit, List.map_append, List.map_cons]
    · rw [UniqueIndex.holds_map_write hover, List.append_assoc, List.singleton_append, ← hsplit]
      apply events.unique index hindex

/-- The backfill completes, and the index holds after it, exactly when the sequences differ or the
numbering runs into none of them. -/
theorem Numberable.backfill_isOk (h : Numberable events) :
  (∃ numbered, backfillEventSequences events = .ok numbered
      ∧ causalSequenceIndex.Holds numbered.rows)
    ↔ (0 ∉ sequences events → (sequences events).Nodup)
      ∧ (0 ∈ sequences events → causalSequenceIndex ∈ events.indexes →
        RenumberedApart (sequences events))
  := by
  rw [backfillEventSequences]
  by_cases hzero : 0 ∈ sequences events
  · rw [if_pos (h.any_zero.mpr hzero)]
    constructor
    · rintro ⟨numbered, hok, -⟩
      exact ⟨fun hnot => absurd hzero hnot, fun _ => h.update_isOk.mp ⟨numbered, hok⟩⟩
    · rintro ⟨-, hapart⟩
      obtain ⟨numbered, hok⟩ := h.update_isOk.mpr (hapart hzero)
      refine ⟨numbered, hok, ?_⟩
      rw [(Table.update_ok hok).2.2]
      apply holds_renumbered h.ids h.given
  · rw [if_neg (fun hany => hzero (h.any_zero.mp hany))]
    constructor
    · rintro ⟨numbered, hok, hholds⟩
      cases hok
      exact ⟨fun _ => (holds_causalSequenceIndex h.numbers).mp hholds, fun hin => absurd hin hzero⟩
    · rintro ⟨hnodup, -⟩
      exact ⟨events, rfl, (holds_causalSequenceIndex h.numbers).mpr (hnodup hzero)⟩

/-- The backfill keeps the columns and the indexes. -/
theorem backfill_ok {numbered : Table} (h : backfillEventSequences events = .ok numbered) :
  numbered.columns = events.columns ∧ numbered.indexes = events.indexes
  := by
  rw [backfillEventSequences] at h
  split at h
  case isTrue =>
    obtain ⟨hcolumns, hindexes, -⟩ := Table.update_ok h
    exact ⟨hcolumns, hindexes⟩
  case isFalse =>
    cases h
    exact ⟨rfl, rfl⟩

end

/-- The events can be numbered when they have received their columns. -/
theorem LegacyDatabase.numberable (db : LegacyDatabase) :
  Numberable (db.events.withColumns eventAdditions)
  where
  column := Table.mem_columns_withColumns.mpr (.inr (by decide))
  numbers := by
    rw [Table.rows_withColumns]
    apply db.numberedRows
  ids := by
    rw [Table.rows_withColumns]
    exact db.ids_upgraded ▸ db.eventIds
  given := by
    intro row hrow
    rw [Table.rows_withColumns] at hrow
    have hid : row "id" ∈ db.events.rows.map (fun row => row "id") := by
      rw [← db.ids_upgraded]
      apply List.mem_map_of_mem hrow
    obtain ⟨old, hold, hsame⟩ := List.mem_map.mp hid
    rw [← hsame]
    apply db.eventIdsGiven old hold
  indexes := by
    rw [Table.indexes_withColumns]
    apply db.eventIndexes

/-- The sequences once the columns are added. -/
theorem sequences_withColumns (db : SqliteDatabase) :
  sequences (db.events.withColumns eventAdditions) = db.legacySequences
  := by
  rw [sequences, Table.rows_withColumns]
  rfl

/-- The runs can be repaired. -/
theorem LegacyDatabase.repairs (db : LegacyDatabase) :
  ∃ runs, repairFinishedRuns (db.runs.withColumns runAdditions) = .ok runs
  := by
  apply Table.update_isOk_of_notMem
  · apply Table.mem_columns_withColumns.mpr
    apply Or.inl (db.runColumns _ (by decide))
  · rw [Table.indexes_withColumns]
    apply db.runIndexes

/-- An index whose columns are added can be created exactly when it holds with the defaults. -/
theorem createUniqueIndex_withColumns (additions : List Column) {table : Table}
    {index : UniqueIndex}
    (hcolumns : ∀ name ∈ index.columns, name ∈ additions.map Column.name)
    (hsame : ∀ other ∈ table.indexes, other.name = index.name → other = index) :
  (∃ table', (table.withColumns additions).createUniqueIndex index = .ok table')
    ↔ index.Holds (upgraded table additions)
  := by
  rw [upgraded, ← Table.rows_withColumns]
  apply Table.createUniqueIndex_isOk
  · intro name hname
    apply Table.mem_columns_withColumns.mpr (.inr (hcolumns name hname))
  · rw [Table.indexes_withColumns]
    apply hsame

/-- The events can be numbered and indexed exactly when their sequences differ, or the numbering
runs into none of them. -/
theorem LegacyDatabase.events_isOk (db : LegacyDatabase) :
  (∃ events indexed, backfillEventSequences (db.events.withColumns eventAdditions) = .ok events
      ∧ events.createUniqueIndex causalSequenceIndex = .ok indexed)
    ↔ (0 ∉ db.legacySequences → db.legacySequences.Nodup)
      ∧ (0 ∈ db.legacySequences → causalSequenceIndex ∈ db.events.indexes →
        RenumberedApart db.legacySequences)
  := by
  have hbackfill := db.numberable.backfill_isOk
  rw [sequences_withColumns, Table.indexes_withColumns] at hbackfill
  rw [← hbackfill]
  have hindex : ∀ events, backfillEventSequences (db.events.withColumns eventAdditions) = .ok events →
      ((∃ indexed, events.createUniqueIndex causalSequenceIndex = .ok indexed)
        ↔ causalSequenceIndex.Holds events.rows) := by
    intro events hevents
    obtain ⟨hcolumns, hindexes⟩ := backfill_ok hevents
    apply Table.createUniqueIndex_isOk
    · intro name hname
      rw [hcolumns]
      apply Table.mem_columns_withColumns.mpr
      obtain rfl := List.mem_singleton.mp hname
      apply Or.inr
      decide
    · rw [hindexes, Table.indexes_withColumns]
      apply db.eventIndexNames
  constructor
  · rintro ⟨events, indexed, hevents, hindexed⟩
    exact ⟨events, hevents, (hindex events hevents).mp ⟨indexed, hindexed⟩⟩
  · rintro ⟨events, hevents, hholds⟩
    obtain ⟨indexed, hindexed⟩ := (hindex events hevents).mpr hholds
    exact ⟨events, indexed, hevents, hindexed⟩

/-- The migration completes exactly when the rows can be indexed. -/
theorem LegacyDatabase.isOk_iff (db : LegacyDatabase) :
  (∃ db', ensureSchemaColumns db.toSqliteDatabase = .ok db')
    ↔ db.toSqliteDatabase.Migratable
  := by
  have hentries := createUniqueIndex_withColumns repositoryEntryAdditions (by decide)
    db.entryIndexNames
  have hversions := createUniqueIndex_withColumns repositoryVersionAdditions (by decide)
    db.versionIndexNames
  rw [ensureSchemaColumns_eq]
  simp only [Except.bind_eq_ok]
  constructor
  · rintro ⟨db', events, hevents, runs, hruns, entries, hentry, versions, hversion, indexed,
      hindexed, -⟩
    obtain ⟨hnumbered, hrenumbered⟩ := db.events_isOk.mp ⟨events, indexed, hevents, hindexed⟩
    exact ⟨hentries.mp ⟨entries, hentry⟩, hversions.mp ⟨versions, hversion⟩, hnumbered, hrenumbered⟩
  · rintro ⟨hentry, hversion, hnumbered, hrenumbered⟩
    obtain ⟨events, indexed, hevents, hindexed⟩ := db.events_isOk.mpr ⟨hnumbered, hrenumbered⟩
    obtain ⟨runs, hruns⟩ := db.repairs
    obtain ⟨entries, hentry⟩ := hentries.mpr hentry
    obtain ⟨versions, hversion⟩ := hversions.mpr hversion
    exact ⟨_, events, hevents, runs, hruns, entries, hentry, versions, hversion, indexed, hindexed,
      rfl⟩

/-- For every content of a legacy database: the migration completes exactly when the rows can be
indexed. -/
theorem migration_completes_iff (db : LegacyDatabase) :
  (∃ db', ensureSchemaColumns db.toSqliteDatabase = .ok db')
    ↔ db.toSqliteDatabase.Migratable
  := db.isOk_iff

/-- A table without indexes. -/
def unindexed (columns : List String) (rows : List (List (String × Value))) : Table where
  columns := columns
  rows := rows.map (fun values name => (values.lookup name).getD .null)
  indexes := []
  within := by simp
  unique := by simp

/-- A database with the columns that no migration adds, and without rows. -/
def bareDatabase : LegacyDatabase where
  jobs := unindexed ["id"] []
  runs := unindexed ["id", "started_at", "finished_at", "status"] []
  fanouts := unindexed ["id"] []
  schedules := unindexed ["id"] []
  events := unindexed ["id"] []
  longServices := unindexed ["id"] []
  repositoryEntries := unindexed ["id"] []
  repositoryVersions := unindexed ["id"] []
  causalSequence := none
  eventStreamDeliveries := []
  runColumns := by decide
  runIndexes := by simp [unindexed]
  eventIds := List.nodup_nil
  eventIdsGiven := by simp [unindexed]
  eventSequences := by simp [unindexed]
  eventIndexes := by simp [unindexed]
  eventIndexNames := by simp [unindexed]
  entryIndexNames := by simp [unindexed]
  versionIndexNames := by simp [unindexed]

/-- Two entries of a database whose entries have no names yet. -/
def unnamedEntries : LegacyDatabase :=
  { bareDatabase with
    repositoryEntries := unindexed ["id"] [[("id", .text "e1")], [("id", .text "e2")]]
    entryIndexNames := by simp [unindexed] }

/-- Both entries receive the same empty name, and the index over the names cannot be created. -/
theorem unnamed_entries_collide :
  ¬∀ db : LegacyDatabase, ∃ db', ensureSchemaColumns db.toSqliteDatabase = .ok db'
  := by
  intro h
  have hok := Except.isOk_eq_true.mpr (h unnamedEntries)
  revert hok
  decide +kernel

end GoblinKing
