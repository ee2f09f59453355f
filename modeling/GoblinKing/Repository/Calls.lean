import GoblinKing.Library.Transition
import GoblinKing.Repository.Store
import Mathlib.Logic.Function.Basic

/-!
# Calls of the repository store

Each operation of the store reads and checks, and then writes. Called one after the other,
each call sees what the ones before have written. Called by several parties, the reads and
the writes are transactions that interleave.
-/

namespace GoblinKing

/-- A call of the store. -/
inductive StoreCall where
  | createEntry (entry : RepositoryEntryRecord)
  | updateEntry (entry : RepositoryEntryRecord)
  | createVersion (version : RepositoryVersionRecord)
  | updateVersion (version : RepositoryVersionRecord)
  | transitionVersion (entryId : Id) (version : ℕ) (transition : VersionTransition)
  | transitionEntry (entryId : Id) (transition : EntryTransition)
  | deleteEntry (entryId : Id)
  deriving DecidableEq

/-- The write of a call, with what its read has returned. -/
inductive StoreWrite where
  | createEntry (entry : RepositoryEntryRecord)
  | updateEntry (existing entry : RepositoryEntryRecord)
  | createVersion (version : RepositoryVersionRecord)
  | updateVersion (version : RepositoryVersionRecord)
  | transitionVersion (entryId : Id) (version : ℕ) (values : VersionValues)
  | transitionEntry (entryId : Id) (transition : EntryTransition)
  | deleteEntry (entryId : Id)
  deriving DecidableEq

/-- The read of a call: what is to be written, if anything is. A call of one transaction has
nothing to read. -/
def StoreCall.read (db : RepositoryDb) : StoreCall → Except String (Option StoreWrite)
  | .createEntry entry => .ok (some (.createEntry entry))
  | .updateEntry entry => do
      let existing ← readEntryUpdate db entry
      .ok (some (.updateEntry existing entry))
  | .createVersion version => .ok (some (.createVersion version))
  | .updateVersion version => do
      readVersionUpdate db version
      .ok (some (.updateVersion version))
  | .transitionVersion entryId version transition => do
      let values ← readVersionTransition db entryId version transition
      .ok (values.map (StoreWrite.transitionVersion entryId version))
  | .transitionEntry entryId transition => do
      let transition ← readEntryTransition db entryId transition
      .ok (some (.transitionEntry entryId transition))
  | .deleteEntry entryId => .ok (some (.deleteEntry entryId))

/-- The write of a call. -/
def StoreWrite.commit (db : RepositoryDb) : StoreWrite → Except String RepositoryDb
  | .createEntry entry => createRepositoryEntry db entry
  | .updateEntry existing entry => writeEntryUpdate db existing entry
  | .createVersion version => createRepositoryVersion db version
  | .updateVersion version => writeVersionUpdate db version
  | .transitionVersion entryId version values => writeVersionTransition db entryId version values
  | .transitionEntry entryId transition => writeEntryTransition db entryId transition
  | .deleteEntry entryId => deleteRepositoryEntry db entryId

/-- A call from its start to its end. -/
def StoreCall.run (db : RepositoryDb) (call : StoreCall) : Except String RepositoryDb := do
  match ← call.read db with
  | none => .ok db
  | some write => write.commit db

/-- The repository after a call that nothing interrupts; a call that raises leaves it as it
was. -/
def callStep (db : RepositoryDb) (call : StoreCall) : Option RepositoryDb :=
  match call.run db with
  | .ok db' => some db'
  | .error _ => some db

/-- The repository and the calls between their two transactions. -/
structure StoreSystem where
  db : RepositoryDb
  pending : Id → Option StoreWrite

/-- An empty repository without calls. -/
def StoreSystem.init : StoreSystem where
  db := .empty
  pending := fun _ => none

/-- A transaction of a call. -/
inductive StoreAction where
  | read (callId : Id) (call : StoreCall)
  | commit (callId : Id)
  deriving DecidableEq

/-- One transaction of the store; `none` when the action is not possible. -/
def storeStep (σ : StoreSystem) : StoreAction → Option StoreSystem
  | .read callId call =>
      if (σ.pending callId).isSome then
        none
      else
        match call.read σ.db with
        | .error _ | .ok none => some σ
        | .ok (some write) => some { σ with pending := Function.update σ.pending callId (some write) }
  | .commit callId =>
      match σ.pending callId with
      | none => none
      | some write =>
          let answered := { σ with pending := Function.update σ.pending callId none }
          match write.commit σ.db with
          | .error _ => some answered
          | .ok db => some { answered with db := db }

/-- What the read of a call has checked. -/
inductive ReadStep (db : RepositoryDb) : StoreCall → StoreWrite → Prop where
  | createEntry (entry : RepositoryEntryRecord) :
      ReadStep db (.createEntry entry) (.createEntry entry)
  | updateEntry {existing entry : RepositoryEntryRecord}
      (h : readEntryUpdate db entry = .ok existing) :
      ReadStep db (.updateEntry entry) (.updateEntry existing entry)
  | createVersion (version : RepositoryVersionRecord) :
      ReadStep db (.createVersion version) (.createVersion version)
  | updateVersion {version : RepositoryVersionRecord} (h : readVersionUpdate db version = .ok ()) :
      ReadStep db (.updateVersion version) (.updateVersion version)
  | transitionVersion {entryId : Id} {version : ℕ} {transition : VersionTransition}
      {values : VersionValues}
      (h : readVersionTransition db entryId version transition = .ok (some values)) :
      ReadStep db (.transitionVersion entryId version transition)
        (.transitionVersion entryId version values)
  | transitionEntry {entryId : Id} {transition transition' : EntryTransition}
      (h : readEntryTransition db entryId transition = .ok transition') :
      ReadStep db (.transitionEntry entryId transition) (.transitionEntry entryId transition')
  | deleteEntry (entryId : Id) : ReadStep db (.deleteEntry entryId) (.deleteEntry entryId)

/-- The read of a call that is to write. -/
theorem readStep_of_read {db : RepositoryDb} {call : StoreCall} {write : StoreWrite}
    (h : call.read db = .ok (some write)) :
  ReadStep db call write
  := by
  cases call with
  | createEntry entry =>
      cases h
      apply ReadStep.createEntry
  | updateEntry entry =>
      obtain ⟨existing, hexisting, h⟩ := Except.bind_eq_ok.mp h
      cases h
      apply ReadStep.updateEntry hexisting
  | createVersion version =>
      cases h
      apply ReadStep.createVersion
  | updateVersion version =>
      obtain ⟨_, hchecked, h⟩ := Except.bind_eq_ok.mp h
      cases h
      apply ReadStep.updateVersion hchecked
  | transitionVersion entryId version transition =>
      obtain ⟨values, hvalues, h⟩ := Except.bind_eq_ok.mp h
      obtain ⟨values, rfl, hwrite⟩ := Option.map_eq_some_iff.mp (Except.ok.inj h)
      subst hwrite
      apply ReadStep.transitionVersion hvalues
  | transitionEntry entryId transition =>
      obtain ⟨transition', htransition, h⟩ := Except.bind_eq_ok.mp h
      cases h
      apply ReadStep.transitionEntry htransition
  | deleteEntry entryId =>
      cases h
      apply ReadStep.deleteEntry

/-! ### What a write does to the rows -/

/-- A change of the row of a version by a write. -/
inductive VersionStep (write : StoreWrite) (versionId : Id) :
    Option RepositoryVersionRecord → Option RepositoryVersionRecord → Prop where
  | keep (row : Option RepositoryVersionRecord) : VersionStep write versionId row row
  | create {version : RepositoryVersionRecord} (hwrite : write = .createVersion version)
      (hid : version.id = versionId) (hdraft : version.status = .draft) :
      VersionStep write versionId none (some version)
  | update {version row : RepositoryVersionRecord} (hwrite : write = .updateVersion version)
      (hid : version.id = versionId)
      (hpublishable : ensureRepositoryVersionPublishable version = .ok ()) :
      VersionStep write versionId (some row) (some version)
  | transition {row : RepositoryVersionRecord} {values : VersionValues}
      (hwrite : write = .transitionVersion row.entryId row.version values) :
      VersionStep write versionId (some row) (some (values.apply row))
  | delete {row : RepositoryVersionRecord} (hwrite : write = .deleteEntry row.entryId) :
      VersionStep write versionId (some row) none

/-- A change of the row of an entry by a write. -/
inductive EntryStep (write : StoreWrite) (entryId : Id) :
    Option RepositoryEntryRecord → Option RepositoryEntryRecord → Prop where
  | keep (row : Option RepositoryEntryRecord) : EntryStep write entryId row row
  | create {entry : RepositoryEntryRecord} (hwrite : write = .createEntry entry)
      (hid : entry.id = entryId) (hpointer : entry.publishedVersion = none) :
      EntryStep write entryId none (some entry)
  | update {existing entry row : RepositoryEntryRecord}
      (hwrite : write = .updateEntry existing entry) (hid : entry.id = entryId) :
      EntryStep write entryId (some row) (some entry)
  | createVersion {version : RepositoryVersionRecord} {row : RepositoryEntryRecord}
      (hwrite : write = .createVersion version) (hid : version.entryId = entryId)
      (hlive : row.status ≠ .retired) :
      EntryStep write entryId (some row) (some (row.setStatus .draft version.updatedAt none))
  | publish {version : RepositoryVersionRecord} {row : RepositoryEntryRecord}
      (hwrite : write = .updateVersion version) (hid : version.entryId = entryId)
      (hpublished : version.status = .published) :
      EntryStep write entryId (some row)
        (some (row.setStatus .published version.updatedAt (some version.version)))
  | transitionVersion {version : ℕ} {values : VersionValues} {row : RepositoryEntryRecord}
      (hwrite : write = .transitionVersion entryId version values) :
      EntryStep write entryId (some row) (some (row.setStatus values.status values.updatedAt
        (if values.status = .published then some version else none)))
  | transition {transition : EntryTransition} {row : RepositoryEntryRecord}
      (hwrite : write = .transitionEntry entryId transition) :
      EntryStep write entryId (some row) (some (row.setStatus transition.status
        transition.updatedAt transition.publishedVersion))
  | delete {row : RepositoryEntryRecord} (hwrite : write = .deleteEntry entryId) :
      EntryStep write entryId (some row) none

section

variable {db db' : RepositoryDb}

/-- The values of a transition have its status. -/
theorem status_of_transitionValues {existing : RepositoryVersionRecord}
    {transition : VersionTransition} {values : VersionValues}
    (h : transitionValues existing transition = .ok values) :
  values.status = transition.status
  := by
  rw [transitionValues] at h
  obtain ⟨_, -, h⟩ := Except.bind_eq_ok.mp h
  cases hstatus : transition.status <;> simp only [hstatus] at h
  case validated | approved =>
    split at h
    · cases h
    · cases h
      rfl
  case published =>
    split at h
    · cases h
      rfl
    · cases h
  all_goals
    cases h
    rfl

/-- Setting the status of an entry changes that entry only. -/
theorem setEntryStatus_ok {entryId : Id} {status : RepositoryStatus} {updatedAt : Instant}
    {publishedVersion : Option ℕ}
    (h : setEntryStatus db entryId status updatedAt publishedVersion = .ok db') :
  db'.versions = db.versions
    ∧ ∀ k, db'.entries.find? k = (db.entries.find? k).map (fun row =>
        if row.id = entryId then row.setStatus status updatedAt publishedVersion else row)
  := by
  obtain ⟨entries, hentries, h⟩ := Except.bind_eq_ok.mp h
  cases h
  use rfl
  intro k
  rw [IndexedTable.find?_update? (uniqueOr_ok.mp hentries)]
  simp

/-- Inserting an entry. -/
theorem createRepositoryEntry_ok {entry : RepositoryEntryRecord}
    (h : createRepositoryEntry db entry = .ok db') :
  db'.versions = db.versions ∧ entry.status = .draft ∧ entry.publishedVersion = none
    ∧ db.entries.find? entry.id = none
    ∧ ∀ k, db'.entries.find? k = if entry.id = k then some entry else db.entries.find? k
  := by
  rw [createRepositoryEntry] at h
  obtain ⟨_, hdraft, h⟩ := Except.bind_eq_ok.mp h
  obtain ⟨_, hpointer, h⟩ := Except.bind_eq_ok.mp h
  obtain ⟨_, -, h⟩ := Except.bind_eq_ok.mp h
  obtain ⟨entries, hinsert, h⟩ := Except.bind_eq_ok.mp h
  cases h
  rw [uniqueOr_ok] at hinsert
  rw [raiseIf_ok] at hdraft hpointer
  refine ⟨rfl, by simpa using hdraft, by simpa using hpointer,
    IndexedTable.find?_of_insert? hinsert, ?_⟩
  apply IndexedTable.find?_insert? hinsert

/-- Writing an entry. The version that it points at is published. -/
theorem writeEntryUpdate_ok {existing entry : RepositoryEntryRecord}
    (h : writeEntryUpdate db existing entry = .ok db') :
  db'.versions = db.versions ∧ ensurePublishedVersion db entry = .ok ()
    ∧ ∀ k, db'.entries.find? k
      = (db.entries.find? k).map (fun row => if row.id = entry.id then entry else row)
  := by
  rw [writeEntryUpdate] at h
  obtain ⟨_, -, h⟩ := Except.bind_eq_ok.mp h
  obtain ⟨_, hpointer, h⟩ := Except.bind_eq_ok.mp h
  obtain ⟨entries, hentries, h⟩ := Except.bind_eq_ok.mp h
  cases h
  use rfl, hpointer
  intro k
  rw [IndexedTable.find?_update? (uniqueOr_ok.mp hentries)]
  cases hrow : db.entries.find? k with
  | none => rfl
  | some row =>
      simp only [Option.map_some, decide_eq_true_eq, Option.some.injEq]
      split
      case isTrue hid => rw [RepositoryEntryRecord.replace, hid]
      case isFalse => rfl

/-- Writing the transition of an entry. The version of an entry that is published is
published. -/
theorem writeEntryTransition_ok {entryId : Id} {transition : EntryTransition}
    (h : writeEntryTransition db entryId transition = .ok db') :
  (transition.status = .published → requireRepositoryVersionStatus db entryId
      (transition.publishedVersion.getD 0) .published = .ok ())
    ∧ setEntryStatus db entryId transition.status transition.updatedAt
      transition.publishedVersion = .ok db'
  := by
  rw [writeEntryTransition] at h
  obtain ⟨_, hrequire, h⟩ := Except.bind_eq_ok.mp h
  refine ⟨?_, h⟩
  intro hpublished
  rw [ensureEntryPublishable, if_pos hpublished] at hrequire
  apply hrequire

/-- Deleting an entry, with its versions. -/
theorem deleteRepositoryEntry_ok {entryId : Id} (h : deleteRepositoryEntry db entryId = .ok db') :
  (∀ k, db'.entries.find? k = (db.entries.find? k).filter (fun row => !decide (row.id = entryId)))
    ∧ ∀ k, db'.versions.find? k
      = (db.versions.find? k).filter (fun version => !decide (version.entryId = entryId))
  := by
  rw [deleteRepositoryEntry] at h
  split at h
  · cases h
  · obtain ⟨_, -, h⟩ := Except.bind_eq_ok.mp h
    obtain ⟨_, -, h⟩ := Except.bind_eq_ok.mp h
    cases h
    constructor
    · intro k
      apply IndexedTable.find?_delete
    · intro k
      apply IndexedTable.find?_delete

/-- What a deletion finds, and the notebook records that it leaves: those of the type of the entry
under the kinds of its versions are gone. -/
theorem records_of_deleteRepositoryEntry {entryId : Id}
    (h : deleteRepositoryEntry db entryId = .ok db') :
  ∃ entry, db.entries.find? entryId = some entry
    ∧ [RepositoryStatus.draft, .rejected, .retired].contains entry.status = true
    ∧ (∀ kind, db'.goblins.find? kind
      = if entry.type = .notebookFunction ∧ kind ∈ (db.versions.table.select
          (fun version => decide (version.entryId = entryId))).map RepositoryVersionRecord.kind then
        none else db.goblins.find? kind)
    ∧ ∀ kind, db'.services.find? kind
      = if entry.type = .notebookService ∧ kind ∈ (db.versions.table.select
          (fun version => decide (version.entryId = entryId))).map RepositoryVersionRecord.kind then
        none else db.services.find? kind
  := by
  rw [deleteRepositoryEntry] at h
  split at h
  · cases h
  case h_2 entry hentry =>
    obtain ⟨_, hstatus, h⟩ := Except.bind_eq_ok.mp h
    obtain ⟨_, -, h⟩ := Except.bind_eq_ok.mp h
    rw [raiseIf_ok, Bool.not_eq_false'] at hstatus
    cases h
    use entry, hentry, hstatus
    cases htype : entry.type with
    | notebookFunction =>
        constructor
        · intro kind
          rw [if_pos rfl, Table.find?_delete_contains]
          simp only [true_and]
        · intro kind
          simp
    | notebookService =>
        have hother : RepositoryGoblinType.notebookService ≠ .notebookFunction := by decide
        constructor
        · intro kind
          simp
        · intro kind
          dsimp only
          rw [if_neg hother, Table.find?_delete_contains]
          simp only [true_and]

/-- Inserting a version: a draft of an entry that is not retired. -/
theorem createRepositoryVersion_ok {version : RepositoryVersionRecord}
    (h : createRepositoryVersion db version = .ok db') :
  version.status = .draft
    ∧ (∃ entry, db.entries.find? version.entryId = some entry ∧ entry.status ≠ .retired)
    ∧ ∃ versions, db.versions.insert? version = some versions
      ∧ setEntryStatus { db with versions := versions } version.entryId .draft version.updatedAt none
        = .ok db'
  := by
  rw [createRepositoryVersion] at h
  obtain ⟨_, hdraft, h⟩ := Except.bind_eq_ok.mp h
  obtain ⟨_, -, h⟩ := Except.bind_eq_ok.mp h
  obtain ⟨_, -, h⟩ := Except.bind_eq_ok.mp h
  split at h
  · cases h
  case h_2 entry hentry =>
    obtain ⟨_, hlive, h⟩ := Except.bind_eq_ok.mp h
    obtain ⟨_, -, h⟩ := Except.bind_eq_ok.mp h
    obtain ⟨_, -, h⟩ := Except.bind_eq_ok.mp h
    obtain ⟨versions, hinsert, h⟩ := Except.bind_eq_ok.mp h
    rw [raiseIf_ok] at hdraft hlive
    simp only [Bool.or_eq_false_iff, decide_eq_false_iff_not, not_not] at hdraft hlive
    refine ⟨hdraft.1, ⟨entry, hentry, hlive⟩, versions, uniqueOr_ok.mp hinsert, h⟩

/-- Writing a version, which is published in its entry as well when it is published. -/
theorem writeVersionUpdate_ok {version : RepositoryVersionRecord}
    (h : writeVersionUpdate db version = .ok db') :
  ensureRepositoryVersionPublishable version = .ok ()
    ∧ ∃ versions, db.versions.update? (fun row => decide (row.id = version.id)) version.replace
        version.replace_id = some versions
      ∧ ((version.status = .published ∧ setEntryStatus { db with versions := versions }
          version.entryId .published version.updatedAt (some version.version) = .ok db')
        ∨ (version.status ≠ .published ∧ db' = { db with versions := versions }))
  := by
  rw [writeVersionUpdate] at h
  obtain ⟨_, hpublishable, h⟩ := Except.bind_eq_ok.mp h
  obtain ⟨versions, hversions, h⟩ := Except.bind_eq_ok.mp h
  use hpublishable, versions, uniqueOr_ok.mp hversions
  split at h
  case isTrue hpublished => exact .inl ⟨hpublished, h⟩
  case isFalse hpublished =>
    cases h
    exact .inr ⟨hpublished, rfl⟩

/-- Writing the transition of a version, which goes to its entry as well. -/
theorem writeVersionTransition_ok {entryId : Id} {version : ℕ} {values : VersionValues}
    (h : writeVersionTransition db entryId version values = .ok db') :
  ∃ versions, db.versions.update? (fun row => decide (row.entryId = entryId)
      && decide (row.version = version)) values.apply values.apply_id = some versions
    ∧ setEntryStatus { db with versions := versions } entryId values.status values.updatedAt
      (if values.status = .published then some version else none) = .ok db'
  := by
  rw [writeVersionTransition] at h
  obtain ⟨versions, hversions, h⟩ := Except.bind_eq_ok.mp h
  use versions, uniqueOr_ok.mp hversions

/-- What a write does to the row of a version. -/
theorem versionStep_of_commit {write : StoreWrite} (h : write.commit db = .ok db') (k : Id) :
  VersionStep write k (db.versions.find? k) (db'.versions.find? k)
  := by
  cases write with
  | createEntry entry =>
      rw [(createRepositoryEntry_ok h).1]
      apply VersionStep.keep
  | updateEntry existing entry =>
      rw [(writeEntryUpdate_ok h).1]
      apply VersionStep.keep
  | createVersion version =>
      obtain ⟨hdraft, -, versions, hinsert, hset⟩ := createRepositoryVersion_ok h
      rw [(setEntryStatus_ok hset).1, IndexedTable.find?_insert? hinsert]
      split
      case isTrue hid =>
        rw [← hid, IndexedTable.find?_of_insert? hinsert]
        apply VersionStep.create rfl rfl hdraft
      case isFalse => apply VersionStep.keep
  | updateVersion version =>
      obtain ⟨hpublishable, versions, hupdate, hset⟩ := writeVersionUpdate_ok h
      have hversions : db'.versions = versions := by
        rcases hset with ⟨-, hset⟩ | ⟨-, rfl⟩
        · rw [(setEntryStatus_ok hset).1]
        · rfl
      rw [hversions, IndexedTable.find?_update? hupdate]
      cases hrow : db.versions.find? k with
      | none => apply VersionStep.keep
      | some row =>
          simp only [Option.map_some, decide_eq_true_eq]
          split
          case isTrue hid =>
            have hvalues : version.replace row = version := by
              rw [RepositoryVersionRecord.replace, hid]
            rw [hvalues]
            apply VersionStep.update rfl _ hpublishable
            rw [← hid, IndexedTable.key_of_find? hrow]
          case isFalse => apply VersionStep.keep
  | transitionVersion entryId version values =>
      obtain ⟨versions, hupdate, hset⟩ := writeVersionTransition_ok h
      rw [(setEntryStatus_ok hset).1, IndexedTable.find?_update? hupdate]
      cases hrow : db.versions.find? k with
      | none => apply VersionStep.keep
      | some row =>
          simp only [Option.map_some, Bool.and_eq_true, decide_eq_true_eq]
          split
          case isTrue hnumber =>
            apply VersionStep.transition
            rw [hnumber.1, hnumber.2]
          case isFalse => apply VersionStep.keep
  | transitionEntry entryId transition =>
      rw [(setEntryStatus_ok (writeEntryTransition_ok h).2).1]
      apply VersionStep.keep
  | deleteEntry entryId =>
      rw [(deleteRepositoryEntry_ok h).2]
      cases hrow : db.versions.find? k with
      | none => apply VersionStep.keep
      | some row =>
          rw [Option.filter_some]
          split
          case isTrue => apply VersionStep.keep
          case isFalse hdelete =>
            apply VersionStep.delete
            simp only [Bool.not_eq_true', decide_eq_false_iff_not, not_not] at hdelete
            rw [hdelete]

/-- What setting the status of an entry does to a row. -/
theorem EntryStep.of_setEntryStatus {write : StoreWrite} {entryId : Id}
    {status : RepositoryStatus} {updatedAt : Instant} {publishedVersion : Option ℕ}
    (h : setEntryStatus db entryId status updatedAt publishedVersion = .ok db')
    (hstep : ∀ row, db.entries.find? entryId = some row →
      EntryStep write entryId (some row) (some (row.setStatus status updatedAt publishedVersion)))
    (k : Id) :
  EntryStep write k (db.entries.find? k) (db'.entries.find? k)
  := by
  rw [(setEntryStatus_ok h).2]
  cases hrow : db.entries.find? k with
  | none => apply EntryStep.keep
  | some row =>
      rw [Option.map_some]
      have hid := IndexedTable.key_of_find? hrow
      split
      case isTrue hentry =>
        obtain rfl : k = entryId := hid.symm.trans hentry
        apply hstep row hrow
      case isFalse => apply EntryStep.keep

/-- What a write does to the row of an entry. -/
theorem entryStep_of_commit {write : StoreWrite} (h : write.commit db = .ok db') (k : Id) :
  EntryStep write k (db.entries.find? k) (db'.entries.find? k)
  := by
  cases write with
  | createEntry entry =>
      obtain ⟨-, -, hpointer, hnone, hfind⟩ := createRepositoryEntry_ok h
      rw [hfind]
      split
      case isTrue hid =>
        rw [← hid, hnone]
        apply EntryStep.create rfl rfl hpointer
      case isFalse => apply EntryStep.keep
  | updateEntry existing entry =>
      rw [(writeEntryUpdate_ok h).2.2]
      cases hrow : db.entries.find? k with
      | none => apply EntryStep.keep
      | some row =>
          rw [Option.map_some]
          split
          case isTrue hid =>
            apply EntryStep.update rfl
            rw [← hid, IndexedTable.key_of_find? hrow]
          case isFalse => apply EntryStep.keep
  | createVersion version =>
      obtain ⟨-, ⟨entry, hentry, hlive⟩, versions, -, hset⟩ := createRepositoryVersion_ok h
      apply EntryStep.of_setEntryStatus hset
      intro row hrow
      have hsame : db.entries.find? version.entryId = some row := hrow
      rw [hentry] at hsame
      obtain rfl := Option.some.inj hsame
      apply EntryStep.createVersion rfl rfl hlive
  | updateVersion version =>
      obtain ⟨-, versions, -, ⟨hpublished, hset⟩ | ⟨-, rfl⟩⟩ := writeVersionUpdate_ok h
      · apply EntryStep.of_setEntryStatus hset
        intro row hrow
        apply EntryStep.publish rfl rfl hpublished
      · apply EntryStep.keep
  | transitionVersion entryId version values =>
      obtain ⟨versions, -, hset⟩ := writeVersionTransition_ok h
      apply EntryStep.of_setEntryStatus hset
      intro row hrow
      apply EntryStep.transitionVersion rfl
  | transitionEntry entryId transition =>
      apply EntryStep.of_setEntryStatus (writeEntryTransition_ok h).2
      intro row hrow
      apply EntryStep.transition rfl
  | deleteEntry entryId =>
      rw [(deleteRepositoryEntry_ok h).1]
      cases hrow : db.entries.find? k with
      | none => apply EntryStep.keep
      | some row =>
          rw [Option.filter_some]
          split
          case isTrue => apply EntryStep.keep
          case isFalse hdelete =>
            apply EntryStep.delete
            simp only [Bool.not_eq_true', decide_eq_false_iff_not, not_not] at hdelete
            rw [← hdelete, IndexedTable.key_of_find? hrow]

end

/-- A draft entry. -/
def sampleEntry : RepositoryEntryRecord where
  id := "e1"
  name := "reports"
  type := .notebookFunction
  projectId := some "p1"
  owner := "alice"
  updatedAt := 0

/-- A draft of the first version of the entry. -/
def sampleVersion : RepositoryVersionRecord where
  id := "v1"
  entryId := "e1"
  version := 1
  kind := "repository.reports"
  sourceHash := "3a5c"
  runnerImage := "runner"
  createdAt := 1
  updatedAt := 1

end GoblinKing
