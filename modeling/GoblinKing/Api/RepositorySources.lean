import GoblinKing.Api.Repository

/-!
# The sources of versions

The version row that is reviewed and the notebook record that is run are in different tables,
and are joined by the kind only. The result says for which writes the record under the kind
of a version stays the source that was submitted: for those that leave other sources alone.
-/

namespace GoblinKing

/-- The project and the hash of the notebook record under a kind. -/
def RepositoryDb.source? (db : RepositoryDb) (type : RepositoryGoblinType) (kind : String) :
    Option (Option Id × String) :=
  match type with
  | .notebookFunction =>
      (db.goblins.find? kind).map (fun record => (record.projectId, record.sourceHash))
  | .notebookService =>
      (db.services.find? kind).map (fun record => (record.projectId, record.sourceHash))

/-- The record under the kind of every version of an entry has the project of the entry and
the hash of the version. -/
def SourcesMatch (db : RepositoryDb) : Prop :=
  ∀ k version entry, db.versions.find? k = some version →
    db.entries.find? version.entryId = some entry →
    db.source? entry.type version.kind = some (entry.projectId, version.sourceHash)

/-- Whether the sources match can be read off the rows. -/
theorem sourcesMatch_iff {db : RepositoryDb} :
  SourcesMatch db ↔ ∀ version ∈ db.versions.table.rows,
    ((db.entries.find? version.entryId).all (fun entry =>
      decide (db.source? entry.type version.kind = some (entry.projectId, version.sourceHash))))
  := by
  constructor
  · intro h version hversion
    cases hentry : db.entries.find? version.entryId with
    | none => rfl
    | some entry =>
        rw [Option.all_some, decide_eq_true_eq]
        apply h version.id version entry (Table.find?_of_mem hversion) hentry
  · intro h k version entry hversion hentry
    have hrow := h version (Table.mem_of_find? hversion)
    rw [hentry, Option.all_some, decide_eq_true_eq] at hrow
    apply hrow

instance (db : RepositoryDb) : Decidable (SourcesMatch db) :=
  decidable_of_iff _ sourcesMatch_iff.symm

/-! ### Writes that leave other sources alone -/

/-- Every version of an entry of the type that uses the kind has the project and the hash. -/
def usedWith (db : RepositoryDb) (type : RepositoryGoblinType) (kind : String)
    (projectId : Option Id) (sourceHash : String) : Bool :=
  db.versions.table.rows.all (fun version =>
    match db.entries.find? version.entryId with
    | none => true
    | some entry =>
        decide (entry.type ≠ type) || decide (version.kind ≠ kind)
          || (decide (entry.projectId = projectId) && decide (version.sourceHash = sourceHash)))

/-- No version of another entry of the same type uses a kind of the versions of an entry. -/
def kindsUnshared (db : RepositoryDb) (entry : RepositoryEntryRecord) : Bool :=
  db.versions.table.rows.all (fun version =>
    db.versions.table.rows.all (fun other =>
      decide (version.entryId ≠ entry.id) || decide (other.entryId = entry.id)
        || decide (version.kind ≠ other.kind)
        || match db.entries.find? other.entryId with
          | none => true
          | some owner => decide (owner.type ≠ entry.type)))

/-- A write leaves the sources of versions alone. A version may be created when the record
under its kind is there as it was submitted, or when its number is taken. -/
def keepsSources (db : RepositoryDb) : ApiWrite → Bool
  | .goblin record =>
      usedWith db .notebookFunction record.kind record.projectId record.sourceHash
  | .service record =>
      usedWith db .notebookService record.kind record.projectId record.sourceHash
  | .store (.createVersion version) =>
      match db.entries.find? version.entryId with
      | none => true
      | some entry =>
          (db.versions.findIndex? (version.entryId, version.version)).isSome
            || decide (db.source? entry.type version.kind
              = some (entry.projectId, version.sourceHash))
  | .store (.deleteEntry entryId) =>
      match db.entries.find? entryId with
      | none => true
      | some entry =>
          !([RepositoryStatus.draft, .rejected, .retired].contains entry.status)
            || kindsUnshared db entry
  | _ => true

/-- The condition on a step of the API: a write that the store carries out leaves the sources
alone. -/
def sourcesKept (settings : ApiSettings) (σ : RepositoryApi) : ApiAction → Bool
  | .receive _ _ _ => true
  | .advance requestId input =>
      match (σ.requests requestId).bind (RequestPhase.write settings input) with
      | none => true
      | some write => !(write.commit σ.db).isOk || keepsSources σ.db write

/-! ### What the writes of the API leave as it was -/

/-- A write as the API makes them: the versions of a new entry are yet to come, an entry
keeps its project and its type, and no version is updated as a whole. -/
def ApiWrite.Plain (db : RepositoryDb) : ApiWrite → Prop
  | .store (.createEntry entry) =>
      ∀ k version, db.versions.find? k = some version → version.entryId ≠ entry.id
  | .store (.updateEntry _ values) =>
      ∀ row, db.entries.find? values.id = some row →
        row.projectId = values.projectId ∧ row.type = values.type
  | .store (.updateVersion _) => False
  | _ => True

section

variable {db db' : RepositoryDb}

/-- What has been used with a project and a hash. -/
theorem eq_of_usedWith {type : RepositoryGoblinType} {kind : String} {projectId : Option Id}
    {sourceHash : String} (h : usedWith db type kind projectId sourceHash = true) {k : Id}
    {version : RepositoryVersionRecord} {entry : RepositoryEntryRecord}
    (hversion : db.versions.find? k = some version)
    (hentry : db.entries.find? version.entryId = some entry) (htype : entry.type = type)
    (hkind : version.kind = kind) :
  (entry.projectId, version.sourceHash) = (projectId, sourceHash)
  := by
  have hrow := List.all_eq_true.mp h version (Table.mem_of_find? hversion)
  rw [hentry] at hrow
  simpa [htype, hkind] using hrow

/-- Setting the status of an entry leaves the notebook records as they are. -/
theorem notebooks_of_setEntryStatus {entryId : Id} {status : RepositoryStatus}
    {updatedAt : Instant} {publishedVersion : Option ℕ}
    (h : setEntryStatus db entryId status updatedAt publishedVersion = .ok db') :
  db'.goblins = db.goblins ∧ db'.services = db.services
  := by
  obtain ⟨entries, -, h⟩ := Except.bind_eq_ok.mp h
  cases h
  exact ⟨rfl, rfl⟩

/-- Only a deletion changes notebook records among the writes of the store. -/
theorem notebooks_of_commit {write : StoreWrite} (h : write.commit db = .ok db')
    (hwrite : ∀ entryId, write ≠ .deleteEntry entryId) :
  db'.goblins = db.goblins ∧ db'.services = db.services
  := by
  cases write with
  | createEntry entry =>
      obtain ⟨_, -, h⟩ := Except.bind_eq_ok.mp h
      obtain ⟨_, -, h⟩ := Except.bind_eq_ok.mp h
      obtain ⟨_, -, h⟩ := Except.bind_eq_ok.mp h
      obtain ⟨_, -, h⟩ := Except.bind_eq_ok.mp h
      cases h
      exact ⟨rfl, rfl⟩
  | updateEntry existing entry =>
      obtain ⟨_, -, h⟩ := Except.bind_eq_ok.mp h
      obtain ⟨_, -, h⟩ := Except.bind_eq_ok.mp h
      obtain ⟨_, -, h⟩ := Except.bind_eq_ok.mp h
      cases h
      exact ⟨rfl, rfl⟩
  | createVersion version =>
      obtain ⟨-, -, versions, -, hset⟩ := createRepositoryVersion_ok h
      have hsame := notebooks_of_setEntryStatus hset
      exact hsame
  | updateVersion version =>
      obtain ⟨-, versions, -, ⟨-, hset⟩ | ⟨-, rfl⟩⟩ := writeVersionUpdate_ok h
      · have hsame := notebooks_of_setEntryStatus hset
        exact hsame
      · exact ⟨rfl, rfl⟩
  | transitionVersion entryId version values =>
      obtain ⟨versions, -, hset⟩ := writeVersionTransition_ok h
      have hsame := notebooks_of_setEntryStatus hset
      exact hsame
  | transitionEntry entryId transition =>
      exact notebooks_of_setEntryStatus (writeEntryTransition_ok h).2
  | deleteEntry entryId => cases hwrite entryId rfl

/-- The row of an entry after a write of the store: it has the project and the type of the
row before, or is new. -/
theorem entry_origin {write : StoreWrite} (hplain : (ApiWrite.store write).Plain db)
    (h : write.commit db = .ok db') {k : Id} {entry' : RepositoryEntryRecord}
    (hentry' : db'.entries.find? k = some entry') :
  (∃ entry, db.entries.find? k = some entry ∧ entry'.projectId = entry.projectId
      ∧ entry'.type = entry.type)
    ∨ (write = .createEntry entry' ∧ entry'.id = k)
  := by
  have hstep := entryStep_of_commit h k
  generalize hentry : db.entries.find? k = before at hstep
  rw [hentry'] at hstep
  cases hstep with
  | keep => exact .inl ⟨entry', rfl, rfl, rfl⟩
  | create hwrite hid hpointer => exact .inr ⟨hwrite, hid⟩
  | @update _ _ row hwrite hid =>
      subst hwrite hid
      obtain ⟨hproject, htype⟩ := hplain row hentry
      exact .inl ⟨row, rfl, hproject.symm, htype.symm⟩
  | createVersion | publish | transitionVersion | transition => exact .inl ⟨_, rfl, rfl, rfl⟩

/-- The row of a version after a write of the store: it has the entry, the kind and the hash
of the row before, or is new. -/
theorem version_origin {write : StoreWrite} (hplain : (ApiWrite.store write).Plain db)
    (h : write.commit db = .ok db') {k : Id} {version' : RepositoryVersionRecord}
    (hversion' : db'.versions.find? k = some version') :
  (∃ version, db.versions.find? k = some version ∧ version'.entryId = version.entryId
      ∧ version'.kind = version.kind ∧ version'.sourceHash = version.sourceHash)
    ∨ write = .createVersion version'
  := by
  have hstep := versionStep_of_commit h k
  generalize hversion : db.versions.find? k = before at hstep
  rw [hversion'] at hstep
  cases hstep with
  | keep => exact .inl ⟨version', rfl, rfl, rfl, rfl⟩
  | create hwrite hid hdraft => exact .inr hwrite
  | update hwrite hid hpublishable =>
      subst hwrite
      cases hplain
  | transition hwrite => exact .inl ⟨_, rfl, rfl, rfl, rfl⟩

/-- A version is created under a number that is not taken. -/
theorem findIndex?_of_createRepositoryVersion {version : RepositoryVersionRecord}
    (h : createRepositoryVersion db version = .ok db') :
  db.versions.findIndex? (version.entryId, version.version) = none
  := by
  rw [createRepositoryVersion] at h
  obtain ⟨_, -, h⟩ := Except.bind_eq_ok.mp h
  obtain ⟨_, -, h⟩ := Except.bind_eq_ok.mp h
  obtain ⟨_, -, h⟩ := Except.bind_eq_ok.mp h
  split at h
  · cases h
  · obtain ⟨_, -, h⟩ := Except.bind_eq_ok.mp h
    obtain ⟨_, -, h⟩ := Except.bind_eq_ok.mp h
    obtain ⟨_, hfree, -⟩ := Except.bind_eq_ok.mp h
    rw [raiseIf_ok] at hfree
    apply Option.isSome_eq_false_iff.mp hfree |> Option.isNone_iff_eq_none.mp

/-! ### What the writes of the API do to the sources -/

/-- Saving a function replaces the source under its kind. -/
theorem source?_saveNotebookGoblin (record : NotebookGoblinRecord) (type : RepositoryGoblinType)
    (kind : String) :
  (saveNotebookGoblin db record).source? type kind
    = if type = .notebookFunction ∧ record.kind = kind then
        some (record.projectId, record.sourceHash)
      else
        db.source? type kind
  := by
  cases type with
  | notebookFunction =>
      simp only [RepositoryDb.source?, saveNotebookGoblin, Table.find?_upsert, true_and]
      split <;> rfl
  | notebookService => rfl

/-- Saving a service replaces the source under its kind. -/
theorem source?_saveNotebookService (record : NotebookServiceRecord)
    (type : RepositoryGoblinType) (kind : String) :
  (saveNotebookService db record).source? type kind
    = if type = .notebookService ∧ record.kind = kind then
        some (record.projectId, record.sourceHash)
      else
        db.source? type kind
  := by
  cases type with
  | notebookFunction => rfl
  | notebookService =>
      simp only [RepositoryDb.source?, saveNotebookService, Table.find?_upsert, true_and]
      split <;> rfl

/-- The runtime of a service is not part of its source. -/
theorem source?_serviceRuntime (kind' : String) (runtime : ServiceRuntime)
    (type : RepositoryGoblinType) (kind : String) :
  RepositoryDb.source? { db with services := updateNotebookServiceRuntime db.services kind' runtime }
      type kind
    = db.source? type kind
  := by
  cases type with
  | notebookFunction => rfl
  | notebookService =>
      simp only [RepositoryDb.source?, updateNotebookServiceRuntime]
      rw [Table.find?_update, Option.map_map]
      congr 1
      funext record
      simp only [Function.comp]
      split <;> rfl

/-- A deletion removes the sources under the kinds of the versions of its entry. -/
theorem source?_deleteRepositoryEntry {entryId : Id}
    (h : deleteRepositoryEntry db entryId = .ok db') :
  ∃ entry, db.entries.find? entryId = some entry
    ∧ [RepositoryStatus.draft, .rejected, .retired].contains entry.status = true
    ∧ ∀ type kind, (∀ version ∈ db.versions.table.rows, version.entryId = entryId →
        version.kind = kind → type ≠ entry.type) →
      db'.source? type kind = db.source? type kind
  := by
  obtain ⟨entry, hentry, hstatus, hgoblins, hservices⟩ := records_of_deleteRepositoryEntry h
  use entry, hentry, hstatus
  intro type kind hkinds
  have hnot : ¬(entry.type = type ∧ kind ∈ (db.versions.table.select
      (fun version => decide (version.entryId = entryId))).map RepositoryVersionRecord.kind) := by
    rintro ⟨htype, hmember⟩
    obtain ⟨version, hversion, hkind⟩ := List.mem_map.mp hmember
    obtain ⟨hrow, hown⟩ := List.mem_filter.mp hversion
    apply hkinds version hrow (of_decide_eq_true hown) hkind htype.symm
  cases type with
  | notebookFunction => rw [RepositoryDb.source?, RepositoryDb.source?, hgoblins, if_neg hnot]
  | notebookService => rw [RepositoryDb.source?, RepositoryDb.source?, hservices, if_neg hnot]

/-- The sources match after a write of the store that leaves other sources alone. -/
theorem SourcesMatch.store {write : StoreWrite} (hdb : SourcesMatch db)
    (hplain : (ApiWrite.store write).Plain db) (hkeeps : keepsSources db (.store write) = true)
    (h : write.commit db = .ok db') :
  SourcesMatch db'
  := by
  intro k version' entry' hversion' hentry'
  rcases version_origin hplain h hversion' with ⟨version, hversion, hsame⟩ | rfl
  · rcases entry_origin hplain h hentry' with ⟨entry, hentry, hproject, htype⟩ | ⟨rfl, hid⟩
    · have hsource : db'.source? entry'.type version'.kind
          = db.source? entry'.type version'.kind := by
        by_cases hdelete : ∃ entryId, write = .deleteEntry entryId
        · obtain ⟨entryId, rfl⟩ := hdelete
          obtain ⟨deleted, hdeleted, hstatus, hsources⟩ := source?_deleteRepositoryEntry h
          apply hsources
          intro used hused hown hkind htypes
          -- the version that is left shares its kind with one that is deleted
          simp only [keepsSources, hdeleted, hstatus, Bool.not_true, Bool.false_or, kindsUnshared]
            at hkeeps
          have hrow := List.all_eq_true.mp (List.all_eq_true.mp hkeeps used hused) version
            (Table.mem_of_find? hversion)
          have hleft : version.entryId ≠ deleted.id := by
            intro hsame'
            rw [(deleteRepositoryEntry_ok h).1] at hentry'
            obtain ⟨hold, hother⟩ := Option.filter_eq_some_iff.mp hentry'
            rw [IndexedTable.key_of_find? hdeleted] at hsame'
            simp [IndexedTable.key_of_find? hold, hsame.1, hsame'] at hother
          rw [hsame.1] at hentry
          rw [hentry] at hrow
          simp only [Bool.or_eq_true, decide_eq_true_eq] at hrow
          rcases hrow with ((howner | howner) | hkinds) | htypes'
          · apply howner
            rw [IndexedTable.key_of_find? hdeleted, hown]
          · apply hleft howner
          · apply hkinds
            rw [hkind, hsame.2.1]
          · apply htypes'
            rw [← htype, htypes]
        · obtain ⟨hgoblins, hservices⟩ :=
            notebooks_of_commit h (fun entryId heq => hdelete ⟨entryId, heq⟩)
          simp only [RepositoryDb.source?, hgoblins, hservices]
      rw [hsource, htype, hproject, hsame.2.1, hsame.2.2]
      rw [hsame.1] at hentry
      apply hdb k version entry hversion hentry
    · rw [← hid] at hsame
      cases hplain k version hversion hsame.1.symm
  · rcases entry_origin hplain h hentry' with ⟨entry, hentry, hproject, htype⟩ | ⟨hcreate, -⟩
    · obtain ⟨hgoblins, hservices⟩ := notebooks_of_commit h (by simp)
      have hfree := findIndex?_of_createRepositoryVersion h
      simp only [keepsSources, hentry, hfree, Option.isSome_none, Bool.false_or,
        decide_eq_true_eq] at hkeeps
      rw [htype, hproject, ← hkeeps]
      simp only [RepositoryDb.source?, hgoblins, hservices]
    · cases hcreate

/-- The sources match after a write that leaves other sources alone. -/
theorem SourcesMatch.commit {write : ApiWrite} (hdb : SourcesMatch db) (hplain : write.Plain db)
    (hkeeps : keepsSources db write = true) (h : write.commit db = .ok db') :
  SourcesMatch db'
  := by
  cases write with
  | store write => apply hdb.store hplain hkeeps h
  | goblin record =>
      cases h
      intro k version entry hversion hentry
      rw [source?_saveNotebookGoblin]
      split
      case isTrue hused =>
        rw [eq_of_usedWith hkeeps hversion hentry hused.1 hused.2.symm]
      case isFalse => apply hdb k version entry hversion hentry
  | service record =>
      cases h
      intro k version entry hversion hentry
      rw [source?_saveNotebookService]
      split
      case isTrue hused =>
        rw [eq_of_usedWith hkeeps hversion hentry hused.1 hused.2.symm]
      case isFalse => apply hdb k version entry hversion hentry
  | serviceRuntime kind runtime =>
      cases h
      intro k version entry hversion hentry
      rw [source?_serviceRuntime]
      apply hdb k version entry hversion hentry

end

/-! ### What requests hold -/

/-- A call of the store that is not made by a submission. -/
def StoreCall.OfReview : StoreCall → Prop
  | .transitionVersion _ _ _ | .transitionEntry _ _ => True
  | _ => False

/-- A write of the store that is not made by a submission. -/
def StoreWrite.OfReview : StoreWrite → Prop
  | .transitionVersion _ _ _ | .transitionEntry _ _ | .deleteEntry _ => True
  | _ => False

/-- What a request holds is not out of date: the copy of an entry has the identifier, the
project and the type of the row, if the entry is still there. -/
def RequestPhase.Sound (db : RepositoryDb) (drawn : List Id) : RequestPhase → Prop
  | .submitUpdate _ entry | .submitWriteUpdate _ _ entry =>
      entry.id ∈ drawn ∧ ∀ row, db.entries.find? entry.id = some row →
        row.projectId = entry.projectId ∧ row.type = entry.type
  | .storeRead call => call.OfReview
  | .storeWrite write => write.OfReview
  | _ => True

/-- Entries with a drawn identifier keep their project and their type. -/
def EntriesKept (drawn : List Id) (db db' : RepositoryDb) : Prop :=
  ∀ k ∈ drawn, ∀ entry', db'.entries.find? k = some entry' →
    ∃ entry, db.entries.find? k = some entry ∧ entry'.projectId = entry.projectId
      ∧ entry'.type = entry.type

section

variable {settings : ApiSettings} {db db' : RepositoryDb} {drawn : List Id} {input : StepInput}
variable {phase next : RequestPhase}

/-- What a request holds stays sound while entries are kept. -/
theorem RequestPhase.Sound.keep {fresh : Id} (h : phase.Sound db drawn)
    (hkept : EntriesKept drawn db db') :
  phase.Sound db' (fresh :: drawn)
  := by
  have hagree : ∀ entry : RepositoryEntryRecord, (entry.id ∈ drawn ∧
      ∀ row, db.entries.find? entry.id = some row →
        row.projectId = entry.projectId ∧ row.type = entry.type) →
      entry.id ∈ fresh :: drawn ∧ ∀ row, db'.entries.find? entry.id = some row →
        row.projectId = entry.projectId ∧ row.type = entry.type := by
    rintro entry ⟨hdrawn, hentry⟩
    use List.mem_cons_of_mem fresh hdrawn
    intro row' hrow'
    obtain ⟨row, hrow, hproject, htype⟩ := hkept entry.id hdrawn row' hrow'
    rw [hproject, htype]
    apply hentry row hrow
  cases phase with
  | submitUpdate submission entry => apply hagree entry h
  | submitWriteUpdate submission existing entry => apply hagree entry h
  | storeRead call => apply h
  | storeWrite write => apply h
  | _ => trivial

/-- A request starts sound. -/
theorem sound_of_openRequest {now : Instant} {request : ApiRequest}
    (h : openRequest settings now request = .ok phase) :
  phase.Sound db drawn
  := by
  cases request with
  | submit principal request =>
      obtain ⟨_, -, h⟩ := Except.bind_eq_ok.mp h
      obtain ⟨_, -, h⟩ := Except.bind_eq_ok.mp h
      obtain ⟨_, -, h⟩ := Except.bind_eq_ok.mp h
      obtain ⟨_, -, h⟩ := Except.bind_eq_ok.mp h
      cases h
      trivial
  | createNotebookGoblin principal request =>
      obtain ⟨_, -, h⟩ := Except.bind_eq_ok.mp h
      obtain ⟨_, -, h⟩ := Except.bind_eq_ok.mp h
      obtain ⟨_, -, h⟩ := Except.bind_eq_ok.mp h
      cases h
      trivial
  | createNotebookService principal request | review principal action entryId version
  | retire principal entryId | delete principal entryId =>
      obtain ⟨_, -, h⟩ := Except.bind_eq_ok.mp h
      obtain ⟨_, -, h⟩ := Except.bind_eq_ok.mp h
      cases h
      trivial

/-- A request stays sound when it reads. -/
theorem sound_of_readPhase (hdrawn : ∀ k entry, db.entries.find? k = some entry → k ∈ drawn)
    (hphase : phase.Sound db drawn) (h : readPhase settings db input phase = .ok (some next)) :
  next.Sound db drawn
  := by
  cases phase with
  | submitFind submission =>
      rw [readPhase] at h
      split at h
      · cases h
        trivial
      case h_2 existing hexisting =>
        obtain ⟨_, -, h⟩ := Except.bind_eq_ok.mp h
        obtain ⟨_, -, h⟩ := Except.bind_eq_ok.mp h
        obtain ⟨_, -, h⟩ := Except.bind_eq_ok.mp h
        cases h
        have hrow : db.entries.find? existing.id = some existing :=
          Table.find?_of_mem (List.mem_of_find?_eq_some hexisting)
        use hdrawn existing.id existing hrow
        intro row hrow'
        rw [hrow] at hrow'
        obtain rfl := Option.some.inj hrow'
        exact ⟨rfl, rfl⟩
  | submitUpdate submission existing =>
      obtain ⟨row, -, h⟩ := Except.bind_eq_ok.mp h
      cases h
      apply hphase
  | validateNotebook entry version =>
      rw [readPhase] at h
      split at h
      all_goals
        obtain ⟨_, -, h⟩ := Except.bind_eq_ok.mp h
        obtain ⟨_, -, h⟩ := Except.bind_eq_ok.mp h
        cases h
        trivial
  | reviewVersion review entry =>
      obtain ⟨version, -, h⟩ := Except.bind_eq_ok.mp h
      obtain ⟨_, -, h⟩ := Except.bind_eq_ok.mp h
      split at h
      all_goals
        cases h
        trivial
  | deleteVersions entry =>
      rw [readPhase] at h
      split at h
      all_goals
        cases h
        trivial
  | deleteServices entryId kinds =>
      cases kinds with
      | nil =>
          cases h
          trivial
      | cons kind kinds =>
          obtain ⟨_, -, h⟩ := Except.bind_eq_ok.mp h
          cases h
          trivial
  | storeRead call =>
      obtain ⟨write, hread, h⟩ := Except.bind_eq_ok.mp h
      obtain ⟨write, rfl, rfl⟩ := Option.map_eq_some_iff.mp (Except.ok.inj h)
      cases readStep_of_read hread with
      | transitionVersion | transitionEntry => trivial
      | _ => cases hphase
  | submitReload _ _ | submitVersions _ _ | submitCreated _ _ =>
      obtain ⟨_, -, h⟩ := Except.bind_eq_ok.mp h
      cases h
      trivial
  | goblinFind _ _ _ | serviceFind _ _ _ =>
      obtain ⟨_, -, h⟩ := Except.bind_eq_ok.mp h
      cases h
      trivial
  | serviceFindGoblin _ _ | retireEntry _ _ =>
      obtain ⟨_, -, h⟩ := Except.bind_eq_ok.mp h
      obtain ⟨_, -, h⟩ := Except.bind_eq_ok.mp h
      cases h
      trivial
  | reviewEntry _ | deleteEntry _ _ =>
      obtain ⟨_, -, h⟩ := Except.bind_eq_ok.mp h
      obtain ⟨_, -, h⟩ := Except.bind_eq_ok.mp h
      obtain ⟨_, -, h⟩ := Except.bind_eq_ok.mp h
      cases h
      trivial
  | _ => cases h

/-- A request is sound after it has written. -/
theorem sound_of_afterWrite (h : phase.afterWrite settings input = some next) :
  next.Sound db drawn
  := by
  cases phase with
  | submitWriteUpdate _ _ _ | submitCreate _ | submitSave _ _ _ | validateRuntime _ _ =>
      cases h
      trivial
  | _ => cases h

/-- The writes of a sound request are plain. -/
theorem plain_of_write {write : ApiWrite} (hfresh : input.freshId ∉ drawn)
    (hversions : ∀ k version, db.versions.find? k = some version → version.entryId ∈ drawn)
    (hphase : phase.Sound db drawn) (h : phase.write settings input = some write) :
  write.Plain db
  := by
  cases phase with
  | submitWriteUpdate submission existing values =>
      cases h
      apply hphase.2
  | submitCreate submission =>
      cases h
      intro k version hversion hsame
      apply hfresh
      rw [show input.freshId = version.entryId from hsame.symm]
      apply hversions k version hversion
  | submitSave submission entry version =>
      cases h
      rw [Submission.notebook]
      split <;> trivial
  | storeWrite write =>
      cases h
      cases write with
      | transitionVersion | transitionEntry | deleteEntry => trivial
      | _ => cases hphase
  | submitVersion _ | goblinSave _ | serviceSave _ | validateRuntime _ _ =>
      cases h
      trivial
  | _ => cases h

/-- Only a submission creates an entry, under the identifier that it has just drawn. -/
theorem id_of_createEntry {entry : RepositoryEntryRecord} (hphase : phase.Sound db drawn)
    (h : phase.write settings input = some (.store (.createEntry entry))) :
  entry.id = input.freshId
  := by
  cases phase with
  | submitCreate submission =>
      obtain rfl : submission.entry input.freshId = entry :=
        StoreWrite.createEntry.inj (ApiWrite.store.inj (Option.some.inj h))
      rfl
  | storeWrite write =>
      cases h
      cases hphase
  | submitSave submission entry version =>
      simp only [RequestPhase.write, Submission.notebook] at h
      split at h <;> cases h
  | _ => cases h

/-- A write of a request keeps the entries that were drawn before. -/
theorem entriesKept_of_write {write : ApiWrite} (hfresh : input.freshId ∉ drawn)
    (hplain : write.Plain db) (hphase : phase.Sound db drawn)
    (hwrite : phase.write settings input = some write) (h : write.commit db = .ok db') :
  EntriesKept drawn db db'
  := by
  intro k hk entry' hentry'
  cases write with
  | store write =>
      rcases entry_origin hplain h hentry' with horigin | ⟨rfl, hid⟩
      · apply horigin
      · rw [← hid, id_of_createEntry hphase hwrite] at hk
        cases hfresh hk
  | goblin record | service record | serviceRuntime kind runtime =>
      cases h
      exact ⟨entry', hentry', rfl, rfl⟩

/-- The entries after a write of a request have drawn identifiers. -/
theorem entries_drawn {write : ApiWrite} (hplain : write.Plain db)
    (hphase : phase.Sound db drawn) (hwrite : phase.write settings input = some write)
    (h : write.commit db = .ok db')
    (hentries : ∀ k entry, db.entries.find? k = some entry → k ∈ drawn) (k : Id)
    (entry' : RepositoryEntryRecord) (hentry' : db'.entries.find? k = some entry') :
  k ∈ input.freshId :: drawn
  := by
  cases write with
  | store write =>
      rcases entry_origin hplain h hentry' with ⟨entry, hentry, -⟩ | ⟨rfl, hid⟩
      · apply List.mem_cons_of_mem
        apply hentries k entry hentry
      · rw [← hid, id_of_createEntry hphase hwrite]
        apply List.mem_cons_self
  | goblin record | service record | serviceRuntime kind runtime =>
      cases h
      apply List.mem_cons_of_mem
      apply hentries k entry' hentry'

/-- The versions after a write of a request are of drawn entries. -/
theorem versions_drawn {write : ApiWrite} (hplain : write.Plain db)
    (h : write.commit db = .ok db')
    (hentries : ∀ k entry, db.entries.find? k = some entry → k ∈ drawn)
    (hversions : ∀ k version, db.versions.find? k = some version → version.entryId ∈ drawn)
    (k : Id) (version' : RepositoryVersionRecord) (hversion' : db'.versions.find? k = some version') :
  version'.entryId ∈ drawn
  := by
  cases write with
  | store write =>
      rcases version_origin hplain h hversion' with ⟨version, hversion, hsame, -⟩ | rfl
      · rw [hsame]
        apply hversions k version hversion
      · obtain ⟨-, ⟨entry, hentry, -⟩, -⟩ := createRepositoryVersion_ok h
        apply hentries version'.entryId entry hentry
  | goblin record | service record | serviceRuntime kind runtime =>
      cases h
      apply hversions k version' hversion'

end

/-! ### Runs of the API -/

/-- What a run that leaves other sources alone keeps. -/
structure SourcesInvariant (σ : RepositoryApi) : Prop where
  entries : ∀ k entry, σ.db.entries.find? k = some entry → k ∈ σ.drawn
  versions : ∀ k version, σ.db.versions.find? k = some version → version.entryId ∈ σ.drawn
  sound : ∀ r phase, σ.requests r = some phase → phase.Sound σ.db σ.drawn
  sources : SourcesMatch σ.db

/-- A step of the API: the tables and the drawn identifiers stay, or a request makes a
transaction. -/
theorem apiStep_cases {settings : ApiSettings} {σ τ : RepositoryApi} {a : ApiAction}
    (h : apiStep settings σ a = some τ) :
  (τ.db = σ.db ∧ τ.drawn = σ.drawn ∧ ∃ requestId, τ.requests = σ.requests
      ∨ τ.requests = Function.update σ.requests requestId none
      ∨ ∃ now request phase, openRequest settings now request = .ok phase
        ∧ τ.requests = Function.update σ.requests requestId (some phase))
    ∨ ∃ requestId input phase db next, a = .advance requestId input
      ∧ σ.requests requestId = some phase ∧ input.freshId ∉ σ.drawn
      ∧ requestStep settings σ.db input phase = .ok (db, next)
      ∧ τ = ⟨db, Function.update σ.requests requestId next, input.freshId :: σ.drawn⟩
  := by
  cases a with
  | receive requestId now request =>
      left
      simp only [apiStep] at h
      split at h
      · cases h
      · split at h
        case h_1 =>
          obtain rfl := Option.some.inj h
          exact ⟨rfl, rfl, requestId, .inl rfl⟩
        case h_2 phase hopen =>
          obtain rfl := Option.some.inj h
          exact ⟨rfl, rfl, requestId, .inr (.inr ⟨now, request, phase, hopen, rfl⟩)⟩
  | advance requestId input =>
      simp only [apiStep] at h
      split at h
      · cases h
      case h_2 phase hphase =>
        split at h
        · cases h
        case isFalse hfresh =>
          split at h
          case h_1 =>
            obtain rfl := Option.some.inj h
            exact .inl ⟨rfl, rfl, requestId, .inr (.inl rfl)⟩
          case h_2 db next hnext =>
            obtain rfl := Option.some.inj h
            exact .inr ⟨requestId, input, phase, db, next, rfl, hphase, hfresh, hnext, rfl⟩

/-- A transaction of a request writes, or reads only. -/
theorem requestStep_cases {settings : ApiSettings} {db db' : RepositoryDb} {input : StepInput}
    {phase : RequestPhase} {next : Option RequestPhase}
    (h : requestStep settings db input phase = .ok (db', next)) :
  (∃ write, phase.write settings input = some write ∧ write.commit db = .ok db'
      ∧ next = phase.afterWrite settings input)
    ∨ (db' = db ∧ readPhase settings db input phase = .ok next)
  := by
  rw [requestStep] at h
  split at h
  case h_1 write hwrite =>
    obtain ⟨_, -, h⟩ := Except.bind_eq_ok.mp h
    obtain ⟨db'', hcommit, h⟩ := Except.bind_eq_ok.mp h
    cases h
    exact .inl ⟨write, hwrite, hcommit, rfl⟩
  case h_2 =>
    obtain ⟨next', hread, h⟩ := Except.bind_eq_ok.mp h
    cases h
    exact .inr ⟨rfl, hread⟩

/-- What is under way stays sound when one request goes on and entries are kept. -/
theorem sound_update {db' : RepositoryDb} {requests : Id → Option RequestPhase}
    {drawn' : List Id} {next : Option RequestPhase} {requestId : Id}
    (hothers : ∀ r phase, requests r = some phase → phase.Sound db' drawn')
    (hnext : ∀ phase, next = some phase → phase.Sound db' drawn') (r : Id) (phase : RequestPhase)
    (h : Function.update requests requestId next r = some phase) :
  phase.Sound db' drawn'
  := by
  by_cases hr : r = requestId
  · subst hr
    rw [Function.update_self] at h
    apply hnext phase h
  · rw [Function.update_of_ne hr] at h
    apply hothers r phase h

/-- What requests hold is sound, and every identifier of an entry was drawn. -/
structure RequestsSound (σ : RepositoryApi) : Prop where
  entries : ∀ k entry, σ.db.entries.find? k = some entry → k ∈ σ.drawn
  versions : ∀ k version, σ.db.versions.find? k = some version → version.entryId ∈ σ.drawn
  sound : ∀ r phase, σ.requests r = some phase → phase.Sound σ.db σ.drawn

/-- Before the first request there is nothing to hold. -/
theorem requestsSound_init : RequestsSound RepositoryApi.init
  := by
  constructor
  · intro k entry hentry
    cases hentry
  · intro k version hversion
    cases hversion
  · intro r phase hphase
    cases hphase

/-- What requests hold is sound after a step. The step leaves the tables alone, or makes the
write of a request. -/
theorem RequestsSound.step {settings : ApiSettings} {σ τ : RepositoryApi} {a : ApiAction}
    (hσ : RequestsSound σ) (h : apiStep settings σ a = some τ) :
  RequestsSound τ ∧ (τ.db = σ.db ∨ ∃ requestId input phase write, a = .advance requestId input
    ∧ σ.requests requestId = some phase ∧ phase.write settings input = some write
    ∧ write.Plain σ.db ∧ write.commit σ.db = .ok τ.db)
  := by
  rcases apiStep_cases h with ⟨hdb, hdrawn, requestId, hrequests⟩
    | ⟨requestId, input, phase, db, next, rfl, hphase, hfresh, hstep, rfl⟩
  · refine ⟨⟨?_, ?_, ?_⟩, .inl hdb⟩
    · rw [hdb, hdrawn]
      apply hσ.entries
    · rw [hdb, hdrawn]
      apply hσ.versions
    · rw [hdb, hdrawn]
      rcases hrequests with hrequests | hrequests | ⟨now, request, phase, hopen, hrequests⟩
      · rw [hrequests]
        apply hσ.sound
      · rw [hrequests]
        apply sound_update hσ.sound
        intro phase' hphase'
        cases hphase'
      · rw [hrequests]
        apply sound_update hσ.sound
        intro phase' hphase'
        obtain rfl := Option.some.inj hphase'
        apply sound_of_openRequest hopen
  · have hsound := hσ.sound requestId phase hphase
    rcases requestStep_cases hstep with ⟨write, hwrite, hcommit, rfl⟩ | ⟨rfl, hread⟩
    · have hplain := plain_of_write hfresh hσ.versions hsound hwrite
      have hentries := entriesKept_of_write hfresh hplain hsound hwrite hcommit
      refine ⟨⟨?_, ?_, ?_⟩,
        .inr ⟨requestId, input, phase, write, rfl, hphase, hwrite, hplain, hcommit⟩⟩
      · apply entries_drawn hplain hsound hwrite hcommit hσ.entries
      · intro k version hversion
        apply List.mem_cons_of_mem
        apply versions_drawn hplain hcommit hσ.entries hσ.versions k version hversion
      · apply sound_update
        · intro r phase' hphase'
          apply (hσ.sound r phase' hphase').keep hentries
        · intro phase' hphase'
          apply sound_of_afterWrite hphase'
    · have hsame : EntriesKept σ.drawn σ.db σ.db := fun k _ entry hentry =>
        ⟨entry, hentry, rfl, rfl⟩
      refine ⟨⟨?_, ?_, ?_⟩, .inl rfl⟩
      · intro k entry hentry
        apply List.mem_cons_of_mem
        apply hσ.entries k entry hentry
      · intro k version hversion
        apply List.mem_cons_of_mem
        apply hσ.versions k version hversion
      · apply sound_update
        · intro r phase' hphase'
          apply (hσ.sound r phase' hphase').keep hsame
        · rintro phase' rfl
          apply (sound_of_readPhase hσ.entries hsound hread).keep hsame

/-- A step that leaves other sources alone keeps the invariant. -/
theorem SourcesInvariant.step {settings : ApiSettings} {σ τ : RepositoryApi} {a : ApiAction}
    (hσ : SourcesInvariant σ) (hkept : sourcesKept settings σ a = true)
    (h : apiStep settings σ a = some τ) :
  SourcesInvariant τ
  := by
  obtain ⟨hsound, hdb⟩ := RequestsSound.step ⟨hσ.entries, hσ.versions, hσ.sound⟩ h
  refine ⟨hsound.entries, hsound.versions, hsound.sound, ?_⟩
  rcases hdb with hdb | ⟨requestId, input, phase, write, rfl, hphase, hwrite, hplain, hcommit⟩
  · rw [hdb]
    apply hσ.sources
  · apply hσ.sources.commit hplain _ hcommit
    simpa [sourcesKept, hphase, hwrite, hcommit] using hkept

/-- Along every run of requests whose writes leave the sources of versions alone, the notebook
record under the kind of every version is the source that was submitted. -/
theorem sources_match (settings : ApiSettings) (as : List ApiAction)
    (h : Transition.Along (apiStep settings) (fun σ a _ => sourcesKept settings σ a = true)
      RepositoryApi.init as) :
  Transition.Along (apiStep settings) (fun _ _ τ => SourcesMatch τ.db) RepositoryApi.init as
  := by
  apply Transition.along_of_invariant (I := SourcesInvariant) _ _ h
  · intro σ a τ hσ hkept hstep
    have hτ := hσ.step hkept hstep
    exact ⟨hτ, hτ.sources⟩
  · refine ⟨requestsSound_init.entries, requestsSound_init.versions, requestsSound_init.sound, ?_⟩
    intro k version entry hversion
    cases hversion

/-- Settings with which the runs below are replayed: the functions on strings are those of
ASCII, and the digests are those of the two sources. -/
def ApiSettings.sample : ApiSettings where
  repositoryEnabled := true
  defaultProjectId := some "default"
  notebookFunctionImage := "goblin-notebook-runner"
  notebookServiceImage := "goblin-notebook-service"
  registered := fun _ => false
  lower := String.toLower
  isalnum := Char.isAlphanum
  sha256 := fun text =>
    if text = "run\x00def run(payload): return payload" then
      "e5054fb9a42c745162f1421ee86fcb2d5b202b524fd817fdbe22e7d93399d556"
    else
      "feb03cb3f1f05948a0867e9bbf69ae259ba779118b62bd8bf6bb843619ce998e"
  dumpsService := fun _ _ source => source

/-- Two members of one project. -/
def alice : Principal where
  userId := "alice"
  role := .member
  projectId := some "team-a"

def bob : Principal where
  userId := "bob"
  role := .member
  projectId := some "team-a"

/-- One request from its start to its end, in steps that draw the identifiers in order. -/
def requestSteps (requestId : Id) (request : ApiRequest) (freshIds : List Id) : List ApiAction :=
  .receive requestId 0 request :: freshIds.map (fun freshId =>
    .advance requestId { now := 1, freshId := freshId })

/-- A member submits the first version of an entry. -/
def submitReports : List ApiAction :=
  requestSteps "r1" (.submit alice
    { name := "reports", source := "def run(payload): return payload" })
    ["d1", "e1", "d2", "d3", "v1"]

/-- The record under the kind of a submitted version is what was submitted. -/
theorem sources_match_submitted :
  Transition.Along (apiStep .sample) (fun _ _ τ => SourcesMatch τ.db) RepositoryApi.init
    submitReports
  := by
  apply sources_match
  have hrun : (Transition.runUnder (apiStep .sample) (sourcesKept .sample) RepositoryApi.init
      submitReports).isSome = true := by
    decide +kernel
  obtain ⟨σ, hσ⟩ := Option.isSome_iff_exists.mp hrun
  apply Transition.along_of_runUnder hσ

/-- Another member builds a function under the kind of the version. -/
def rebuildReports : ApiRequest :=
  .createNotebookGoblin bob
    { kind := "repository.team-a.reports.v1", source := "def run(payload): return 0" }

/-- The source of a version can be replaced. -/
theorem notebook_goblin_replaces_source :
  ¬ ∀ (settings : ApiSettings) as, Transition.Along (apiStep settings)
    (fun _ _ τ => SourcesMatch τ.db) RepositoryApi.init as
  := by
  intro h
  have hmismatch : (Transition.run (apiStep .sample) RepositoryApi.init
      ((submitReports ++ (requestSteps "r2" rebuildReports ["d4"]))
        ++ [.advance "r2" { now := 1, freshId := "d5" }])).map
      (fun τ => decide (SourcesMatch τ.db)) = some false := by
    decide +kernel
  obtain ⟨τ, hrun, hmismatch⟩ := Option.map_eq_some_iff.mp hmismatch
  obtain ⟨_, -, -, hmatch⟩ := Transition.along_last (h .sample _) hrun
  apply of_decide_eq_false hmismatch hmatch

end GoblinKing
