import GoblinKing.Repository.Calls

/-!
# Retired entries and published versions

What holds of the entries of the repository after calls that follow one another: a retired
entry stays retired until it is deleted, an active name belongs to one entry, and an entry
points at a version only if that version is published. A change of a version writes the
status of its entry without a look at it, and a transition of an entry takes along any version
number; the result is about the calls that do neither harm.
-/

namespace GoblinKing

/-- An entry has a version with the number, and it is published. -/
def RepositoryDb.Published (db : RepositoryDb) (entryId : Id) (version : ℕ) : Prop :=
  ∃ row, db.versions.findIndex? (entryId, version) = some row ∧ row.status = .published

instance (db : RepositoryDb) (entryId : Id) (version : ℕ) :
    Decidable (db.Published entryId version) :=
  match h : db.versions.findIndex? (entryId, version) with
  | none => .isFalse (by simp [RepositoryDb.Published, h])
  | some row => decidable_of_iff (row.status = .published) (by simp [RepositoryDb.Published, h])

/-- An entry that is retired is still so, or is gone. -/
def RetiredKept (db db' : RepositoryDb) : Prop :=
  ∀ k entry entry', db.entries.find? k = some entry → entry.status = .retired →
    db'.entries.find? k = some entry' → entry'.status = .retired

/-- At most one entry that is not retired has a name in a project. -/
def NamesUnique (db : RepositoryDb) : Prop :=
  ∀ k k' entry entry', db.entries.find? k = some entry → db.entries.find? k' = some entry' →
    entry.status ≠ .retired → entry'.status ≠ .retired → entry.projectId = entry'.projectId →
    entry.name = entry'.name → k = k'

/-- The version that an entry points at is one of its versions, and is published. -/
def PointersValid (db : RepositoryDb) : Prop :=
  ∀ k entry version, db.entries.find? k = some entry → entry.publishedVersion = some version →
    db.Published k version

/-! ### Calls that do no harm -/

/-- An entry is there and is retired. -/
def entryRetired (db : RepositoryDb) (entryId : Id) : Bool :=
  decide ((db.entries.find? entryId).map RepositoryEntryRecord.status = some .retired)

/-- A call would write the status of a version to a retired entry. -/
def revives (db : RepositoryDb) : StoreCall → Bool
  | .updateVersion version =>
      entryRetired db version.entryId && decide (version.status = .published)
        && (readVersionUpdate db version).isOk && (ensureRepositoryVersionPublishable version).isOk
  | .transitionVersion entryId version transition =>
      entryRetired db entryId && decide (transition.status ≠ .retired)
        && (readVersionTransition db entryId version transition).isOk
  | _ => false

/-- A call would point an entry that is not being published at a version that is not
published. -/
def misdirects (db : RepositoryDb) : StoreCall → Bool
  | .transitionEntry entryId transition =>
      decide (transition.status ≠ .published)
        && transition.publishedVersion.any (fun version => !decide (db.Published entryId version))
        && (readEntryTransition db entryId transition).isOk
  | _ => false

/-- The condition on a call that is carried out. -/
def harmless (db : RepositoryDb) (call : StoreCall) : Bool :=
  !(call.run db).isOk || (!revives db call && !misdirects db call)

section

variable {db db' : RepositoryDb} {call : StoreCall} {write : StoreWrite}

/-- A call that has an effect reads and then writes. -/
theorem callStep_cases (h : callStep db call = some db') :
  db' = db ∨ ∃ write, call.read db = .ok (some write) ∧ write.commit db = .ok db'
  := by
  rw [callStep] at h
  split at h
  case h_1 db'' hrun =>
    obtain rfl := Option.some.inj h
    obtain ⟨result, hread, hwrite⟩ := Except.bind_eq_ok.mp hrun
    cases result with
    | none =>
        cases hwrite
        exact .inl rfl
    | some write => exact .inr ⟨write, hread, hwrite⟩
  case h_2 =>
    obtain rfl := Option.some.inj h
    exact .inl rfl

/-- A transition that is not rejected follows the transitions of its status. -/
theorem validateRepositoryTransition_ok {current target : RepositoryStatus}
    (h : validateRepositoryTransition current target = .ok ()) :
  current.mayBecome target = true
  := by
  rw [validateRepositoryTransition] at h
  split at h
  · assumption
  · cases h

/-- What is retired may only stay retired. -/
theorem eq_retired_of_mayBecome {target : RepositoryStatus}
    (h : RepositoryStatus.retired.mayBecome target = true) :
  target = .retired
  := by
  cases target <;> first | rfl | cases h

/-- What has been read for the update of an entry. -/
theorem readEntryUpdate_ok {existing entry : RepositoryEntryRecord}
    (h : readEntryUpdate db entry = .ok existing) :
  db.entries.find? entry.id = some existing ∧ existing.status.mayBecome entry.status = true
  := by
  rw [readEntryUpdate] at h
  split at h
  · cases h
  case h_2 row hrow =>
    obtain ⟨_, hvalid, h⟩ := Except.bind_eq_ok.mp h
    obtain ⟨_, -, h⟩ := Except.bind_eq_ok.mp h
    cases h
    exact ⟨hrow, validateRepositoryTransition_ok hvalid⟩

/-- What has been read for the transition of an entry: the status is the one that was asked
for, and only a published entry gets another version than that. -/
theorem readEntryTransition_ok {entryId : Id} {transition transition' : EntryTransition}
    (h : readEntryTransition db entryId transition = .ok transition') :
  ∃ existing, db.entries.find? entryId = some existing
    ∧ existing.status.mayBecome transition'.status = true
    ∧ transition'.status = transition.status
    ∧ (transition.status ≠ .published →
      transition'.publishedVersion = transition.publishedVersion)
  := by
  rw [readEntryTransition] at h
  split at h
  · cases h
  case h_2 existing hexisting =>
    obtain ⟨_, hvalid, h⟩ := Except.bind_eq_ok.mp h
    have hbecome := validateRepositoryTransition_ok hvalid
    use existing, hexisting
    split at h
    case isTrue hpublished =>
      split at h
      · cases h
      · cases h
        use hbecome, rfl
        intro hnot
        cases hnot hpublished
    case isFalse =>
      cases h
      use hbecome, rfl
      intro _
      rfl

/-- A version that may be updated is not published, and keeps its number. -/
theorem readVersionUpdate_ok {version : RepositoryVersionRecord}
    (h : readVersionUpdate db version = .ok ()) :
  ∃ existing, db.versions.find? version.id = some existing ∧ existing.status ≠ .published
    ∧ existing.identity = version.identity
  := by
  rw [readVersionUpdate] at h
  split at h
  · cases h
  case h_2 existing hexisting =>
    obtain ⟨_, hfrozen, h⟩ := Except.bind_eq_ok.mp h
    obtain ⟨_, hidentity, -⟩ := Except.bind_eq_ok.mp h
    rw [raiseIf_ok, decide_eq_false_iff_not] at hfrozen hidentity
    exact ⟨existing, hexisting, hfrozen, not_not.mp hidentity⟩

/-- A version whose status may be changed is not published. -/
theorem readVersionTransition_ok {entryId : Id} {version : ℕ} {transition : VersionTransition}
    {values : VersionValues}
    (h : readVersionTransition db entryId version transition = .ok (some values)) :
  ∃ existing, db.versions.findIndex? (entryId, version) = some existing
    ∧ existing.status ≠ .published ∧ values.status = transition.status
  := by
  rw [readVersionTransition] at h
  split at h
  · cases h
  case h_2 existing hexisting =>
    split at h
    · split at h <;> cases h
    case isFalse hfrozen =>
      obtain ⟨values', hvalues, h⟩ := Except.bind_eq_ok.mp h
      cases h
      exact ⟨existing, hexisting, hfrozen, status_of_transitionValues hvalues⟩

/-! ### What a call keeps -/

/-- A harmless call keeps retired entries retired. -/
theorem retiredKept_of_commit (hread : ReadStep db call write) (hrevives : revives db call = false)
    (h : write.commit db = .ok db') :
  RetiredKept db db'
  := by
  intro k entry entry' hentry hretired hentry'
  have hrow : entryRetired db k = true := by simp [entryRetired, hentry, hretired]
  have hstep := entryStep_of_commit h k
  rw [hentry, hentry'] at hstep
  cases hstep with
  | keep => apply hretired
  | update hwrite hid =>
      subst hwrite hid
      cases hread with
      | updateEntry hread =>
          obtain ⟨hexisting, hbecome⟩ := readEntryUpdate_ok hread
          rw [hentry] at hexisting
          obtain rfl := Option.some.inj hexisting
          rw [hretired] at hbecome
          apply eq_retired_of_mayBecome hbecome
  | createVersion hwrite hid hlive => cases hlive hretired
  | publish hwrite hid hpublished =>
      subst hwrite hid
      cases hread with
      | updateVersion hread =>
          obtain ⟨hpublishable, -⟩ := writeVersionUpdate_ok h
          simp [revives, hrow, hpublished, hread, hpublishable] at hrevives
  | @transitionVersion version values _ hwrite =>
      subst hwrite
      cases hread with
      | transitionVersion hread =>
          obtain ⟨_, -, -, hstatus⟩ := readVersionTransition_ok hread
          have hvalues : values.status = .retired := by
            rw [hstatus]
            simpa [revives, hrow, hread] using hrevives
          apply hvalues
  | transition hwrite =>
      subst hwrite
      cases hread with
      | transitionEntry hread =>
          obtain ⟨existing, hexisting, hbecome, -⟩ := readEntryTransition_ok hread
          rw [hentry] at hexisting
          obtain rfl := Option.some.inj hexisting
          rw [hretired] at hbecome
          apply eq_retired_of_mayBecome hbecome

/-- Names are unique, by the index. -/
theorem namesUnique (db : RepositoryDb) : NamesUnique db
  := by
  intro k k' entry entry' hentry hentry' hactive hactive' hproject hname
  have hindex : entry'.activeName = entry.activeName := by
    simp [RepositoryEntryRecord.activeName, hactive, hactive', hproject, hname]
  have hsome : entry.activeName = some (entry.projectId.getD "", entry.name) := by
    simp [RepositoryEntryRecord.activeName, hactive]
  have hsame : entry = entry' :=
    db.entries.eq_of_index_eq (Table.mem_of_find? hentry) (Table.mem_of_find? hentry') hsome
      (hindex.trans hsome)
  rw [← IndexedTable.key_of_find? hentry, ← IndexedTable.key_of_find? hentry', hsame]

/-- A published version stays so, unless its entry is deleted. -/
theorem published_of_commit (hread : ReadStep db call write) (h : write.commit db = .ok db')
    {entryId : Id} {version : ℕ} (hkept : write ≠ .deleteEntry entryId)
    (hpublished : db.Published entryId version) :
  db'.Published entryId version
  := by
  obtain ⟨row, hrow, hstatus⟩ := hpublished
  obtain ⟨hfind, hnumber⟩ := IndexedTable.findIndex?_eq_some_iff.mp hrow
  have hstep := versionStep_of_commit h row.id
  have hsame : db'.versions.find? row.id = some row := by
    rw [hfind] at hstep
    generalize db'.versions.find? row.id = after at hstep
    cases hstep with
    | keep => rfl
    | update hwrite hid =>
        subst hwrite
        cases hread with
        | updateVersion hread =>
            obtain ⟨existing, hexisting, hnot, -⟩ := readVersionUpdate_ok hread
            rw [hid, hfind] at hexisting
            obtain rfl := Option.some.inj hexisting
            cases hnot hstatus
    | transition hwrite =>
        subst hwrite
        cases hread with
        | transitionVersion hread =>
            obtain ⟨existing, hexisting, hnot, -⟩ := readVersionTransition_ok hread
            have hown : db.versions.findIndex? (row.entryId, row.version) = some row :=
              IndexedTable.findIndex?_eq_some_iff.mpr ⟨hfind, rfl⟩
            rw [hown] at hexisting
            obtain rfl := Option.some.inj hexisting
            cases hnot hstatus
    | delete hwrite =>
        obtain ⟨hentry, -⟩ := Prod.mk.inj (Option.some.inj hnumber)
        rw [hentry] at hwrite
        cases hkept hwrite
  use row
  exact ⟨IndexedTable.findIndex?_eq_some_iff.mpr ⟨hsame, hnumber⟩, hstatus⟩

/-- What the check of a version has found. -/
theorem published_of_require {entryId : Id} {version : ℕ}
    (h : requireRepositoryVersionStatus db entryId version .published = .ok ()) :
  db.Published entryId version
  := by
  rw [requireRepositoryVersionStatus, raiseIf_ok, decide_eq_false_iff_not, not_not] at h
  apply Option.map_eq_some_iff.mp h

/-- A version that an update publishes is published. -/
theorem published_of_update {version : RepositoryVersionRecord}
    (hread : readVersionUpdate db version = .ok ()) (hpublished : version.status = .published)
    (h : writeVersionUpdate db version = .ok db') :
  db'.Published version.entryId version.version
  := by
  obtain ⟨existing, hexisting, -⟩ := readVersionUpdate_ok hread
  obtain ⟨-, versions, hupdate, hset⟩ := writeVersionUpdate_ok h
  have hversions : db'.versions = versions := by
    rcases hset with ⟨-, hset⟩ | ⟨hnot, -⟩
    · rw [(setEntryStatus_ok hset).1]
    · cases hnot hpublished
  have hreplace : version.replace existing = version := by
    rw [RepositoryVersionRecord.replace, IndexedTable.key_of_find? hexisting]
  use version
  constructor
  · rw [IndexedTable.findIndex?_eq_some_iff, hversions, IndexedTable.find?_update? hupdate,
      hexisting]
    simp [IndexedTable.key_of_find? hexisting, hreplace, RepositoryVersionRecord.number]
  · apply hpublished

/-- A version that a transition publishes is published. -/
theorem published_of_transition {entryId : Id} {version : ℕ} {transition : VersionTransition}
    {values : VersionValues}
    (hread : readVersionTransition db entryId version transition = .ok (some values))
    (hpublished : values.status = .published)
    (h : writeVersionTransition db entryId version values = .ok db') :
  db'.Published entryId version
  := by
  obtain ⟨existing, hexisting, -, -⟩ := readVersionTransition_ok hread
  obtain ⟨versions, hupdate, hset⟩ := writeVersionTransition_ok h
  obtain ⟨hfind, hnumber⟩ := IndexedTable.findIndex?_eq_some_iff.mp hexisting
  obtain ⟨hentry, hversion⟩ := Prod.mk.inj (Option.some.inj hnumber)
  use values.apply existing
  constructor
  · rw [IndexedTable.findIndex?_eq_some_iff, (setEntryStatus_ok hset).1,
      IndexedTable.find?_update? hupdate, values.apply_id, hfind]
    simp [hentry, hversion, RepositoryVersionRecord.number, VersionValues.apply]
  · apply hpublished

/-- After a harmless call, entries point at published versions if they did so before. -/
theorem pointersValid_of_commit (hread : ReadStep db call write)
    (hmisdirects : misdirects db call = false) (hdb : PointersValid db)
    (h : write.commit db = .ok db') :
  PointersValid db'
  := by
  intro k entry' version hentry' hpointer
  have hkept : write ≠ .deleteEntry k := by
    rintro rfl
    rw [(deleteRepositoryEntry_ok h).1] at hentry'
    obtain ⟨hentry, hother⟩ := Option.filter_eq_some_iff.mp hentry'
    simp [IndexedTable.key_of_find? hentry] at hother
  -- a version that was published before the call still is
  have hsame : db.Published k version → db'.Published k version :=
    published_of_commit hread h hkept
  have hstep := entryStep_of_commit h k
  generalize hentry : db.entries.find? k = before at hstep
  rw [hentry'] at hstep
  cases hstep with
  | keep => apply hsame (hdb k entry' version hentry hpointer)
  | create hwrite hid hnone =>
      rw [hnone] at hpointer
      cases hpointer
  | update hwrite hid =>
      subst hwrite hid
      obtain ⟨-, hchecked, -⟩ := writeEntryUpdate_ok h
      apply hsame
      rw [ensurePublishedVersion, hpointer] at hchecked
      apply published_of_require hchecked
  | createVersion hwrite hid hlive =>
      apply hsame (hdb k _ version hentry hpointer)
  | publish hwrite hid hpublished =>
      subst hwrite hid
      obtain rfl := Option.some.inj hpointer
      cases hread with
      | updateVersion hread => apply published_of_update hread hpublished h
  | @transitionVersion number values row hwrite =>
      subst hwrite
      cases hread with
      | transitionVersion hread =>
          by_cases hpublished : values.status = .published
          · rw [if_pos hpublished] at hpointer
            obtain rfl := Option.some.inj hpointer
            apply published_of_transition hread hpublished h
          · rw [if_neg hpublished] at hpointer
            apply hsame (hdb k row version hentry hpointer)
  | @transition transition row hwrite =>
      subst hwrite
      obtain ⟨hrequire, -⟩ := writeEntryTransition_ok h
      apply hsame
      rcases Option.or_eq_some_iff.mp hpointer with hnew | ⟨-, hold⟩
      · by_cases hpublished : transition.status = .published
        · have hrequired := hrequire hpublished
          rw [hnew] at hrequired
          apply published_of_require hrequired
        · cases hread with
          | @transitionEntry _ asked _ hread =>
              obtain ⟨_, -, -, hstatus, hversion⟩ := readEntryTransition_ok hread
              rw [hstatus] at hpublished
              rw [hversion hpublished] at hnew
              simpa [misdirects, hpublished, hnew, hread] using hmisdirects
      · apply hdb k row version hentry hold

/-- What a call must not break. -/
structure EntriesSound (db db' : RepositoryDb) : Prop where
  retired : RetiredKept db db'
  names : NamesUnique db'
  pointers : PointersValid db'

/-- A harmless call breaks nothing. -/
theorem entriesSound_of_callStep (hdb : PointersValid db) (hharmless : harmless db call = true)
    (h : callStep db call = some db') :
  EntriesSound db db'
  := by
  rcases callStep_cases h with rfl | ⟨write, hread, hcommit⟩
  · constructor
    · intro k entry entry' hentry hretired hentry'
      rw [hentry] at hentry'
      obtain rfl := Option.some.inj hentry'
      apply hretired
    · apply namesUnique
    · apply hdb
  · have hrun : call.run db = .ok db' := Except.bind_eq_ok.mpr ⟨some write, hread, hcommit⟩
    simp only [harmless, hrun, Except.isOk_ok, Bool.not_true, Bool.false_or, Bool.and_eq_true,
      Bool.not_eq_true'] at hharmless
    constructor
    · apply retiredKept_of_commit (readStep_of_read hread) hharmless.1 hcommit
    · apply namesUnique
    · apply pointersValid_of_commit (readStep_of_read hread) hharmless.2 hdb hcommit

end

/-- Along every sequence of harmless calls, retired entries stay retired, names are unique
and entries point at published versions. -/
theorem entries_sound (calls : List StoreCall)
    (h : Transition.Along callStep (fun db call _ => harmless db call = true) .empty calls) :
  Transition.Along callStep (fun db _ db' => EntriesSound db db') .empty calls
  := by
  apply Transition.along_of_invariant (I := PointersValid) _ _ h
  · intro db call db' hdb hharmless hstep
    have hsound := entriesSound_of_callStep hdb hharmless hstep
    exact ⟨hsound.pointers, hsound⟩
  · intro k entry version hentry
    cases hentry

/-- A version that is rejected makes its entry rejected, which is retired then. -/
theorem entries_sound_rejected :
  Transition.Along callStep (fun db _ db' => EntriesSound db db') .empty
    [.createEntry sampleEntry, .createVersion sampleVersion,
      .transitionVersion "e1" 1 { status := .rejected, updatedAt := 2 },
      .transitionEntry "e1" { status := .retired, updatedAt := 3 }]
  := by
  apply entries_sound
  have hrun : (Transition.runUnder callStep harmless .empty
      [.createEntry sampleEntry, .createVersion sampleVersion,
        .transitionVersion "e1" 1 { status := .rejected, updatedAt := 2 },
        .transitionEntry "e1" { status := .retired, updatedAt := 3 }]).isSome = true := by
    decide +kernel
  obtain ⟨db, hdb⟩ := Option.isSome_iff_exists.mp hrun
  apply Transition.along_of_runUnder hdb

/-- The transition of a version makes a retired entry a rejected one. -/
theorem transition_revives_entry :
  ¬ ∀ calls, Transition.Along callStep (fun db _ db' => EntriesSound db db') .empty calls
  := by
  intro h
  have hstatus : (Transition.run callStep .empty
      ([.createEntry sampleEntry, .createVersion sampleVersion,
        .transitionEntry "e1" { status := .retired, updatedAt := 2 }])).map
      (fun db => ((db.entries.find? "e1").map RepositoryEntryRecord.status,
        (callStep db (.transitionVersion "e1" 1 { status := .rejected, updatedAt := 3 })).map
          (fun db' => (db'.entries.find? "e1").map RepositoryEntryRecord.status)))
      = some (some .retired, some (some .rejected)) := by
    decide +kernel
  obtain ⟨db, hrun, hstatus⟩ := Option.map_eq_some_iff.mp hstatus
  obtain ⟨hbefore, hafter⟩ := Prod.mk.inj hstatus
  obtain ⟨entry, hentry, hretired⟩ := Option.map_eq_some_iff.mp hbefore
  obtain ⟨db', hstep, hafter⟩ := Option.map_eq_some_iff.mp hafter
  obtain ⟨entry', hentry', hrejected⟩ := Option.map_eq_some_iff.mp hafter
  have hwhole : Transition.run callStep .empty
      ([.createEntry sampleEntry, .createVersion sampleVersion,
        .transitionEntry "e1" { status := .retired, updatedAt := 2 }]
        ++ [.transitionVersion "e1" 1 { status := .rejected, updatedAt := 3 }]) = some db' := by
    rw [Transition.run_concat, hrun]
    apply hstep
  obtain ⟨db₁, hrun₁, -, hsound⟩ := Transition.along_last (h _) hwhole
  rw [hrun] at hrun₁
  obtain rfl := Option.some.inj hrun₁
  have hkept := hsound.retired "e1" entry entry' hentry hretired hentry'
  rw [hrejected] at hkept
  cases hkept

end GoblinKing
