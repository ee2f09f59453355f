import GoblinKing.Api.RepositorySources
import GoblinKing.Repository.Review

/-!
# Deleting repository entries

A deletion takes an entry, its versions, and the notebook records under the kinds of its
versions. It should take nothing that another entry refers to, and no published version of an
entry that was not retired. Both depend on what was written before: kinds are computed from a
project and a name, which an entry may have in common with a retired one, and the status that
allows a deletion is that of the version which was written last.
-/

namespace GoblinKing

/-! ### What a deletion should take -/

/-- A version of the entry has the kind. -/
def RepositoryDb.usesKind (db : RepositoryDb) (entryId : Id) (kind : String) : Bool :=
  db.versions.table.rows.any (fun version =>
    decide (version.entryId = entryId) && decide (version.kind = kind))

/-- A version of another entry has the kind. -/
def RepositoryDb.usesKindBeside (db : RepositoryDb) (entryId : Id) (kind : String) : Bool :=
  db.versions.table.rows.any (fun version =>
    decide (version.entryId ≠ entryId) && decide (version.kind = kind))

/-- A version of the entry is published, beside those with a number. -/
def RepositoryDb.hasPublished (db : RepositoryDb) (entryId : Id) (beside : Option ℕ) : Bool :=
  db.versions.table.rows.any (fun version =>
    decide (version.entryId = entryId) && decide (version.status = .published)
      && decide (some version.version ≠ beside))

/-- The record of a type under a kind is that of an entry, and no other entry refers to it. -/
def RepositoryDb.ownsRecord (db : RepositoryDb) (entry : RepositoryEntryRecord)
    (type : RepositoryGoblinType) (kind : String) : Bool :=
  decide (entry.type = type) && db.usesKind entry.id kind && !db.usesKindBeside entry.id kind

/-- A deletion takes the entry, its versions, and its own notebook records. -/
structure DeletesOwn (db : RepositoryDb) (entry : RepositoryEntryRecord) (db' : RepositoryDb) :
    Prop where
  entries : ∀ k, db'.entries.find? k = if k = entry.id then none else db.entries.find? k
  versions : ∀ k, db'.versions.find? k
    = (db.versions.find? k).filter (fun version => decide (version.entryId ≠ entry.id))
  goblins : ∀ kind, db'.goblins.find? kind
    = if db.ownsRecord entry .notebookFunction kind then none else db.goblins.find? kind
  services : ∀ kind, db'.services.find? kind
    = if db.ownsRecord entry .notebookService kind then none else db.services.find? kind

/-- Every deletion that succeeds takes only what belongs to its entry, and an entry with a
published version can be deleted only when it is retired. -/
def DeletionSound (db : RepositoryDb) : Prop :=
  ∀ entryId db', deleteRepositoryEntry db entryId = .ok db' →
    ∃ entry, db.entries.find? entryId = some entry ∧ DeletesOwn db entry db'
      ∧ (db.hasPublished entryId none = true → entry.status = .retired)

/-- The entries do not get in each other's way: an entry with a published version is neither
draft nor rejected, and entries have no kinds in common. -/
structure EntriesApart (db : RepositoryDb) : Prop where
  published : ∀ k version entry, db.versions.find? k = some version →
    version.status = .published → db.entries.find? version.entryId = some entry →
    entry.status ≠ .draft ∧ entry.status ≠ .rejected
  kinds : ∀ k k' version version', db.versions.find? k = some version →
    db.versions.find? k' = some version' → version.kind = version'.kind →
    version.entryId = version'.entryId

/-- A status that allows a deletion although the entry is not retired. -/
def RepositoryStatus.exposes (status : RepositoryStatus) : Bool :=
  [RepositoryStatus.draft, .rejected].contains status

/-- A write keeps entries apart. It gives no entry with a published version, beside the one
that it overwrites, the status draft or rejected, and creates no version under a kind of
another entry. -/
def keepsEntriesApart (db : RepositoryDb) : ApiWrite → Bool
  | .store (.createVersion version) =>
      match db.entries.find? version.entryId with
      | none => true
      | some entry =>
          decide (entry.status = .retired)
            || (!db.hasPublished version.entryId none
              && !db.usesKindBeside version.entryId version.kind)
  | .store (.updateEntry _ entry) =>
      !entry.status.exposes || !db.hasPublished entry.id none
  | .store (.transitionVersion entryId version values) =>
      !values.status.exposes || !db.hasPublished entryId (some version)
  | .store (.transitionEntry entryId transition) =>
      !transition.status.exposes || !db.hasPublished entryId none
  | _ => true

/-- The condition on a step of the API: a write that the store carries out keeps entries
apart. -/
def entriesKeptApart (settings : ApiSettings) (σ : RepositoryApi) : ApiAction → Bool
  | .receive _ _ _ => true
  | .advance requestId input =>
      ((σ.requests requestId).bind (RequestPhase.write settings input)).all (fun write =>
        !(write.commit σ.db).isOk || keepsEntriesApart σ.db write)

section

variable {db db' : RepositoryDb}

/-- What no published version of an entry says about its rows. -/
theorem hasPublished_eq_false {entryId : Id} {beside : Option ℕ} :
  db.hasPublished entryId beside = false ↔ ∀ k version, db.versions.find? k = some version →
    version.entryId = entryId → version.status = .published → some version.version = beside
  := by
  simp only [RepositoryDb.hasPublished, List.any_eq_false, Bool.and_eq_true, decide_eq_true_eq,
    ne_eq, not_and, not_not, and_imp]
  constructor
  · intro h k version hversion
    apply h version (Table.mem_of_find? hversion)
  · intro h version hversion
    apply h version.id version (Table.find?_of_mem hversion)

/-- What no use of a kind by other entries says about the rows. -/
theorem usesKindBeside_eq_false {entryId : Id} {kind : String} :
  db.usesKindBeside entryId kind = false ↔ ∀ k version, db.versions.find? k = some version →
    version.kind = kind → version.entryId = entryId
  := by
  simp only [RepositoryDb.usesKindBeside, List.any_eq_false, Bool.and_eq_true, decide_eq_true_eq,
    ne_eq, not_and]
  constructor
  · intro h k version hversion hkind
    by_contra hentry
    apply h version (Table.mem_of_find? hversion) hentry hkind
  · intro h version hversion hentry hkind
    apply hentry (h version.id version (Table.find?_of_mem hversion) hkind)

/-- A status that exposes an entry is draft or rejected. -/
theorem exposes_eq_false {status : RepositoryStatus} :
  status.exposes = false ↔ status ≠ .draft ∧ status ≠ .rejected
  := by
  cases status <;> decide

/-- The kinds of the versions of an entry. -/
theorem mem_ownKinds {entryId : Id} {kind : String} :
  kind ∈ (db.versions.table.select (fun version => decide (version.entryId = entryId))).map
      RepositoryVersionRecord.kind
    ↔ db.usesKind entryId kind = true
  := by
  simp [RepositoryDb.usesKind, Table.select, and_assoc]

/-- When entries are apart, an entry owns the records of its type under its kinds. -/
theorem EntriesApart.ownsRecord_eq (hdb : EntriesApart db) (entry : RepositoryEntryRecord)
    (type : RepositoryGoblinType) (kind : String) :
  db.ownsRecord entry type kind = (decide (entry.type = type) && db.usesKind entry.id kind)
  := by
  rw [RepositoryDb.ownsRecord]
  cases huses : db.usesKind entry.id kind with
  | false => simp
  | true =>
      have hbeside : db.usesKindBeside entry.id kind = false := by
        rw [usesKindBeside_eq_false]
        intro k version hversion hkind
        obtain ⟨own, hown, hused⟩ := List.any_eq_true.mp huses
        simp only [Bool.and_eq_true, decide_eq_true_eq] at hused
        rw [← hused.1]
        apply hdb.kinds k own.id version own hversion (Table.find?_of_mem hown)
        rw [hkind, hused.2]
      simp [hbeside]

/-- When entries are apart, an entry with a published version that can be deleted is retired. -/
theorem EntriesApart.retired (hdb : EntriesApart db) {entry : RepositoryEntryRecord}
    (hentry : db.entries.find? entry.id = some entry)
    (hstatus : [RepositoryStatus.draft, .rejected, .retired].contains entry.status = true)
    (hpublished : db.hasPublished entry.id none = true) :
  entry.status = .retired
  := by
  by_contra hretired
  have hnone : db.hasPublished entry.id none = false := by
    rw [hasPublished_eq_false]
    intro k version hversion hown hstatus'
    have hlive := hdb.published k version entry hversion hstatus' (by rw [hown]; apply hentry)
    exfalso
    cases hcase : entry.status <;> simp_all
  rw [hnone] at hpublished
  cases hpublished

/-- A deletion from entries that are apart takes only what belongs to the entry. -/
theorem EntriesApart.deletionSound (hdb : EntriesApart db) : DeletionSound db
  := by
  intro entryId db' h
  obtain ⟨hentries, hversions⟩ := deleteRepositoryEntry_ok h
  obtain ⟨entry, hentry, hstatus, hgoblins, hservices⟩ := records_of_deleteRepositoryEntry h
  have hid : entry.id = entryId := IndexedTable.key_of_find? hentry
  subst hid
  refine ⟨entry, hentry, ⟨?_, ?_, ?_, ?_⟩, hdb.retired hentry hstatus⟩
  · intro k
    rw [hentries]
    cases hrow : db.entries.find? k with
    | none => simp
    | some row =>
        have hk : row.id = k := IndexedTable.key_of_find? hrow
        rw [Option.filter_some]
        by_cases hsame : k = entry.id
        · simp [hk, hsame]
        · simp [hk, hsame]
  · intro k
    rw [hversions]
    congr 1
    funext version
    simp
  · intro kind
    rw [hgoblins, hdb.ownsRecord_eq]
    simp only [mem_ownKinds, Bool.and_eq_true, decide_eq_true_eq]
  · intro kind
    rw [hservices, hdb.ownsRecord_eq]
    simp only [mem_ownKinds, Bool.and_eq_true, decide_eq_true_eq]

/-! ### What the writes of the API do to entries -/

/-- A version that is published after a write of the store was published before, or is the one
that the write has published. -/
theorem published_origin {write : StoreWrite} (hplain : (ApiWrite.store write).Plain db)
    (h : write.commit db = .ok db') {k : Id} {version' : RepositoryVersionRecord}
    (hversion' : db'.versions.find? k = some version') (hpublished : version'.status = .published) :
  (∃ version, db.versions.find? k = some version ∧ version.entryId = version'.entryId
      ∧ version.version = version'.version ∧ version.status = .published
      ∧ ∀ values, write = .transitionVersion version'.entryId version'.version values →
        values.status = .published)
    ∨ ∃ values, write = .transitionVersion version'.entryId version'.version values
      ∧ values.status = .published
  := by
  by_cases htransition : ∃ entryId version values, write = .transitionVersion entryId version values
  · obtain ⟨entryId, number, values, rfl⟩ := htransition
    obtain ⟨versions, hupdate, hset⟩ := writeVersionTransition_ok h
    rw [(setEntryStatus_ok hset).1, IndexedTable.find?_update? hupdate] at hversion'
    obtain ⟨version, hversion, rfl⟩ := Option.map_eq_some_iff.mp hversion'
    by_cases hown : version.entryId = entryId ∧ version.version = number
    · obtain ⟨rfl, rfl⟩ := hown
      right
      use values
      simp only [decide_true, Bool.and_self, if_true] at hpublished ⊢
      exact ⟨rfl, hpublished⟩
    · left
      have hkeep : (decide (version.entryId = entryId) && decide (version.version = number))
          = false := by simpa using hown
      simp only [hkeep, Bool.false_eq_true, if_false] at hpublished ⊢
      refine ⟨version, hversion, rfl, rfl, hpublished, ?_⟩
      intro values' heq
      obtain ⟨hentry, hnumber, -⟩ := StoreWrite.transitionVersion.inj heq
      cases hown ⟨hentry.symm, hnumber.symm⟩
  · have hother : ∀ values,
        write = .transitionVersion version'.entryId version'.version values →
          values.status = .published := by
      intro values heq
      cases htransition ⟨_, _, _, heq⟩
    have hstep := versionStep_of_commit h k
    generalize hversion : db.versions.find? k = before at hstep
    rw [hversion'] at hstep
    cases hstep with
    | keep => exact .inl ⟨version', rfl, rfl, rfl, hpublished, hother⟩
    | create hwrite hid hdraft =>
        rw [hdraft] at hpublished
        cases hpublished
    | update hwrite hid hpublishable =>
        subst hwrite
        cases hplain
    | transition hwrite => cases htransition ⟨_, _, _, hwrite⟩

/-- Entries that are apart stay apart under a write of the store that keeps them so. -/
theorem EntriesApart.store {write : StoreWrite} (hdb : EntriesApart db)
    (hplain : (ApiWrite.store write).Plain db)
    (hkeeps : keepsEntriesApart db (.store write) = true) (h : write.commit db = .ok db') :
  EntriesApart db'
  := by
  constructor
  · intro k version' entry' hversion' hpublished hentry'
    have hstep := entryStep_of_commit h version'.entryId
    rw [hentry'] at hstep
    generalize hentry : db.entries.find? version'.entryId = before at hstep
    rcases published_origin hplain h hversion' hpublished with
      ⟨version, hversion, hown, hnumber, hstatus, hvalues⟩ | ⟨values, rfl, hvalues⟩
    · have hsome : ∀ beside, db.hasPublished version'.entryId beside = false →
          some version'.version = beside := by
        intro beside hnone
        rw [← hnumber]
        apply hasPublished_eq_false.mp hnone k version hversion hown hstatus
      cases hstep with
      | keep => apply hdb.published k version entry' hversion hstatus (by rw [hown]; apply hentry)
      | create hwrite hid hpointer =>
          subst hwrite
          cases hplain k version hversion (by rw [hown, hid])
      | update hwrite hid =>
          subst hwrite
          rw [← exposes_eq_false]
          simp only [keepsEntriesApart, Bool.or_eq_true, Bool.not_eq_true'] at hkeeps
          rcases hkeeps with hkeeps | hnone
          · apply hkeeps
          · rw [hid] at hnone
            cases hsome _ hnone
      | @createVersion created row hwrite hid hlive =>
          subst hwrite
          simp only [keepsEntriesApart, hid, hentry, hlive, decide_false, Bool.false_or,
            Bool.and_eq_true, Bool.not_eq_true'] at hkeeps
          cases hsome _ hkeeps.1
      | publish hwrite hid hpublished' =>
          subst hwrite
          cases hplain
      | @transitionVersion number values row hwrite =>
          subst hwrite
          show values.status ≠ .draft ∧ values.status ≠ .rejected
          rw [← exposes_eq_false]
          simp only [keepsEntriesApart, Bool.or_eq_true, Bool.not_eq_true'] at hkeeps
          rcases hkeeps with hkeeps | hnone
          · apply hkeeps
          · obtain rfl := Option.some.inj (hsome _ hnone)
            rw [hvalues values rfl]
            rfl
      | @transition transition row hwrite =>
          subst hwrite
          show transition.status ≠ .draft ∧ transition.status ≠ .rejected
          rw [← exposes_eq_false]
          simp only [keepsEntriesApart, Bool.or_eq_true, Bool.not_eq_true'] at hkeeps
          rcases hkeeps with hkeeps | hnone
          · apply hkeeps
          · cases hsome _ hnone
    · -- the entry of a version that is published is published as well
      obtain ⟨versions, -, hset⟩ := writeVersionTransition_ok h
      rw [(setEntryStatus_ok hset).2] at hentry'
      obtain ⟨row, hrow, rfl⟩ := Option.map_eq_some_iff.mp hentry'
      rw [if_pos (IndexedTable.key_of_find? hrow), RepositoryEntryRecord.setStatus, hvalues]
      exact ⟨by simp, by simp⟩
  · have hcreated : ∀ k created other, write = .createVersion created →
        db.versions.find? k = some other → other.kind = created.kind →
        other.entryId = created.entryId := by
      rintro k created other rfl hother hkind
      obtain ⟨-, ⟨entry, hentry, hlive⟩, -⟩ := createRepositoryVersion_ok h
      simp only [keepsEntriesApart, hentry, hlive, decide_false, Bool.false_or,
        Bool.and_eq_true, Bool.not_eq_true'] at hkeeps
      apply usesKindBeside_eq_false.mp hkeeps.2 k other hother hkind
    intro k k' version version' hversion hversion' hkind
    rcases version_origin hplain h hversion with ⟨old, hold, hentry, hsame, -⟩ | hnew
    · rcases version_origin hplain h hversion' with ⟨old', hold', hentry', hsame', -⟩ | hnew'
      · rw [hentry, hentry']
        apply hdb.kinds k k' old old' hold hold'
        rw [← hsame, ← hsame', hkind]
      · rw [hentry]
        apply hcreated k version' old hnew' hold
        rw [← hsame, hkind]
    · rcases version_origin hplain h hversion' with ⟨old', hold', hentry', hsame', -⟩ | hnew'
      · rw [hentry']
        symm
        apply hcreated k' version old' hnew hold'
        rw [← hsame', hkind]
      · rw [hnew] at hnew'
        rw [StoreWrite.createVersion.inj hnew']

/-- Entries that are apart stay apart under a write that keeps them so. -/
theorem EntriesApart.commit {write : ApiWrite} (hdb : EntriesApart db) (hplain : write.Plain db)
    (hkeeps : keepsEntriesApart db write = true) (h : write.commit db = .ok db') :
  EntriesApart db'
  := by
  cases write with
  | store write => apply hdb.store hplain hkeeps h
  | goblin _ | service _ | serviceRuntime _ _ =>
      cases h
      exact ⟨hdb.published, hdb.kinds⟩

end

/-- In every state that is reached by writes that keep the entries apart, a deletion takes only
what belongs to its entry, and an entry with a published version has to be retired first. -/
theorem deletion_sound (settings : ApiSettings) (as : List ApiAction)
    (h : Transition.Along (apiStep settings)
      (fun σ a _ => entriesKeptApart settings σ a = true) RepositoryApi.init as) :
  Transition.Along (apiStep settings) (fun _ _ τ => DeletionSound τ.db) RepositoryApi.init as
  := by
  apply Transition.along_of_invariant (I := fun σ => RequestsSound σ ∧ EntriesApart σ.db) _ _ h
  · rintro σ a τ ⟨hσ, hdb⟩ hkept hstep
    obtain ⟨hτ, hwrite⟩ := hσ.step hstep
    have hdb' : EntriesApart τ.db := by
      rcases hwrite with hsame | ⟨requestId, input, phase, write, rfl, hphase, hwrite, hplain, hcommit⟩
      · rw [hsame]
        apply hdb
      · apply hdb.commit hplain _ hcommit
        simpa [entriesKeptApart, hphase, hwrite, hcommit] using hkept
    exact ⟨⟨hτ, hdb'⟩, hdb'.deletionSound⟩
  · refine ⟨requestsSound_init, ?_, ?_⟩
    · intro k version entry hversion
      cases hversion
    · intro k k' version version' hversion
      cases hversion

/-- An administrator. -/
def carol : Principal where
  userId := "carol"
  role := .admin

/-- A step of a review of the latest version, in transactions that draw the identifiers in order. -/
def reviewSteps (requestId : Id) (principal : Principal) (action : ReviewAction) (entryId : Id)
    (freshIds : List Id) : List ApiAction :=
  .receive requestId 2 (.review principal action entryId none) :: freshIds.map (fun freshId =>
    .advance requestId { now := 3, freshId := freshId, validation := .ok sampleProof })

/-- Two entries are submitted. The version of the first one is published, and the second one is deleted. -/
def publishReports : List ApiAction :=
  submitReports
    ++ requestSteps "r2" (.submit bob { name := "plots", source := "def run(payload): return 0" })
      ["d4", "e2", "d5", "d6", "v2"]
    ++ reviewSteps "r3" alice .validate "e1" ["d7", "d8", "d9", "d10", "d11"]
    ++ reviewSteps "r4" alice .requestReview "e1" ["d12", "d13", "d14", "d15"]
    ++ reviewSteps "r5" carol .approve "e1" ["d16", "d17", "d18", "d19"]
    ++ reviewSteps "r6" carol .publish "e1" ["d20", "d21", "d22", "d23"]
    ++ requestSteps "r7" (.delete carol "e2") ["d24", "d25", "d26"]

/-- The deletion of the second entry leaves the published version of the first one. -/
theorem deletion_sound_published :
  ∃ σ, Transition.run (apiStep .sample) RepositoryApi.init publishReports = some σ
    ∧ (σ.db.entries.find? "e1").map RepositoryEntryRecord.status = some .published
    ∧ σ.db.hasPublished "e1" none = true ∧ σ.db.entries.find? "e2" = none
    ∧ Transition.Along (apiStep .sample) (fun _ _ τ => DeletionSound τ.db) RepositoryApi.init
      publishReports
  := by
  have hseen : (Transition.runUnder (apiStep .sample) (entriesKeptApart .sample)
      RepositoryApi.init publishReports).map (fun σ =>
        ((σ.db.entries.find? "e1").map RepositoryEntryRecord.status, σ.db.hasPublished "e1" none,
          (σ.db.entries.find? "e2").isNone)) = some (some .published, true, true) := by
    decide +kernel
  obtain ⟨σ, hrun, hseen⟩ := Option.map_eq_some_iff.mp hseen
  simp only [Prod.mk.injEq, Option.isNone_iff_eq_none] at hseen
  obtain ⟨hstatus, hpublished, hdeleted⟩ := hseen
  use σ, Transition.run_of_runUnder hrun, hstatus, hpublished, hdeleted
  apply deletion_sound
  apply Transition.along_of_runUnder hrun

/-- A deletion of an entry takes the record of a function that another entry refers to. -/
def takesShared (db : RepositoryDb) (entryId : Id) (kind : String) : Bool :=
  match deleteRepositoryEntry db entryId with
  | .error _ => false
  | .ok db' =>
      (db.goblins.find? kind).isSome && (db'.goblins.find? kind).isNone
        && db.usesKindBeside entryId kind

/-- A deletion that takes a shared record is not sound. -/
theorem not_deletionSound {db : RepositoryDb} {entryId : Id} {kind : String}
    (h : takesShared db entryId kind = true) :
  ¬ DeletionSound db
  := by
  intro hsound
  rw [takesShared] at h
  split at h
  · cases h
  case h_2 db' hdelete =>
    obtain ⟨entry, hentry, hown, -⟩ := hsound entryId db' hdelete
    obtain rfl : entry.id = entryId := IndexedTable.key_of_find? hentry
    simp only [Bool.and_eq_true] at h
    have hgoblin := hown.goblins kind
    rw [Option.isNone_iff_eq_none.mp h.1.2, RepositoryDb.ownsRecord, h.2] at hgoblin
    simp only [Bool.not_true, Bool.and_false, Bool.false_eq_true, if_false] at hgoblin
    rw [← hgoblin] at h
    simp at h

/-- The entry is retired, and submitted again under its name. -/
def resubmitReports : List ApiAction :=
  requestSteps "r2" (.retire carol "e1") ["d4", "d5", "d6"]
    ++ requestSteps "r3" (.submit alice { name := "reports", source := "def run(payload): return 0" })
      ["d7", "e2", "d8", "d9"]

/-- A new entry takes over the kind of the retired entry of its name, and loses its record when
that one is deleted. -/
theorem deletion_takes_shared_record :
  ¬ ∀ (settings : ApiSettings) as, Transition.Along (apiStep settings)
    (fun _ _ τ => DeletionSound τ.db) RepositoryApi.init as
  := by
  intro h
  have hshared : (Transition.run (apiStep .sample) RepositoryApi.init
      ((submitReports ++ resubmitReports) ++ [.advance "r3" { now := 1, freshId := "v2" }])).any
      (fun τ => takesShared τ.db "e1" "repository.team-a.reports.v1") = true := by
    decide +kernel
  obtain ⟨τ, hrun, hshared⟩ := (Option.any_eq_true _ _).mp hshared
  obtain ⟨_, -, -, hsound⟩ := Transition.along_last (h .sample _) hrun
  apply not_deletionSound hshared hsound

end GoblinKing
