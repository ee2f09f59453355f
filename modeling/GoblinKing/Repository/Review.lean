import GoblinKing.Library.Workflow
import GoblinKing.Repository.Calls

/-!
# The review of published versions

A version is published after it was validated, was put up for review, and was approved; its
row then shows the proof, the approver and the times, and stays as it is until its entry is
deleted. Two paths lead there, a transition and an update of the whole record, and both write
what they have read in another transaction. The result holds of the runs in which each write
still finds the row that its checks were made for, and in which whoever publishes brings a
proof and an approver.
-/

namespace GoblinKing

/-- What the row of a published version shows. -/
structure RepositoryVersionRecord.Reviewed (version : RepositoryVersionRecord) : Prop where
  proof : version.validationProof ≠ .empty
  approver : (truthy version.approvedBy).isSome = true
  approvedAt : version.approvedAt ≠ none
  publishedAt : version.publishedAt ≠ none

/-- A status may follow another one. -/
def RepositoryStatus.Allowed (current target : RepositoryStatus) : Prop :=
  target ∈ current.transitions

/-- The statuses that lead to a status, the last one first. A record is rejected or retired
from anywhere. -/
def RepositoryStatus.milestones : RepositoryStatus → List RepositoryStatus
  | .draft | .rejected | .retired => []
  | .validated => [.validated]
  | .pendingReview => [.pendingReview, .validated]
  | .approved => [.approved, .pendingReview, .validated]
  | .published => [.published, .approved, .pendingReview, .validated]

theorem RepositoryStatus.milestones_passed :
  Workflow.Milestones RepositoryStatus.Allowed .draft RepositoryStatus.milestones
  := by
  constructor
  · decide
  · intro current target hallowed
    cases current <;> simp only [Allowed, transitions, List.mem_cons, List.not_mem_nil, or_false]
      at hallowed
    case published =>
      obtain rfl := hallowed
      decide
    all_goals
      rcases hallowed with rfl | rfl | rfl <;> decide

/-- The statuses that a version has had, the last one first, with the status that its row
shows. A version without a row has had none. -/
def extendTrail (row : Option RepositoryVersionRecord) (trail : List RepositoryStatus) :
    List RepositoryStatus :=
  match row with
  | none => []
  | some row => if trail.head? = some row.status then trail else row.status :: trail

/-- The history of the statuses of the versions. -/
def statusTrail (_ : StoreSystem) (_ : StoreAction) (τ : StoreSystem)
    (trail : Id → List RepositoryStatus) (versionId : Id) : List RepositoryStatus :=
  extendTrail (τ.db.versions.find? versionId) (trail versionId)

/-! ### Writes that still find what was checked -/

/-- A row is not published, and its status may become the one that is written. -/
def RepositoryVersionRecord.admits (row : RepositoryVersionRecord) (status : RepositoryStatus) :
    Bool :=
  decide (row.status ≠ .published) && row.status.mayBecome status

/-- The update of a version finds a row that it may change, and publishes it with a proof and
an approver. -/
def reviewedUpdate (db : RepositoryDb) (version : RepositoryVersionRecord) : Bool :=
  match db.versions.find? version.id with
  | none => true
  | some row =>
      row.admits version.status && (decide (version.status ≠ .published)
        || (decide (version.validationProof ≠ .empty) && (truthy version.approvedBy).isSome))

/-- The transition of a version finds a row that it may change, and publishes it with the
proof that it brings or the row has. -/
def reviewedTransition (db : RepositoryDb) (entryId : Id) (version : ℕ) (values : VersionValues) :
    Bool :=
  match db.versions.findIndex? (entryId, version) with
  | none => true
  | some row =>
      row.admits values.status && (decide (values.status ≠ .published)
        || decide (values.validationProof.getD row.validationProof ≠ .empty))

/-- A write to a version finds what its checks were made for. -/
def reviewedWrite (db : RepositoryDb) : StoreWrite → Bool
  | .updateVersion version => reviewedUpdate db version
  | .transitionVersion entryId version values => reviewedTransition db entryId version values
  | _ => true

/-- The condition on a transaction of the store: a write that is carried out finds what its
checks were made for. -/
def reviewedCommit (σ : StoreSystem) : StoreAction → Bool
  | .read _ _ => true
  | .commit callId =>
      (σ.pending callId).all (fun write =>
        !(write.commit σ.db).isOk || reviewedWrite σ.db write)

/-! ### Steps of the rows -/

/-- The values of a transition that publishes have all that a published version shows, apart
from the proof. -/
structure VersionValues.Complete (values : VersionValues) : Prop where
  approver : ∃ approver, values.approvedBy = some approver ∧ (truthy approver).isSome = true
  approvedAt : ∃ time, values.approvedAt = some (some time)
  publishedAt : ∃ time, values.publishedAt = some (some time)

/-- What counts as true does so as what it is. -/
theorem truthy_of_truthy_or {a b : Option String} {text : String}
    (h : (truthy a).or (truthy b) = some text) :
  (truthy (some text)).isSome = true
  := by
  have hmember : ∀ c : Option String, truthy c = some text → text ≠ "" := by
    intro c hc
    obtain ⟨-, hne⟩ := Option.filter_eq_some_iff.mp hc
    simpa using hne
  have hne : text ≠ "" := by
    rcases Option.or_eq_some_iff.mp h with ha | ⟨-, hb⟩
    · apply hmember a ha
    · apply hmember b hb
  simp [truthy, Option.filter, hne]

/-- The values of a transition to `published` are complete. -/
theorem complete_of_transitionValues {existing : RepositoryVersionRecord}
    {transition : VersionTransition} {values : VersionValues}
    (h : transitionValues existing transition = .ok values) (hpublished : values.status = .published) :
  values.Complete
  := by
  rw [transitionValues] at h
  obtain ⟨_, -, h⟩ := Except.bind_eq_ok.mp h
  cases hstatus : transition.status <;> simp only [hstatus] at h
  case published =>
    split at h
    case h_1 approver approvedTime happrover htime =>
      cases h
      constructor
      · use some approver, rfl
        apply truthy_of_truthy_or happrover
      · use approvedTime
      · use transition.publishedAt.getD transition.updatedAt
    case h_2 => cases h
  case validated =>
    split at h
    · cases h
    · cases h
      cases hpublished
  case approved =>
    split at h
    · cases h
    · cases h
      cases hpublished
  all_goals
    cases h
    cases hpublished

/-- What has been read for a transition is complete when it publishes. -/
theorem complete_of_readVersionTransition {db : RepositoryDb} {entryId : Id} {version : ℕ}
    {transition : VersionTransition} {values : VersionValues}
    (h : readVersionTransition db entryId version transition = .ok (some values))
    (hpublished : values.status = .published) :
  values.Complete
  := by
  rw [readVersionTransition] at h
  split at h
  · cases h
  · split at h
    · split at h <;> cases h
    · obtain ⟨values', hvalues, h⟩ := Except.bind_eq_ok.mp h
      cases h
      apply complete_of_transitionValues hvalues hpublished

/-- The calls between their two transactions have complete values. -/
def PendingComplete (pending : Id → Option StoreWrite) : Prop :=
  ∀ callId entryId version values,
    pending callId = some (.transitionVersion entryId version values) →
    values.status = .published → values.Complete

/-- A change of the row of a version that keeps to the review. -/
inductive ReviewedStep (write : StoreWrite) :
    Option RepositoryVersionRecord → Option RepositoryVersionRecord → Prop where
  | keep (row : Option RepositoryVersionRecord) : ReviewedStep write row row
  | create {version : RepositoryVersionRecord} (hdraft : version.status = .draft) :
      ReviewedStep write none (some version)
  | move {row row' : RepositoryVersionRecord} (hadmits : row.admits row'.status = true)
      (hreviewed : row'.status = .published → row'.Reviewed) :
      ReviewedStep write (some row) (some row')
  | delete {row : RepositoryVersionRecord} (hwrite : write = .deleteEntry row.entryId) :
      ReviewedStep write (some row) none

/-- A write that finds what its checks were made for keeps to the review. -/
theorem reviewedStep_of_commit {db db' : RepositoryDb} {write : StoreWrite}
    (hreviewed : reviewedWrite db write = true)
    (hcomplete : ∀ entryId version values, write = .transitionVersion entryId version values →
      values.status = .published → values.Complete)
    (h : write.commit db = .ok db') (k : Id) :
  ReviewedStep write (db.versions.find? k) (db'.versions.find? k)
  := by
  have hstep := versionStep_of_commit h k
  generalize hrow : db.versions.find? k = before at hstep
  generalize db'.versions.find? k = after at hstep
  cases hstep with
  | keep => apply ReviewedStep.keep
  | create hwrite hid hdraft => apply ReviewedStep.create hdraft
  | @update version row hwrite hid hpublishable =>
      subst hwrite hid
      simp only [reviewedWrite, reviewedUpdate, hrow, Bool.and_eq_true, Bool.or_eq_true,
        decide_eq_true_eq] at hreviewed
      obtain ⟨hadmits, hnot | ⟨hproof, happrover⟩⟩ := hreviewed
      · apply ReviewedStep.move hadmits
        intro hpublished
        cases hnot hpublished
      · apply ReviewedStep.move hadmits
        intro hpublished
        rw [ensureRepositoryVersionPublishable, if_pos hpublished] at hpublishable
        obtain ⟨_, -, hpublishable⟩ := Except.bind_eq_ok.mp hpublishable
        obtain ⟨_, happroved, htime⟩ := Except.bind_eq_ok.mp hpublishable
        rw [raiseIf_ok] at happroved htime
        rw [Bool.or_eq_false_iff] at happroved
        refine ⟨hproof, happrover, ?_, ?_⟩
        · apply Option.isNone_eq_false_iff.mp happroved.2 |> Option.isSome_iff_ne_none.mp
        · apply Option.isNone_eq_false_iff.mp htime |> Option.isSome_iff_ne_none.mp
  | @transition row values hwrite =>
      subst hwrite
      have hnumber : db.versions.findIndex? (row.entryId, row.version) = some row := by
        rw [IndexedTable.findIndex?_eq_some_iff, IndexedTable.key_of_find? hrow]
        exact ⟨hrow, rfl⟩
      simp only [reviewedWrite, reviewedTransition, hnumber, Bool.and_eq_true, Bool.or_eq_true,
        decide_eq_true_eq] at hreviewed
      obtain ⟨hadmits, hproof⟩ := hreviewed
      apply ReviewedStep.move hadmits
      intro hpublished
      have hvalues := hcomplete _ _ _ rfl hpublished
      obtain ⟨approver, hset, happrover⟩ := hvalues.approver
      obtain ⟨approvedTime, happroved⟩ := hvalues.approvedAt
      obtain ⟨publishedTime, htime⟩ := hvalues.publishedAt
      constructor
      · apply hproof.resolve_left
        intro hnot
        apply hnot hpublished
      · rw [VersionValues.apply, hset]
        apply happrover
      · rw [VersionValues.apply, happroved]
        apply Option.some_ne_none
      · rw [VersionValues.apply, htime]
        apply Option.some_ne_none
  | delete hwrite => apply ReviewedStep.delete hwrite

/-- A version with its trail: the row shows the last status, and a published row shows its
review. -/
structure TracedVersion (row : Option RepositoryVersionRecord) (trail : List RepositoryStatus) :
    Prop where
  absent : row = none → trail = []
  present : ∀ version, row = some version →
    ∃ rest, trail = version.status :: rest ∧ Workflow.Trail RepositoryStatus.Allowed .draft trail
  reviewed : ∀ version, row = some version → version.status = .published → version.Reviewed

/-- A change that keeps to the review extends the trail. -/
theorem TracedVersion.extend {write : StoreWrite} {row row' : Option RepositoryVersionRecord}
    {trail : List RepositoryStatus} (htraced : TracedVersion row trail)
    (h : ReviewedStep write row row') :
  TracedVersion row' (extendTrail row' trail)
  := by
  cases h with
  | keep =>
      have hsame : extendTrail row trail = trail := by
        cases row with
        | none => rw [extendTrail, htraced.absent rfl]
        | some version =>
            obtain ⟨rest, rfl, -⟩ := htraced.present version rfl
            simp [extendTrail]
      rw [hsame]
      apply htraced
  | @create version hdraft =>
      rw [htraced.absent rfl]
      constructor
      · nofun
      · rintro _ ⟨⟩
        use [], rfl
        rw [extendTrail, hdraft]
        apply Workflow.Trail.start
      · rintro _ ⟨⟩ hpublished
        rw [hdraft] at hpublished
        cases hpublished
  | @move version version' hadmits hreviewed =>
      obtain ⟨rest, rfl, htrail⟩ := htraced.present version rfl
      constructor
      · nofun
      · rintro _ ⟨⟩
        by_cases hsame : version.status = version'.status
        · use rest
          rw [extendTrail, hsame, List.head?_cons, if_pos rfl]
          use rfl
          rw [← hsame]
          apply htrail
        · use version.status :: rest
          rw [extendTrail, List.head?_cons, if_neg (fun heq => hsame (Option.some.inj heq))]
          use rfl
          apply Workflow.Trail.move htrail
          simp only [RepositoryVersionRecord.admits, RepositoryStatus.mayBecome,
            Bool.and_eq_true, Bool.or_eq_true, decide_eq_true_eq, List.contains_iff_mem] at hadmits
          apply hadmits.2.resolve_left hsame
      · rintro _ ⟨⟩ hpublished
        apply hreviewed hpublished
  | delete =>
      constructor
      · intro _
        rfl
      · intro version hversion
        cases hversion
      · intro version hversion
        cases hversion

/-- What a run under the condition keeps: the pending calls are complete, and every version
is traced. -/
structure ReviewInvariant (s : StoreSystem × (Id → List RepositoryStatus)) : Prop where
  pending : PendingComplete s.1.pending
  traced : ∀ k, TracedVersion (s.1.db.versions.find? k) (s.2 k)

/-- Pending calls stay complete when a call is answered. -/
theorem PendingComplete.answer {pending : Id → Option StoreWrite} (h : PendingComplete pending)
    (callId : Id) :
  PendingComplete (Function.update pending callId none)
  := by
  intro c entryId version values hwrite
  by_cases hc : c = callId
  · subst hc
    rw [Function.update_self] at hwrite
    cases hwrite
  · rw [Function.update_of_ne hc] at hwrite
    apply h c entryId version values hwrite

/-- Pending calls stay complete when a call has read. -/
theorem PendingComplete.read {db : RepositoryDb} {pending : Id → Option StoreWrite}
    (h : PendingComplete pending) {call : StoreCall} {write : StoreWrite}
    (hread : call.read db = .ok (some write)) (callId : Id) :
  PendingComplete (Function.update pending callId (some write))
  := by
  intro c entryId version values hwrite
  by_cases hc : c = callId
  · subst hc
    rw [Function.update_self] at hwrite
    obtain rfl := Option.some.inj hwrite
    cases readStep_of_read hread with
    | transitionVersion hvalues => apply complete_of_readVersionTransition hvalues
  · rw [Function.update_of_ne hc] at hwrite
    apply h c entryId version values hwrite

/-- A transaction changes the tables by the write of a call, or not at all. -/
theorem storeStep_cases {σ τ : StoreSystem} {a : StoreAction} (h : storeStep σ a = some τ) :
  (∃ callId write, a = .commit callId ∧ σ.pending callId = some write
      ∧ write.commit σ.db = .ok τ.db ∧ τ.pending = Function.update σ.pending callId none)
    ∨ (τ.db = σ.db ∧ ∃ callId, τ.pending = σ.pending
      ∨ τ.pending = Function.update σ.pending callId none
      ∨ ∃ call write, StoreCall.read σ.db call = .ok (some write)
        ∧ τ.pending = Function.update σ.pending callId (some write))
  := by
  cases a with
  | read callId call =>
      rw [storeStep] at h
      split at h
      · cases h
      · split at h
        case h_1 | h_2 =>
          obtain rfl := Option.some.inj h
          exact .inr ⟨rfl, callId, .inl rfl⟩
        case h_3 write hread =>
          obtain rfl := Option.some.inj h
          exact .inr ⟨rfl, callId, .inr (.inr ⟨call, write, hread, rfl⟩)⟩
  | commit callId =>
      simp only [storeStep] at h
      split at h
      · cases h
      case h_2 write hwrite =>
        split at h
        · obtain rfl := Option.some.inj h
          exact .inr ⟨rfl, callId, .inr (.inl rfl)⟩
        case h_2 db hdb =>
          obtain rfl := Option.some.inj h
          exact .inl ⟨callId, write, rfl, hwrite, hdb, rfl⟩

/-- Pending calls stay complete over a transaction. -/
theorem PendingComplete.step {σ τ : StoreSystem} {a : StoreAction}
    (hσ : PendingComplete σ.pending) (h : storeStep σ a = some τ) :
  PendingComplete τ.pending
  := by
  rcases storeStep_cases h with ⟨callId, write, -, -, -, hpending⟩
    | ⟨-, callId, hpending | hpending | ⟨call, write, hread, hpending⟩⟩
  · rw [hpending]
    apply hσ.answer
  · rw [hpending]
    apply hσ
  · rw [hpending]
    apply hσ.answer
  · rw [hpending]
    apply hσ.read hread

/-- A transaction under the condition keeps to the review, for every version. -/
theorem reviewedStep_of_step {σ τ : StoreSystem} {a : StoreAction}
    (hσ : PendingComplete σ.pending) (hguard : reviewedCommit σ a = true)
    (h : storeStep σ a = some τ) (k : Id) :
  ∃ write, ReviewedStep write (σ.db.versions.find? k) (τ.db.versions.find? k)
    ∧ (σ.db.versions.find? k ≠ τ.db.versions.find? k →
      ∃ callId, a = .commit callId ∧ σ.pending callId = some write)
  := by
  rcases storeStep_cases h with ⟨callId, write, rfl, hwrite, hcommit, -⟩ | ⟨hdb, callId, -⟩
  · have hreviewed : reviewedWrite σ.db write = true := by
      simpa [reviewedCommit, hwrite, hcommit] using hguard
    use write
    constructor
    · apply reviewedStep_of_commit hreviewed _ hcommit
      rintro entryId version values rfl
      apply hσ callId entryId version values hwrite
    · intro _
      use callId
  · use .deleteEntry ""
    rw [hdb]
    constructor
    · apply ReviewedStep.keep
    · intro hne
      cases hne rfl

/-- A published version shows its review, and its status has passed through `validated`,
`pending_review` and `approved`, in this order. -/
def PublishedReviewed (s : StoreSystem × (Id → List RepositoryStatus)) : Prop :=
  ∀ k version, s.1.db.versions.find? k = some version → version.status = .published →
    version.Reviewed
      ∧ [RepositoryStatus.validated, .pendingReview, .approved].Sublist (s.2 k).reverse

/-- The row of a published version stays as it is, unless its entry is deleted. -/
def PublishedFrozen (σ : StoreSystem) (a : StoreAction) (τ : StoreSystem) : Prop :=
  ∀ k version, σ.db.versions.find? k = some version → version.status = .published →
    τ.db.versions.find? k = some version
      ∨ (τ.db.versions.find? k = none
        ∧ ∃ callId, a = .commit callId ∧ σ.pending callId = some (.deleteEntry version.entryId))

/-- An empty repository, before any version has had a status. -/
def StoreSystem.unwritten : StoreSystem × (Id → List RepositoryStatus) :=
  (StoreSystem.init, fun _ => [])

/-- A transaction under the condition keeps the invariant. -/
theorem ReviewInvariant.step {s t : StoreSystem × (Id → List RepositoryStatus)} {a : StoreAction}
    (hs : ReviewInvariant s) (hguard : reviewedCommit s.1 a = true)
    (h : Transition.withHistory storeStep statusTrail s a = some t) :
  ReviewInvariant t
  := by
  obtain ⟨σ, trail⟩ := s
  obtain ⟨τ, trail'⟩ := t
  obtain ⟨hstep, rfl⟩ := Transition.withHistory_eq_some.mp h
  constructor
  · apply hs.pending.step hstep
  · intro k
    obtain ⟨write, hreviewed, -⟩ := reviewedStep_of_step hs.pending hguard hstep k
    apply (hs.traced k).extend hreviewed

/-- Traced versions that are published have passed their review. -/
theorem ReviewInvariant.published {s : StoreSystem × (Id → List RepositoryStatus)}
    (hs : ReviewInvariant s) :
  PublishedReviewed s
  := by
  intro k version hversion hpublished
  use (hs.traced k).reviewed version hversion hpublished
  obtain ⟨rest, htrail, hallowed⟩ := (hs.traced k).present version hversion
  rw [htrail] at hallowed
  have hpassed := hallowed.passed RepositoryStatus.milestones_passed
  rw [hpublished] at hpassed
  have hreached : [RepositoryStatus.approved, .pendingReview, .validated].Sublist (s.2 k) := by
    rw [htrail, hpublished]
    apply (List.sublist_cons_self _ _).trans hpassed
  apply hreached.reverse

/-- A transaction under the condition leaves published versions as they are. -/
theorem ReviewInvariant.frozen {s : StoreSystem × (Id → List RepositoryStatus)} {τ : StoreSystem}
    {a : StoreAction} (hs : ReviewInvariant s) (hguard : reviewedCommit s.1 a = true)
    (h : storeStep s.1 a = some τ) :
  PublishedFrozen s.1 a τ
  := by
  intro k version hversion hpublished
  obtain ⟨write, hreviewed, hchanged⟩ := reviewedStep_of_step hs.pending hguard h k
  rw [hversion] at hreviewed hchanged
  generalize τ.db.versions.find? k = after at hreviewed hchanged
  cases hreviewed with
  | keep => exact .inl rfl
  | move hadmits hreviewed =>
      simp [RepositoryVersionRecord.admits, hpublished] at hadmits
  | delete hwrite =>
      obtain ⟨callId, hcommit, hpending⟩ := hchanged (Option.some_ne_none _)
      subst hwrite
      exact .inr ⟨rfl, callId, hcommit, hpending⟩

/-- Along every run of the store whose writes still find what their checks were made for, and
which publishes with a proof and an approver, published versions have passed their review and
are frozen. -/
theorem published_versions_reviewed (as : List StoreAction)
    (h : Transition.Along (Transition.withHistory storeStep statusTrail)
      (fun s a _ => reviewedCommit s.1 a = true) StoreSystem.unwritten as) :
  Transition.Along (Transition.withHistory storeStep statusTrail)
    (fun s a t => PublishedFrozen s.1 a t.1 ∧ PublishedReviewed t) StoreSystem.unwritten as
  := by
  apply Transition.along_of_invariant (I := ReviewInvariant) _ _ h
  · intro s a t hs hguard hstep
    have ht := hs.step hguard hstep
    use ht
    obtain ⟨σ, trail⟩ := s
    obtain ⟨τ, trail'⟩ := t
    constructor
    · apply hs.frozen hguard (Transition.withHistory_eq_some.mp hstep).1
    · apply ht.published
  · constructor
    · intro _ _ _ _ hwrite
      cases hwrite
    · intro k
      constructor
      · intro _
        rfl
      · intro version hversion
        cases hversion
      · intro version hversion
        cases hversion

/-- What a validation has found. -/
def sampleProof : JsonObject :=
  ⟨"\x7b\"status\": \"succeeded\"\x7d"⟩

/-- A call without a transaction of another one in between. -/
def StoreCall.transactions (call : StoreCall) : List StoreAction :=
  [.read "c1" call, .commit "c1"]

/-- The first version of the entry, up to its approval. -/
def approvedVersion : List StoreAction :=
  [StoreCall.createEntry sampleEntry,
    .createVersion sampleVersion,
    .transitionVersion "e1" 1
      { status := .validated, updatedAt := 2, validationProof := some sampleProof },
    .transitionVersion "e1" 1 { status := .pendingReview, updatedAt := 3 },
    .transitionVersion "e1" 1
      { status := .approved, updatedAt := 4, approvedBy := some "bob" }].flatMap
    StoreCall.transactions

/-- A version that is approved and then published by a transition. -/
theorem published_versions_reviewed_transition :
  ∃ s, Transition.run (Transition.withHistory storeStep statusTrail) StoreSystem.unwritten
      (approvedVersion ++ StoreCall.transactions
        (.transitionVersion "e1" 1 { status := .published, updatedAt := 5 })) = some s
    ∧ s.2 "v1" = [.published, .approved, .pendingReview, .validated, .draft]
    ∧ Transition.Along (Transition.withHistory storeStep statusTrail)
      (fun s a t => PublishedFrozen s.1 a t.1 ∧ PublishedReviewed t) StoreSystem.unwritten
      (approvedVersion ++ StoreCall.transactions
        (.transitionVersion "e1" 1 { status := .published, updatedAt := 5 }))
  := by
  have htrail : (Transition.runUnder (Transition.withHistory storeStep statusTrail)
      (fun s a => reviewedCommit s.1 a) StoreSystem.unwritten
      (approvedVersion ++ StoreCall.transactions
        (.transitionVersion "e1" 1 { status := .published, updatedAt := 5 }))).map
      (fun s => s.2 "v1") = some [.published, .approved, .pendingReview, .validated, .draft] := by
    decide +kernel
  obtain ⟨s, hrun, htrail⟩ := Option.map_eq_some_iff.mp htrail
  use s, Transition.run_of_runUnder hrun, htrail
  apply published_versions_reviewed
  apply Transition.along_of_runUnder hrun

/-- An update publishes an approved version, and takes its proof and its approver away. -/
def unreviewedUpdate : StoreCall :=
  .updateVersion { sampleVersion with
    status := .published
    approvalStatus := .approved
    approvedBy := some ""
    approvedAt := some 4
    publishedAt := some 5
    updatedAt := 5 }

/-- A version that an update publishes may have no proof and no approver. -/
theorem update_publishes_unreviewed :
  ¬ ∀ as, Transition.Along (Transition.withHistory storeStep statusTrail)
    (fun s a t => PublishedFrozen s.1 a t.1 ∧ PublishedReviewed t) StoreSystem.unwritten as
  := by
  intro h
  have hproof : (Transition.run (Transition.withHistory storeStep statusTrail)
      StoreSystem.unwritten
      ((approvedVersion ++ [.read "c1" unreviewedUpdate]) ++ [.commit "c1"])).map
      (fun s => (s.1.db.versions.find? "v1").map
        (fun version => (version.status, version.validationProof)))
      = some (some (.published, .empty)) := by
    decide +kernel
  obtain ⟨s, hrun, hrow⟩ := Option.map_eq_some_iff.mp hproof
  obtain ⟨version, hversion, hrow⟩ := Option.map_eq_some_iff.mp hrow
  obtain ⟨hpublished, hempty⟩ := Prod.mk.inj hrow
  obtain ⟨_, -, -, -, hreviewed⟩ := Transition.along_last (h _) hrun
  apply (hreviewed "v1" version hversion hpublished).1.proof hempty

end GoblinKing
