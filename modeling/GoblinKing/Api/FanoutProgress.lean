import GoblinKing.Api.Reads
import GoblinKing.Scheduler.Knowledge
import GoblinKing.Scheduler.Terminal
import Mathlib.Data.Fintype.Powerset

/-!
# The progress of a fanout

The status of a fanout is derived from the statuses of its children: from the stages that occur
among them, whatever their number and their order. While the children run, the stages of those that
have ended stay, unless a scheduler writes the status of a child without looking at its row.
-/

namespace GoblinKing

/-! ### Stages -/

/-- How far a child is, as far as the derived status tells. -/
inductive ChildStage where
  | waiting
  | active
  | completed
  | unsuccessful
  deriving DecidableEq

instance : Fintype ChildStage where
  elems := {.waiting, .active, .completed, .unsuccessful}
  complete := by
    intro stage
    cases stage <;> decide

/-- The stage of a child. -/
def JobStatus.stage : JobStatus → ChildStage
  | .queued => .waiting
  | .leased | .running | .retrying => .active
  | .completed => .completed
  | .failed | .timedOut | .cancelled => .unsuccessful

/-- The stages of children that have ended. -/
def endedStages : Finset ChildStage :=
  {.completed, .unsuccessful}

/-- The stages that occur among some children. -/
def stagesOf (jobs : List JobRecord) : Finset ChildStage :=
  (jobs.map (fun job => job.status.stage)).toFinset

/-- The status that is derived from the stages that occur. -/
def statusOfStages (stages : Finset ChildStage) : FanoutStatus :=
  if stages = ∅ then
    .queued
  else if stages ⊆ {.completed} then
    .completed
  else if stages ⊆ endedStages then
    if .completed ∈ stages then .partly else .failed
  else if endedStages ⊆ stages then
    .partly
  else if .active ∈ stages then
    .running
  else
    .queued

/-- A status that a fanout should not leave. -/
def FanoutStatus.isSettled : FanoutStatus → Bool
  | .completed | .failed | .partly => true
  | .queued | .running => false

/-- A child is queued when it is waiting. -/
theorem stage_eq_waiting {status : JobStatus} :
  status.stage = .waiting ↔ status = .queued
  := by
  cases status <;> simp [JobStatus.stage]

/-- A child is completed when its status is. -/
theorem stage_eq_completed {status : JobStatus} :
  status.stage = .completed ↔ status = .completed
  := by
  cases status <;> simp [JobStatus.stage]

/-- A child is unsuccessful when it has failed, timed out or been cancelled. -/
theorem stage_eq_unsuccessful {status : JobStatus} :
  status.stage = .unsuccessful ↔ status = .failed ∨ status = .timedOut ∨ status = .cancelled
  := by
  cases status <;> simp [JobStatus.stage]

/-- A child is active when it is leased, running or to be retried. -/
theorem stage_eq_active {status : JobStatus} :
  status.stage = .active ↔ status = .leased ∨ status = .running ∨ status = .retrying
  := by
  cases status <;> simp [JobStatus.stage]

/-- A child has ended when its status is terminal. -/
theorem stage_mem_endedStages {status : JobStatus} :
  status.stage ∈ endedStages ↔ status.isTerminal = true
  := by
  cases status <;> simp [JobStatus.stage, endedStages, JobStatus.isTerminal]

/-- A stage occurs when a child is at it. -/
theorem mem_stagesOf {jobs : List JobRecord} {stage : ChildStage} :
  stage ∈ stagesOf jobs ↔ ∃ job ∈ jobs, job.status.stage = stage
  := by
  simp [stagesOf]

/-- All children are at some stages when no other stages occur. -/
theorem stagesOf_subset {jobs : List JobRecord} {stages : Finset ChildStage} :
  stagesOf jobs ⊆ stages ↔ ∀ job ∈ jobs, job.status.stage ∈ stages
  := by
  constructor
  · intro h job hjob
    exact h (mem_stagesOf.mpr ⟨job, hjob, rfl⟩)
  · rintro h stage hstage
    obtain ⟨job, hjob, rfl⟩ := mem_stagesOf.mp hstage
    exact h job hjob

/-- The status of a fanout depends on the stages of its children only. -/
theorem deriveFanoutStatus_eq (jobs : List JobRecord) :
  deriveFanoutStatus jobs = statusOfStages (stagesOf jobs)
  := by
  have hempty : (jobs.map JobRecord.status).isEmpty = true ↔ stagesOf jobs = ∅ := by
    cases jobs <;> simp [stagesOf]
  have hcompleted : (jobs.map JobRecord.status).all (· = .completed) = true
      ↔ stagesOf jobs ⊆ {.completed} := by
    rw [stagesOf_subset]
    simp [stage_eq_completed]
  have hended : (jobs.map JobRecord.status).all JobStatus.isTerminal = true
      ↔ stagesOf jobs ⊆ endedStages := by
    simp [stagesOf_subset, stage_mem_endedStages]
  have hany : (jobs.map JobRecord.status).any (· = .completed) = true
      ↔ .completed ∈ stagesOf jobs := by
    simp [mem_stagesOf, stage_eq_completed]
  have hunsuccessful : (jobs.map JobRecord.status).any (fun status => status = .failed
      || status = .timedOut || status = .cancelled) = true ↔ .unsuccessful ∈ stagesOf jobs := by
    simp [mem_stagesOf, stage_eq_unsuccessful, or_assoc]
  have hactive : (jobs.map JobRecord.status).any (fun status => status = .leased
      || status = .running || status = .retrying) = true ↔ .active ∈ stagesOf jobs := by
    simp [mem_stagesOf, stage_eq_active, or_assoc]
  have hboth : endedStages ⊆ stagesOf jobs
      ↔ .completed ∈ stagesOf jobs ∧ .unsuccessful ∈ stagesOf jobs := by
    simp [endedStages, Finset.insert_subset_iff]
  simp only [deriveFanoutStatus, statusOfStages, Bool.and_eq_true, hempty, hcompleted, hended, hany,
    hunsuccessful, hactive, hboth]

/-- The status of a fanout does not depend on the order of its children. -/
theorem deriveFanoutStatus_perm {jobs jobs' : List JobRecord} (h : jobs'.Perm jobs) :
  deriveFanoutStatus jobs' = deriveFanoutStatus jobs
  := by
  have hstages : stagesOf jobs' = stagesOf jobs := by
    ext stage
    simp [mem_stagesOf, h.mem_iff]
  rw [deriveFanoutStatus_eq, deriveFanoutStatus_eq, hstages]

/-! ### One state -/

/-- The status of a fanout tells the truth about its children: it is queued only while they all
are, completed or failed only when they all have ended, and the same in whatever order they are
listed. -/
structure StatusTruthful (jobs : List JobRecord) : Prop where
  queued : deriveFanoutStatus jobs = .queued → ∀ job ∈ jobs, job.status = .queued
  ended : deriveFanoutStatus jobs = .completed ∨ deriveFanoutStatus jobs = .failed →
    ∀ job ∈ jobs, job.status.isTerminal = true
  ordered : ∀ jobs' : List JobRecord, jobs'.Perm jobs →
    deriveFanoutStatus jobs' = deriveFanoutStatus jobs

/-- Some children wait, none is active, and of those that have ended either all are completed or
none is. -/
def HalfDone (stages : Finset ChildStage) : Prop :=
  .waiting ∈ stages ∧ .active ∉ stages ∧ ¬ (.completed ∈ stages ↔ .unsuccessful ∈ stages)

instance : DecidablePred HalfDone :=
  fun _ => inferInstanceAs (Decidable (_ ∧ _))

/-- Stages are taken for those of children that all wait exactly when some do, or when they are
half done. -/
theorem queued_of_stages (stages : Finset ChildStage) :
  (statusOfStages stages = .queued → stages ⊆ {.waiting}) ↔ ¬ HalfDone stages
  := by
  revert stages
  decide

/-- Stages are taken for completed or failed ones only when all have ended. -/
theorem ended_of_stages (stages : Finset ChildStage) :
  statusOfStages stages = .completed ∨ statusOfStages stages = .failed → stages ⊆ endedStages
  := by
  revert stages
  decide

/-- The status tells the truth exactly when the children are not half done. -/
theorem statusTruthful_iff (jobs : List JobRecord) :
  StatusTruthful jobs ↔ ¬ HalfDone (stagesOf jobs)
  := by
  have hwaiting : stagesOf jobs ⊆ {.waiting} ↔ ∀ job ∈ jobs, job.status = .queued := by
    rw [stagesOf_subset]
    simp [stage_eq_waiting]
  rw [← queued_of_stages, hwaiting, ← deriveFanoutStatus_eq]
  constructor
  · intro h
    exact h.queued
  · intro hqueued
    use hqueued
    · intro hended job hjob
      rw [deriveFanoutStatus_eq] at hended
      exact stage_mem_endedStages.mp (stagesOf_subset.mp (ended_of_stages _ hended) job hjob)
    · intro jobs' hperm
      exact deriveFanoutStatus_perm hperm

/-! ### Runs -/

/-- The children of a fanout, as they are listed for it. -/
def System.children (σ : System) (fanoutId : Id) : List JobRecord :=
  listFanoutJobs σ.db.jobs fanoutId

/-- The action adds a child to a fanout. -/
def Action.addsChild (fanoutId : Id) : Action → Bool
  | .submit job => decide (job.fanoutId = some fanoutId)
  | _ => false

/-- A stage occurs among the children of a fanout when one of their rows is at it. -/
theorem mem_stagesOf_children {σ : System} {fanoutId : Id} {stage : ChildStage} :
  stage ∈ stagesOf (σ.children fanoutId) ↔ ∃ j row, σ.db.jobs.find? j = some row ∧
    row.fanoutId = some fanoutId ∧ row.status.stage = stage
  := by
  rw [mem_stagesOf]
  simp only [System.children, listFanoutJobs, List.mem_map, List.mem_insertionSort, Table.select,
    List.mem_filter, decide_eq_true_eq]
  constructor
  · rintro ⟨_, ⟨row, ⟨hrow, hfanout⟩, rfl⟩, hstage⟩
    exact ⟨row.id, row, Table.find?_of_mem hrow, hfanout, hstage⟩
  · rintro ⟨j, row, hrow, hfanout, hstage⟩
    exact ⟨rowToJob row, ⟨row, ⟨Table.mem_of_find? hrow, hfanout⟩, rfl⟩, hstage⟩

section

variable {env : Environment} {config : WorkerId → SchedulerConfig} {σ τ : System} {a : Action}
  {fanoutId : Id}

/-- A change of a row that does not delete it keeps its fanout. -/
theorem JobStep.fanoutId_eq {j : Id} {row row' : JobRecord}
    (h : JobStep σ a j (some row) (some row')) :
  row'.fanoutId = row.fanoutId
  := by
  cases h <;> rfl

/-- The job of a due schedule belongs to no fanout. -/
theorem fanoutId_materializedJob {config : SchedulerConfig} {schedule : ScheduleRecord}
    {jobId : Id} {now : Instant} {job : JobRecord}
    (h : materializedJob config schedule jobId now = .ok job) :
  job.fanoutId = none
  := by
  simp only [materializedJob] at h
  split at h
  case h_1 => cases h; rfl
  case h_2 =>
    split at h
    · cases h
    · cases h
      rfl

/-- A finalization adds no job. -/
theorem find?_of_finalizeAttempt {jobs jobs' : Jobs} {runs runs' : Runs} {run : RunRecord}
    {status : JobStatus} {lastError : Option String} {dueAt : Option Instant} {w : WorkerId}
    {finalization : AttemptFinalization} {j : Id}
    (h : finalizeAttempt jobs runs run status lastError dueAt w = .ok (finalization, jobs', runs'))
    (hnone : jobs.find? j = none) :
  jobs'.find? j = none
  := by
  obtain ⟨_, -, -, -, ⟨-, -, rfl⟩ | ⟨-, -, rfl⟩⟩ := finalizeAttempt_ok h
  · simp [find?_finishJob, hnone]
  · exact hnone

/-- A scheduler adds no child to a fanout. -/
theorem WorkerStep.fanoutId_inserted {config : SchedulerConfig} {w : WorkerId} {db db' : Db}
    {phase phase' : Phase} {events : List Event}
    (h : WorkerStep env config w db phase db' phase' events) {j : Id} {row : JobRecord}
    (hnone : db.jobs.find? j = none) (hrow : db'.jobs.find? j = some row) :
  row.fanoutId = none
  := by
  cases h
  case materialize hkind hjob hsave =>
    rw [Table.find?_insert? hsave] at hrow
    split at hrow
    case isTrue =>
      obtain rfl := Option.some.inj hrow
      exact fanoutId_materializedJob hjob
    case isFalse => cases hnone.symm.trans hrow
  case claim hclaim =>
    obtain rfl := congrArg Prod.snd hclaim
    simp [find?_claimDueJobs, hnone] at hrow
  case mark hmark =>
    obtain rfl := congrArg Prod.snd hmark
    simp [find?_tryMarkJobRunning, hnone] at hrow
  case superseded hmark =>
    obtain rfl := congrArg Prod.snd hmark
    simp [find?_tryMarkJobRunning, hnone] at hrow
  case defer => simp [find?_finishJob, hnone] at hrow
  case reconcile => simp [find?_finishJob, hnone] at hrow
  case reject hfinalize => cases (find?_of_finalizeAttempt hfinalize hnone).symm.trans hrow
  case finish hfinalize _ => cases (find?_of_finalizeAttempt hfinalize hnone).symm.trans hrow
  case finishLost hfinalize _ => cases (find?_of_finalizeAttempt hfinalize hnone).symm.trans hrow
  case fail hfinalize => cases (find?_of_finalizeAttempt hfinalize hnone).symm.trans hrow
  all_goals cases hnone.symm.trans hrow

/-- A row of a child after a step was one before the step, unless a child was added. -/
theorem exists_child_before {j : Id} {row' : JobRecord} (h : step env config σ a = some τ)
    (hadds : a.addsChild fanoutId = false) (hrow' : τ.db.jobs.find? j = some row')
    (hfanout : row'.fanoutId = some fanoutId) :
  ∃ row, σ.db.jobs.find? j = some row ∧ row.fanoutId = some fanoutId
  := by
  cases hrow : σ.db.jobs.find? j with
  | some row =>
      have hstep := jobStep_of_step h j
      rw [hrow, hrow'] at hstep
      exact ⟨row, rfl, hstep.fanoutId_eq.symm.trans hfanout⟩
  | none =>
      exfalso
      have hstep := jobStep_of_step h j
      rw [hrow, hrow'] at hstep
      cases a with
      | submit job =>
          simp only [step] at h
          split_ifs at h
          obtain ⟨jobs, hsave, rfl⟩ := Option.map_eq_some_iff.mp h
          rw [Table.find?_insert? hsave] at hrow'
          split at hrow'
          case isTrue =>
            obtain rfl := Option.some.inj hrow'
            simp [Action.addsChild, hfanout] at hadds
          case isFalse => cases hrow.symm.trans hrow'
      | scheduler w action =>
          obtain ⟨db, phase, events, hworker, rfl⟩ := workerStep_of_step h
          cases (hworker.fanoutId_inserted hrow hrow').symm.trans hfanout
      | cancel jobId =>
          cases h
          simp [find?_tryCancelJob, hrow] at hrow'
      | renew w jobId leaseUntil =>
          cases h
          simp [find?_tryRenewJobLease, hrow] at hrow'
      | cleanup projectId =>
          cases h
          simp [Table.find?_delete, hrow] at hrow'
      | create kinds request projectId scheduleId createdAt =>
          simp only [step] at h
          split at h
          · cases h
          · cases h
            cases hrow.symm.trans hrow'
      | readPatch requestId scheduleId request =>
          rw [(readPatch_frame h).1] at hrow'
          cases hrow.symm.trans hrow'
      | writePatch requestId now =>
          rw [(writePatch_frame h).1] at hrow'
          cases hrow.symm.trans hrow'

/-- A row of a child before a step is one after the step, unless rows are deleted. -/
theorem exists_child_after {j : Id} {row : JobRecord} (h : step env config σ a = some τ)
    (hkeeps : a.keepsRows = true) (hrow : σ.db.jobs.find? j = some row)
    (hfanout : row.fanoutId = some fanoutId) :
  ∃ row', τ.db.jobs.find? j = some row' ∧ row'.fanoutId = some fanoutId
  := by
  have hstep := jobStep_of_step h j
  rw [hrow] at hstep
  obtain ⟨row', hrow', -⟩ := hstep.knows hkeeps
  rw [hrow'] at hstep
  exact ⟨row', hrow', hstep.fanoutId_eq.trans hfanout⟩

/-- A write that does not look at its row finishes the job with the status. -/
theorem jobs_of_blindWrite {w : WorkerId} {j : Id} {status : JobStatus}
    (h : step env config σ a = some τ) (hworker : a.worker = some w)
    (hblind : (σ.phase w).blindWrite = some (j, status)) :
  ∃ lastError dueAt, τ.db.jobs = finishJob σ.db.jobs j status lastError dueAt
  := by
  cases a with
  | scheduler v action =>
      obtain rfl := Option.some.inj hworker
      obtain ⟨db, phase, events, hstep, rfl⟩ := workerStep_of_step h
      generalize σ.phase v = before at hstep hblind
      cases hstep <;> simp only [Phase.blindWrite, reduceCtorEq, Option.some.injEq,
        Prod.mk.injEq] at hblind
      case defer =>
        obtain ⟨rfl, rfl⟩ := hblind
        exact ⟨_, _, rfl⟩
      case reconcile =>
        obtain ⟨rfl, rfl⟩ := hblind
        exact ⟨_, _, rfl⟩
  | _ => cases hworker

/-- The stages of the children of a fanout when one of them is given a status. -/
def System.stagesWith (σ : System) (fanoutId j : Id) (status : JobStatus) : Finset ChildStage :=
  stagesOf ((σ.children fanoutId).map (fun job =>
    if job.id = j then { job with status := status } else job))

/-- After a write that does not look at its row, the children are at the stages with the status
that is written. -/
theorem stagesOf_blindWrite {w : WorkerId} {j : Id} {status : JobStatus}
    (h : step env config σ a = some τ) (hworker : a.worker = some w)
    (hblind : (σ.phase w).blindWrite = some (j, status)) :
  stagesOf (τ.children fanoutId) = σ.stagesWith fanoutId j status
  := by
  obtain ⟨lastError, dueAt, hjobs⟩ := jobs_of_blindWrite h hworker hblind
  ext stage
  rw [mem_stagesOf_children, hjobs, System.stagesWith, mem_stagesOf]
  simp only [System.children, listFanoutJobs, List.mem_map, List.mem_insertionSort, Table.select,
    List.mem_filter, decide_eq_true_eq, find?_finishJob, Option.map_eq_some_iff]
  constructor
  · rintro ⟨k, _, ⟨row, hrow, rfl⟩, hfanout, hstage⟩
    refine ⟨_, ⟨rowToJob row, ⟨row, ⟨Table.mem_of_find? hrow, ?_⟩, rfl⟩, rfl⟩, ?_⟩
    · split at hfanout <;> exact hfanout
    · split at hstage
      case isTrue hid =>
        have hjob : (rowToJob row).id = j := hid
        rw [if_pos hjob]
        exact hstage
      case isFalse hid =>
        have hjob : (rowToJob row).id ≠ j := hid
        rw [if_neg hjob]
        exact hstage
  · rintro ⟨_, ⟨_, ⟨row, ⟨hrow, hfanout⟩, rfl⟩, rfl⟩, hstage⟩
    refine ⟨row.id, _, ⟨row, Table.find?_of_mem hrow, rfl⟩, ?_, ?_⟩
    · split <;> exact hfanout
    · split at hstage
      case isTrue hid =>
        have hrow' : row.id = j := hid
        rw [if_pos hrow']
        exact hstage
      case isFalse hid =>
        have hrow' : row.id ≠ j := hid
        rw [if_neg hrow']
        exact hstage

/-- The stages after a change leave the outcome that the stages before it tell: a child is
completed, or unsuccessful, exactly when one was; and none is put back among those that have not
ended, unless there are both. -/
def OutcomeKept (before after : Finset ChildStage) : Prop :=
  (.completed ∈ after ↔ .completed ∈ before) ∧ (.unsuccessful ∈ after ↔ .unsuccessful ∈ before) ∧
    (endedStages ⊆ before ∨ after ⊆ endedStages)

instance (before after : Finset ChildStage) : Decidable (OutcomeKept before after) :=
  inferInstanceAs (Decidable (_ ∧ _))

/-- A settled status stays exactly when the outcome is kept. -/
theorem statusOfStages_eq_iff (before after : Finset ChildStage)
    (h : (statusOfStages before).isSettled = true) :
  statusOfStages after = statusOfStages before ↔ OutcomeKept before after
  := by
  revert before after
  decide

/-- The outcome is kept when stages of children that have ended stay, and others come only while
some children have not ended. -/
theorem outcomeKept_of_stages (before after : Finset ChildStage)
    (h : (statusOfStages before).isSettled = true)
    (hstay : ∀ stage ∈ endedStages, stage ∈ before → stage ∈ after)
    (hended : before ⊆ endedStages → after ⊆ before) :
  OutcomeKept before after
  := by
  revert before after
  decide

/-- A write that does not look at its row keeps the outcome of a settled fanout when it gives a
status to one of the children. -/
def SparesOutcome (fanoutId : Id) (σ : System) (a : Action) : Prop :=
  ∀ w j status row, a.worker = some w → (σ.phase w).blindWrite = some (j, status) →
    σ.db.jobs.find? j = some row → row.fanoutId = some fanoutId →
    (deriveFanoutStatus (σ.children fanoutId)).isSettled = true →
    OutcomeKept (stagesOf (σ.children fanoutId)) (σ.stagesWith fanoutId j status)

/-- A step of which no write gives a status to a child without looking at its row keeps the
outcome of a settled fanout. -/
theorem outcomeKept_of_step (hσ : OwnedRows σ) (h : step env config σ a = some τ)
    (hkeeps : a.keepsRows = true) (hadds : a.addsChild fanoutId = false)
    (hsettled : (statusOfStages (stagesOf (σ.children fanoutId))).isSettled = true)
    (hblind : ∀ w j status row, a.worker = some w → (σ.phase w).blindWrite = some (j, status) →
      σ.db.jobs.find? j = some row → row.fanoutId ≠ some fanoutId) :
  OutcomeKept (stagesOf (σ.children fanoutId)) (stagesOf (τ.children fanoutId))
  := by
  have hkept : ∀ j row row', σ.db.jobs.find? j = some row → τ.db.jobs.find? j = some row' →
      row.fanoutId = some fanoutId → row.status.isTerminal = true → row'.status = row.status := by
    intro j row row' hrow hrow' hfanout hterminal
    have hstep := jobStep_of_step h j
    rw [hrow, hrow'] at hstep
    have howner : row.leaseOwner = none := by
      rw [← Option.not_isSome_iff_eq_none, hσ.owned j row hrow, JobStatus.not_isActive hterminal]
      simp
    refine (hstep.terminal_kept hterminal howner ?_).1
    intro w status hworker hwrite
    cases hblind w j status row hworker hwrite hrow hfanout
  apply outcomeKept_of_stages _ _ hsettled
  · intro stage hended hstage
    obtain ⟨j, row, hrow, hfanout, rfl⟩ := mem_stagesOf_children.mp hstage
    obtain ⟨row', hrow', hfanout'⟩ := exists_child_after h hkeeps hrow hfanout
    have hstatus := hkept j row row' hrow hrow' hfanout (stage_mem_endedStages.mp hended)
    exact mem_stagesOf_children.mpr ⟨j, row', hrow', hfanout', by rw [hstatus]⟩
  · intro hall stage hstage
    obtain ⟨j, row', hrow', hfanout', rfl⟩ := mem_stagesOf_children.mp hstage
    obtain ⟨row, hrow, hfanout⟩ := exists_child_before h hadds hrow' hfanout'
    have hmem : row.status.stage ∈ stagesOf (σ.children fanoutId) :=
      mem_stagesOf_children.mpr ⟨j, row, hrow, hfanout, rfl⟩
    rw [hkept j row row' hrow hrow' hfanout (stage_mem_endedStages.mp (hall hmem))]
    exact hmem

/-- The status of a fanout tells the truth before and after a step, and stays when it is
settled. -/
structure ProgressTruthful (fanoutId : Id) (σ : System) (_ : Action) (τ : System) : Prop where
  before : StatusTruthful (σ.children fanoutId)
  after : StatusTruthful (τ.children fanoutId)
  settled : (deriveFanoutStatus (σ.children fanoutId)).isSettled = true →
    deriveFanoutStatus (τ.children fanoutId) = deriveFanoutStatus (σ.children fanoutId)

/-- A settled status stays exactly when the writes that do not look at their rows spare the
outcome. -/
theorem settled_iff_sparesOutcome (hσ : OwnedRows σ) (h : step env config σ a = some τ)
    (hkeeps : a.keepsRows = true) (hadds : a.addsChild fanoutId = false) :
  ((deriveFanoutStatus (σ.children fanoutId)).isSettled = true →
    deriveFanoutStatus (τ.children fanoutId) = deriveFanoutStatus (σ.children fanoutId))
  ↔ SparesOutcome fanoutId σ a
  := by
  rw [SparesOutcome]
  simp only [deriveFanoutStatus_eq]
  constructor
  · intro hstays w j status row hworker hwrite hrow hfanout hsettled
    rw [← stagesOf_blindWrite h hworker hwrite]
    exact (statusOfStages_eq_iff _ _ hsettled).mp (hstays hsettled)
  · intro hspares hsettled
    rw [statusOfStages_eq_iff _ _ hsettled]
    by_cases hblind : ∃ w j status row, a.worker = some w ∧
        (σ.phase w).blindWrite = some (j, status) ∧ σ.db.jobs.find? j = some row ∧
        row.fanoutId = some fanoutId
    · obtain ⟨w, j, status, row, hworker, hwrite, hrow, hfanout⟩ := hblind
      rw [stagesOf_blindWrite h hworker hwrite]
      exact hspares w j status row hworker hwrite hrow hfanout hsettled
    · apply outcomeKept_of_step hσ h hkeeps hadds hsettled
      intro w j status row hworker hwrite hrow hfanout
      exact hblind ⟨w, j, status, row, hworker, hwrite, hrow, hfanout⟩

/-- The children are not half done before and after a step, and the step spares the outcome. -/
structure ProgressKept (fanoutId : Id) (σ : System) (a : Action) (τ : System) : Prop where
  before : ¬ HalfDone (stagesOf (σ.children fanoutId))
  after : ¬ HalfDone (stagesOf (τ.children fanoutId))
  spares : SparesOutcome fanoutId σ a

/-- Along a run of the children of a fanout, from any state that was reached, the status of the
fanout tells the truth and stays once it is settled exactly when the children are never half done
and no write that does not look at its row changes a settled outcome. -/
theorem fanout_progress_iff (env : Environment) (config : WorkerId → SchedulerConfig)
    (fanoutId : Id) {σ : System} (hσ : Transition.Reaches (step env config) System.init σ)
    {as : List Action} (has : ∀ a ∈ as, a.keepsRows = true ∧ a.addsChild fanoutId = false) :
  Transition.Along (step env config) (ProgressTruthful fanoutId) σ as
    ↔ Transition.Along (step env config) (ProgressKept fanoutId) σ as
  := by
  have howned : OwnedRows σ := by
    apply hσ.invariant _ ownedRows_init
    intro σ a τ hσ _ h
    exact hσ.step h
  refine Transition.along_congr (I := OwnedRows)
    (G := fun a => a.keepsRows = true ∧ a.addsChild fanoutId = false) ?_ ?_ howned has
  · intro σ a τ hσ _ h
    exact hσ.step h
  · rintro σ a τ hσ ⟨hkeeps, hadds⟩ h
    have hsettled := settled_iff_sparesOutcome hσ h hkeeps hadds
    constructor
    · intro htrue
      use (statusTruthful_iff _).mp htrue.before, (statusTruthful_iff _).mp htrue.after
      exact hsettled.mp htrue.settled
    · intro hkept
      use (statusTruthful_iff _).mpr hkept.before, (statusTruthful_iff _).mpr hkept.after
      exact hsettled.mpr hkept.spares

end

/-- A fanout of two children of a kind with the limit of one running job. -/
def twoChildren : List Action :=
  [.submit { id := "a", kind := "report", createdAt := 0, fanoutId := some "f",
             resourcePolicy := Environment.oneRunning },
    .submit { id := "b", kind := "report", createdAt := 1, fanoutId := some "f",
              resourcePolicy := Environment.oneRunning }]

/-- Both children are claimed; the first is put back into the queue, the second is started. -/
def secondStarted : List Action :=
  [.scheduler "s1" (.begin 10), .scheduler "s1" .tick, .scheduler "s1" .tick,
    .scheduler "s1" .tick, .scheduler "s1" .tick, .scheduler "s1" .tick, .scheduler "s1" .tick,
    .scheduler "s1" .tick, .scheduler "s1" (.mark 11), .scheduler "s1" (.start "r1")]

/-- The second child is completed. -/
def secondFinished : Action :=
  .scheduler "s1" (.finish ⟨.success, none⟩ 1 none 20)

/-- The states of the fanout before and after the second child is completed. -/
def fanoutStates : Option (FanoutStatus × FanoutStatus × List JobStatus) :=
  (sampleRun twoChildren).bind (fun σ =>
    (Transition.run (step Environment.sample sampleConfig) σ (secondStarted ++ [secondFinished])).map
      (fun τ => (deriveFanoutStatus (σ.children "f"), deriveFanoutStatus (τ.children "f"),
        (τ.children "f").map JobRecord.status)))

/-- No outcome is settled before a step, and the children are not half done before and after it. -/
def stillOpen (fanoutId : Id) (σ : System) (a : Action) : Bool :=
  !(deriveFanoutStatus (σ.children fanoutId)).isSettled
    && !decide (HalfDone (stagesOf (σ.children fanoutId)))
    && (step Environment.sample sampleConfig σ a).all (fun τ =>
      !decide (HalfDone (stagesOf (τ.children fanoutId))))

/-- From the submission of two children up to the start of the second one, the status of their fanout tells
the truth. -/
theorem fanout_progress_twoChildren :
  ∃ σ τ, sampleRun twoChildren = some σ
    ∧ Transition.run (step Environment.sample sampleConfig) σ secondStarted = some τ
    ∧ deriveFanoutStatus (τ.children "f") = .running
    ∧ Transition.Along (step Environment.sample sampleConfig) (ProgressTruthful "f") σ secondStarted
  := by
  have hseen : (sampleRun twoChildren).bind (fun σ =>
      (Transition.runUnder (step Environment.sample sampleConfig) (stillOpen "f") σ secondStarted).map
        (fun τ => deriveFanoutStatus (τ.children "f"))) = some .running := by
    decide +kernel
  obtain ⟨σ, hrun, hseen⟩ := Option.bind_eq_some_iff.mp hseen
  obtain ⟨τ, hrun', hrunning⟩ := Option.map_eq_some_iff.mp hseen
  use σ, τ, hrun, Transition.run_of_runUnder hrun', hrunning
  apply (fanout_progress_iff _ _ _ (Transition.reaches_of_run hrun) (by decide)).mpr
  apply Transition.along_of_invariant (I := fun _ => True) _ trivial
    (Transition.along_of_runUnder hrun')
  intro σ a τ _ hopen hstep
  simp only [stillOpen, hstep, Option.all_some, Bool.and_eq_true, Bool.not_eq_true',
    decide_eq_false_iff_not] at hopen
  obtain ⟨⟨hsettled, hbefore⟩, hafter⟩ := hopen
  refine ⟨trivial, hbefore, hafter, ?_⟩
  intro _ _ _ _ _ _ _ _ hsettled'
  rw [hsettled] at hsettled'
  cases hsettled'

/-- A fanout with a completed child and a waiting one is said to be queued. -/
theorem half_done_fanout_said_queued :
  ¬ ∀ σ as, Transition.Reaches (step Environment.sample sampleConfig) System.init σ →
    (∀ a ∈ as, a.keepsRows = true ∧ a.addsChild "f" = false) →
    Transition.Along (step Environment.sample sampleConfig) (ProgressTruthful "f") σ as
  := by
  intro h
  have hstates : fanoutStates = some (.queued, .queued, [.queued, .completed]) := by
    decide +kernel
  obtain ⟨σ, hrun, hstates⟩ := Option.bind_eq_some_iff.mp hstates
  obtain ⟨τ, hrun', hstates⟩ := Option.map_eq_some_iff.mp hstates
  simp only [Prod.mk.injEq] at hstates
  obtain ⟨-, hqueued, hstatuses⟩ := hstates
  have halong := h σ (secondStarted ++ [secondFinished]) (Transition.reaches_of_run hrun) (by decide)
  obtain ⟨_, -, -, htruthful⟩ := Transition.along_last halong hrun'
  have hall : ∀ status ∈ (τ.children "f").map JobRecord.status, status = .queued := by
    intro status hstatus
    obtain ⟨job, hjob, rfl⟩ := List.mem_map.mp hstatus
    exact htruthful.after.queued hqueued job hjob
  rw [hstatuses] at hall
  cases hall .completed (by simp)

end GoblinKing
