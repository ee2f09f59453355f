import GoblinKing.Api.Ceilings
import GoblinKing.Scheduler.Knowledge

/-!
# Owners of rows

A run has the project of its job, and a job the project of its fanout. Nothing in the tables says
so: it is how the rows are created. The scheduler copies the project of a job into its runs; a
batch gives its own project to its jobs, and a retry copies fanout and project together.
-/

namespace GoblinKing

/-- Every run has the project of its job, as long as the job is there. -/
def RunsFollowJobs (runs : Runs) (jobs : Jobs) : Prop :=
  ∀ run ∈ runs.rows, ∀ job ∈ jobs.rows, run.jobId = job.id → run.projectId = job.projectId

/-- A job has the project of the fanout that it belongs to, if any. -/
def FollowsFanout (fanouts : Table FanoutRecord.id) (job : JobRecord) : Prop :=
  ∀ fanout ∈ fanouts.rows, job.fanoutId = some fanout.id → job.projectId = fanout.projectId

/-- Every job has the project of its fanout. -/
def JobsFollowFanouts (jobs : Jobs) (fanouts : Table FanoutRecord.id) : Prop :=
  ∀ job ∈ jobs.rows, FollowsFanout fanouts job

/-- The runs of a scheduler follow their jobs. -/
theorem RunsOfJobs.runsFollowJobs {σ : System} (h : RunsOfJobs σ) :
  RunsFollowJobs σ.db.runs σ.db.jobs
  := by
  intro run hrun job hjob hid
  obtain ⟨row, hrow, hlineage⟩ := h run.id run (Table.find?_of_mem hrun)
  rw [hid, Table.find?_of_mem hjob] at hrow
  cases hrow
  simp only [RunRecord.lineage, JobRecord.runLineage, Prod.mk.injEq] at hlineage
  apply hlineage.2.2.1

/-- The identifier of a new fanout, drawn by `uuid4`, is not that of any job. -/
def QueueAction.drawsFresh (db : QueueDb) : QueueAction → Prop
  | .createFanout _ _ fanoutId _ _ =>
      ∀ job ∈ db.scheduler.jobs.rows, job.fanoutId ≠ some fanoutId
  | _ => True

section

variable {config : QueueConfig} {db db' : QueueDb}

/-- A job without a fanout follows it. -/
theorem followsFanout_none {fanouts : Table FanoutRecord.id} {job : JobRecord}
    (h : job.fanoutId = none) :
  FollowsFanout fanouts job
  := by
  intro fanout _ hchild
  rw [h] at hchild
  cases hchild

/-- The policy of a job changes neither its fanout nor its project. -/
theorem underPolicy_owner (policy : Option ResourcePolicy) (job : JobRecord) :
  (job.underPolicy config policy).fanoutId = job.fanoutId
    ∧ (job.underPolicy config policy).projectId = job.projectId
  := by
  cases policy <;> exact ⟨rfl, rfl⟩

/-- Jobs that follow their fanouts can be added. -/
theorem JobsFollowFanouts.append {jobs jobs' : Jobs} {fanouts : Table FanoutRecord.id}
    {saved : List JobRecord} (h : JobsFollowFanouts jobs fanouts)
    (hrows : jobs'.rows = jobs.rows ++ saved) (hsaved : ∀ job ∈ saved, FollowsFanout fanouts job) :
  JobsFollowFanouts jobs' fanouts
  := by
  intro job hjob
  rw [hrows] at hjob
  rcases List.mem_append.mp hjob with hjob | hjob
  · apply h job hjob
  · apply hsaved job hjob

/-- A request that saves at most one job keeps jobs with their fanouts, when its job follows its
fanout. -/
theorem jobsFollowFanouts_saveOr {queued : Except String JobRecord}
    (hdb : JobsFollowFanouts db.scheduler.jobs db.fanouts) (h : db.saveOr queued = some db')
    (hqueued : ∀ job, queued = .ok job → FollowsFanout db.fanouts job) :
  JobsFollowFanouts db'.scheduler.jobs db'.fanouts
  := by
  cases queued with
  | error error =>
      obtain rfl := Option.some.inj h
      apply hdb
  | ok job =>
      have hrows := (rows_of_save h).1
      obtain ⟨jobs, -, rfl⟩ := Option.map_eq_some_iff.mp h
      apply hdb.append hrows
      intro job' hjob'
      obtain rfl := List.mem_singleton.mp hjob'
      apply hqueued job' rfl

/-- A job that is requested by itself belongs to no fanout. -/
theorem fanoutId_of_queuedJob {request : JobCreateRequest} {principal : Principal} {jobId : Id}
    {createdAt : Instant} {job : JobRecord}
    (h : queuedJob config db request principal jobId createdAt = .ok job) :
  job.fanoutId = none
  := by
  rw [queuedJob] at h
  split at h
  case h_1 =>
    obtain ⟨_, -, h⟩ := Except.bind_eq_ok.mp h
    obtain ⟨policy, -, h⟩ := Except.bind_eq_ok.mp h
    obtain rfl := Except.ok.inj h
    apply (underPolicy_owner policy _).1
  case h_2 =>
    split at h
    case h_1 => cases h
    case h_2 =>
      obtain ⟨_, -, h⟩ := Except.bind_eq_ok.mp h
      obtain ⟨_, -, h⟩ := Except.bind_eq_ok.mp h
      obtain rfl := Except.ok.inj h
      rfl

/-- Saving jobs changes no fanout. -/
theorem fanouts_of_saveAll {jobs : List JobRecord} (h : db.saveAll jobs = some db') :
  db'.fanouts = db.fanouts
  := by
  induction jobs generalizing db with
  | nil =>
      obtain rfl := Option.some.inj h
      rfl
  | cons job jobs ih =>
      obtain ⟨db₁, hsave, h⟩ := Option.bind_eq_some_iff.mp h
      rw [ih h]
      obtain ⟨saved, -, rfl⟩ := Option.map_eq_some_iff.mp hsave
      rfl

/-- A retry belongs to the fanout and to the project of its source. -/
theorem followsFanout_retriedJob (hdb : JobsFollowFanouts db.scheduler.jobs db.fanouts)
    {sourceId jobId : Id} {request : RetryCreateRequest} {createdAt : Instant} {job : JobRecord}
    (h : retriedJob config db sourceId request jobId createdAt = .ok job) :
  FollowsFanout db.fanouts job
  := by
  obtain ⟨source, hsource, h⟩ := Except.bind_eq_ok.mp h
  obtain ⟨policy, -, h⟩ := Except.bind_eq_ok.mp h
  obtain rfl := Except.ok.inj h
  rw [retrySource] at hsource
  split at hsource
  case h_1 => cases hsource
  case h_2 found hfound =>
    obtain ⟨_, -, hsource⟩ := Except.bind_eq_ok.mp hsource
    obtain rfl := Except.ok.inj hsource
    intro fanout hfanout hchild
    rw [(underPolicy_owner policy _).1] at hchild
    rw [(underPolicy_owner policy _).2]
    apply hdb found (Table.mem_of_find? hfound) fanout hfanout hchild

/-- The jobs of a batch belong to its fanout and to its project. -/
theorem owner_of_fanoutJobs {projectId : Option Id} {fanoutId : Id} {now : Instant}
    {items : List (FanoutItem × Id)} {policies : List (Option ResourcePolicy)} {job : JobRecord}
    (h : job ∈ fanoutJobs config projectId fanoutId now items policies) :
  job.fanoutId = some fanoutId ∧ job.projectId = projectId
  := by
  induction items generalizing policies with
  | nil => cases h
  | cons item items ih =>
      cases policies with
      | nil => cases h
      | cons policy policies =>
          rcases List.mem_cons.mp h with rfl | h
          · apply underPolicy_owner policy
          · apply ih h

/-- A batch keeps jobs with their fanouts. -/
theorem jobsFollowFanouts_createFanout (hdb : JobsFollowFanouts db.scheduler.jobs db.fanouts)
    {request : FanoutCreateRequest} {projectId : Option Id} {fanoutId : Id} {jobIds : List Id}
    {now : Instant} (hfresh : ∀ job ∈ db.scheduler.jobs.rows, job.fanoutId ≠ some fanoutId)
    (h : queueStep config db (.createFanout request projectId fanoutId jobIds now) = some db') :
  JobsFollowFanouts db'.scheduler.jobs db'.fanouts
  := by
  simp only [queueStep] at h
  split at h
  case h_1 =>
    obtain rfl := Option.some.inj h
    apply hdb
  case h_2 policies _ =>
    obtain ⟨fanouts, hfanouts, h⟩ := Option.bind_eq_some_iff.mp h
    split at h
    case isFalse => cases h
    case isTrue =>
      have hrows := Table.rows_insert? hfanouts
      have hsaved := rows_of_saveAll h
      have hsame : db'.fanouts = fanouts := fanouts_of_saveAll h
      rw [hsame]
      refine JobsFollowFanouts.append (?_ : JobsFollowFanouts db.scheduler.jobs _) hsaved ?_
      swap
      · intro job hjob fanout hfanout hchild
        obtain ⟨hchild', hproject⟩ := owner_of_fanoutJobs hjob
        rw [hchild] at hchild'
        have hnew : (⟨fanoutId, now, projectId⟩ : FanoutRecord) ∈ fanouts.rows := by
          rw [hrows]
          apply List.mem_append_right _ List.mem_cons_self
        rw [hproject, fanouts.eq_of_key_eq hfanout hnew (Option.some.inj hchild')]
      · intro job hjob fanout hfanout hchild
        rw [hrows] at hfanout
        rcases List.mem_append.mp hfanout with hfanout | hfanout
        · apply hdb job hjob fanout hfanout hchild
        · obtain rfl := List.mem_singleton.mp hfanout
          cases hfresh job hjob hchild

/-- A schedule that is due keeps jobs with their fanouts. -/
theorem jobsFollowFanouts_materialize (hdb : JobsFollowFanouts db.scheduler.jobs db.fanouts)
    {w : WorkerId} {schedule : ScheduleRecord} {jobId : Id} {now : Instant}
    (h : queueStep config db (.materialize w schedule jobId now) = some db') :
  JobsFollowFanouts db'.scheduler.jobs db'.fanouts
  := by
  obtain ⟨⟨scheduler, phase, events⟩, hstep, h⟩ := Option.bind_eq_some_iff.mp h
  obtain rfl := Option.some.inj h
  rw [materialize] at hstep
  split at hstep
  case h_1 =>
    obtain ⟨rfl, -⟩ := Prod.mk.inj (Option.some.inj hstep)
    apply hdb
  case h_2 =>
    split at hstep
    case h_1 =>
      obtain ⟨rfl, -⟩ := Prod.mk.inj (Option.some.inj hstep)
      apply hdb
    case h_2 job hjob =>
      split at hstep
      case h_1 => cases hstep
      case h_2 jobs hsave =>
        obtain ⟨rfl, -⟩ := Prod.mk.inj (Option.some.inj hstep)
        apply hdb.append (Table.rows_insert? hsave)
        intro job' hjob'
        obtain rfl := List.mem_singleton.mp hjob'
        apply followsFanout_none
        rw [materializedJob] at hjob
        split at hjob
        case h_1 =>
          obtain rfl := Except.ok.inj hjob
          rfl
        case h_2 =>
          split at hjob
          case h_1 => cases hjob
          case h_2 =>
            obtain rfl := Except.ok.inj hjob
            rfl

/-- Every way into the queue keeps jobs with their fanouts. -/
theorem jobsFollowFanouts_queueStep {a : QueueAction} (hfresh : a.drawsFresh db)
    (hdb : JobsFollowFanouts db.scheduler.jobs db.fanouts)
    (h : queueStep config db a = some db') :
  JobsFollowFanouts db'.scheduler.jobs db'.fanouts
  := by
  cases a with
  | createJob request principal jobId createdAt =>
      apply jobsFollowFanouts_saveOr hdb h
      intro job hjob
      apply followsFanout_none (fanoutId_of_queuedJob hjob)
  | runRepositoryFunction name request principal jobId createdAt =>
      apply jobsFollowFanouts_saveOr hdb h
      intro job hjob
      obtain ⟨jobRequest, -, hjob⟩ := Except.bind_eq_ok.mp hjob
      apply followsFanout_none (fanoutId_of_queuedJob hjob)
  | createFanout request projectId fanoutId jobIds now =>
      apply jobsFollowFanouts_createFanout hdb hfresh h
  | retryJob sourceId request jobId createdAt =>
      apply jobsFollowFanouts_saveOr hdb h
      intro job hjob
      apply followsFanout_retriedJob hdb hjob
  | materialize w schedule jobId now =>
      apply jobsFollowFanouts_materialize hdb h

end

/-- However jobs get into the queue, from a store in which they follow their fanouts, they keep
following them. -/
theorem jobsFollowFanouts_run (config : QueueConfig) {db db' : QueueDb} {as : List QueueAction}
    (hdb : JobsFollowFanouts db.scheduler.jobs db.fanouts)
    (hfresh : Transition.Along (queueStep config) (fun db a _ => a.drawsFresh db) db as)
    (h : Transition.run (queueStep config) db as = some db') :
  JobsFollowFanouts db'.scheduler.jobs db'.fanouts
  := by
  apply (Transition.path_of_run h hfresh).invariant
    (I := fun db => JobsFollowFanouts db.scheduler.jobs db.fanouts) _ hdb
  intro db a db' hdb hfresh hstep
  apply jobsFollowFanouts_queueStep hfresh hdb hstep

end GoblinKing
