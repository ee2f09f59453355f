import GoblinKing.Scheduler.Knowledge

/-!
# Passes

A pass of a scheduler works through lists of schedules and jobs that others have written. An
exception that leaves one of its loops ends the pass: the schedules and jobs that are left
get nothing, and the jobs that were claimed stay leased to the scheduler. Every step is told
here under which condition it raises. As long as no step does, every pass accounts for all
schedules it has listed and all jobs it has claimed.
-/

namespace GoblinKing

/-! ### When a step raises -/

/-- The rows of the due schedules can be loaded. -/
def dueRowsLoad (schedules : Schedules) (now : Instant) : Bool :=
  schedules.rows.all (fun row => !row.due now || row.inputJson.isSome)

/-- The run in which a failure is to be recorded is running, and has the lineage of the
failure; or is not there. -/
def acceptsFailure (db : Db) (job current : JobRecord) (runningRun : Option RunRecord) : Bool :=
  (db.jobs.find? current.id).isSome
    && runningRun.all (fun running => (db.runs.find? running.id).all (fun existing =>
      decide (existing.status = .running)
        && decide (current.runLineage (failureAttempt current job) = existing.lineage)))

/-- A step does not raise. Listing needs due schedules that load, and saving a job needs its
kind in the registry; advancing needs an instant at which the schedule runs next; checking
needs a valid policy, and entering leases a length of the leases. The recovery needs the
row of its job, a valid policy, and a run that is still as it was read. -/
def proceeds (env : Environment) (config : SchedulerConfig) (db : Db) (phase : Phase)
    (action : SchedulerAction) : Bool :=
  match phase, action with
  | .idle _, .begin now => dueRowsLoad db.schedules now
  | .due _ (schedule :: _), _ => decide (schedule.kind ∈ config.kinds)
  | .saved now schedule _, _ => (env.nextRunAfter schedule.cron schedule.timezone now).isOk
  | .check _ (job :: _) _, _ => job.hasPolicy env
  | .check _ [] runnable, _ => decide (runnable = []) || decide (0 < config.leaseSeconds)
  | .recover _ job _ _, _ => (db.jobs.find? job.id).isSome
  | .inspect _ _ _ current _, _ =>
      match reconciliation current (listJobRuns db.runs current.id) with
      | .fail _ => current.hasPolicy env
      | _ => true
  | .fail _ job _ current runningRun _, _ => acceptsFailure db job current runningRun
  | _, _ => true

/-- The due schedules are listed exactly when their rows load. -/
theorem listDueSchedules_ok {schedules : Schedules} {now : Instant} :
  (∃ due, listDueSchedules schedules now = .ok due) ↔ dueRowsLoad schedules now = true
  := by
  have hmem : ∀ row, row ∈ (schedules.select (ScheduleRow.due now)).insertionSort
      ScheduleRow.RunsBefore ↔ row ∈ schedules.rows ∧ row.due now = true := by
    simp [Table.select]
  simp only [dueRowsLoad, List.all_eq_true, Bool.or_eq_true, Bool.not_eq_true', listDueSchedules]
  constructor
  · rintro ⟨due, hdue⟩ row hrow
    by_contra hbad
    simp only [not_or, Bool.not_eq_false, Bool.not_eq_true, Option.isSome_eq_false_iff,
      Option.isNone_iff_eq_none] at hbad
    apply rowsToSchedules_error ((hmem row).mpr ⟨hrow, hbad.1⟩) hbad.2 due hdue
  · intro hload
    apply rowsToSchedules_total
    intro row hrow hnone
    obtain ⟨hrow, hdue⟩ := (hmem row).mp hrow
    rcases hload row hrow with hnot | hsome
    · rw [hdue] at hnot
      cases hnot
    · rw [hnone] at hsome
      cases hsome

/-- A policy is invalid when reading it raises. -/
theorem not_hasPolicy_iff {env : Environment} {job : JobRecord} :
  job.hasPolicy env = false
    ↔ ∃ error, policyFromJobMetadata env.modelValidate job.resourcePolicy = .error error
  := Except.isOk_eq_false

/-- Recording a failure raises exactly when its run does not accept it. -/
theorem acceptsFailure_iff {db : Db} {run : RunRecord} {current job : JobRecord}
    {runningRun : Option RunRecord} {runId : Id} {startedAt finishedAt : Instant}
    {error : String} {w : WorkerId} (hid : db.runs.find? runId = none)
    (hrun : run = failedRun current job runningRun runId startedAt finishedAt error) :
  (∃ e, finalizeAttempt db.jobs db.runs run .failed run.error none w = .error e)
    ↔ acceptsFailure db job current runningRun = false
  := by
  rw [finalizeAttempt_failedRun_error hid hrun, acceptsFailure]
  cases hrow : db.jobs.find? current.id with
  | none => simp
  | some row =>
      cases runningRun with
      | none => simp
      | some running =>
          cases hexisting : db.runs.find? running.id with
          | none => simp [hexisting]
          | some existing =>
              simp [hexisting]
              tauto

section

variable {env : Environment} {config : SchedulerConfig} {w : WorkerId} {db db' : Db}
  {phase phase' : Phase} {events : List Event} {action : SchedulerAction}

/-- Listing raises exactly when a due schedule does not load. -/
theorem beginPass_raises (w : WorkerId) (db : Db) (now : Instant) :
  (∃ error, (beginPass w db now).1 = .idle (some error)) ↔ dueRowsLoad db.schedules now = false
  := by
  rw [← Bool.not_eq_true, ← listDueSchedules_ok, beginPass]
  cases listDueSchedules db.schedules now <;> simp

/-- A step raises exactly when it does not meet its condition. -/
theorem raises_iff (h : schedulerStep env config w db phase action = some (db', phase', events)) :
  (∃ error, phase' = .idle (some error)) ↔ proceeds env config db phase action = false
  := by
  have hstep := workerStep_of_schedulerStep h
  cases phase with
  | idle exception =>
      cases action <;>
        simp only [schedulerStep, reduceCtorEq, Option.some.injEq, Prod.mk.injEq] at h
      have hphase : (beginPass w db _).1 = phase' := congrArg Prod.fst h.2
      rw [← hphase]
      apply beginPass_raises
  | due now schedules =>
      cases hstep
      case materialize hkind hjob hsave => simp [proceeds, hkind]
      case rejected hkind hjob => simp [proceeds, hkind]
      case unregistered hkind => simp [proceeds, hkind]
      case claim => simp [proceeds]
  | saved now schedule schedules =>
      cases hstep
      case advance hnext => simp [proceeds, hnext]
      case advanceRaised hnext => simp [proceeds, hnext]
  | check now claimed runnable =>
      cases hstep
      case badPolicy hpolicy => simp [proceeds, not_hasPolicy_iff.mpr ⟨_, hpolicy⟩]
      case overProject hpolicy _ _ => simp [proceeds, hasPolicy_iff.mpr ⟨_, hpolicy⟩]
      case withinProject hpolicy _ _ => simp [proceeds, hasPolicy_iff.mpr ⟨_, hpolicy⟩]
      case returnJob hpolicy _ _ => simp [proceeds, hasPolicy_iff.mpr ⟨_, hpolicy⟩]
      case enterLeases hlease =>
        simp only [proceeds, Bool.or_eq_false_iff, decide_eq_false_iff_not]
        apply iff_of_false
        · rintro ⟨error, ⟨⟩⟩
        · rintro ⟨hrunnable, hnot⟩
          apply hnot (hlease hrunnable)
      case noLease hrunnable hlease => simp [proceeds, hrunnable, hlease]
  | checkKind => cases hstep <;> simp [proceeds]
  | defer =>
      cases hstep
      simp [proceeds]
  | attempt now jobs => cases hstep <;> simp [proceeds]
  | marked => cases hstep <;> simp [proceeds]
  | started => cases hstep <;> simp [proceeds]
  | finalized => cases hstep <;> simp [proceeds]
  | recover now job error jobs =>
      cases hstep
      case recover hrow => simp [proceeds, hrow]
      case disappeared hrow => simp [proceeds, hrow]
  | inspect now job error current jobs =>
      cases hstep
      case settled hruns => simp [proceeds, hruns]
      case unfinished hruns => simp [proceeds, hruns]
      case failed hruns hpolicy => simp [proceeds, hruns, hasPolicy_iff.mpr ⟨_, hpolicy⟩]
      case failedPolicy hruns hpolicy =>
        simp [proceeds, hruns, not_hasPolicy_iff.mpr ⟨_, hpolicy⟩]
  | reconcile =>
      cases hstep
      simp [proceeds]
  | fail now job error current runningRun jobs =>
      cases hstep
      case fail hid hfinalize hrun =>
        rw [proceeds, ← acceptsFailure_iff (w := w) hid hrun, hfinalize]
        simp
      case failRaised hid hfinalize hrun =>
        rw [proceeds, ← acceptsFailure_iff (w := w) hid hrun, hfinalize]
        simp

/-! ### The account of a pass -/

/-- The scheduler whose pass an event belongs to. -/
def Event.worker : Event → Option WorkerId
  | .listed w _ | .materialized w _ | .rejected w _ | .advanced w _ => some w
  | .claimed w _ | .returned w _ | .deferred w _ | .attempted w _ => some w
  | .finalized _ _ | .patchRead _ _ | .patched _ _ => none

/-- The event begins a pass of the scheduler. -/
def Event.begins (w : WorkerId) : Event → Bool
  | .listed v _ => decide (v = w)
  | _ => false

/-- The events since the last pass of a scheduler has begun, newest first. -/
def lastPass (w : WorkerId) : List Event → List Event
  | [] => []
  | event :: log => if event.begins w then [event] else event :: lastPass w log

/-- The due schedules that the pass has not come to yet. -/
def Phase.dueLeft : Phase → List ScheduleRecord
  | .due _ schedules | .saved _ _ schedules => schedules
  | _ => []

/-- The job is leased to the scheduler and not marked running. -/
def JobRecord.leasedTo (w : WorkerId) (row : JobRecord) : Prop :=
  row.status = .leased ∧ row.leaseOwner = some w

/-- In the events of a pass, the schedule has got its job, or the policies of the scheduler
have rejected that job. -/
def Handled (config : SchedulerConfig) (w : WorkerId) (events : List Event)
    (schedule : ScheduleRecord) : Prop :=
  .materialized w schedule ∈ events
    ∨ (.rejected w schedule ∈ events
      ∧ ∃ jobId now error, materializedJob config schedule jobId now = .error error)

/-- In the events of a pass, the job was attempted or put back into the queue. -/
def Attempted (w : WorkerId) (events : List Event) (jobId : Id) : Prop :=
  .attempted w jobId ∈ events ∨ .deferred w jobId ∈ events

theorem Handled.mono {schedule : ScheduleRecord} {events' : List Event}
    (h : Handled config w events schedule) (hsub : events ⊆ events') :
  Handled config w events' schedule
  := h.imp (fun hm => hsub hm) (And.imp_left (fun hr => hsub hr))

theorem Attempted.mono {jobId : Id} {events' : List Event} (h : Attempted w events jobId)
    (hsub : events ⊆ events') :
  Attempted w events' jobId
  := h.imp (fun hm => hsub hm) (fun hm => hsub hm)

/-- Events that do not begin a pass are added to the last pass. -/
theorem lastPass_append {new : List Event} (h : ∀ event ∈ new, event.begins w = false)
    (log : List Event) :
  lastPass w (new ++ log) = new ++ lastPass w log
  := by
  induction new with
  | nil => rfl
  | cons event new ih =>
      have hevent := h event List.mem_cons_self
      have hrest := ih (fun e he => h e (List.mem_cons_of_mem event he))
      simp [lastPass, hevent, hrest]

/-- An event of another scheduler, or of none, does not begin a pass. -/
theorem not_begins {event : Event} (h : event.worker ≠ some w) : event.begins w = false
  := by
  cases event with
  | listed v due =>
      apply decide_eq_false
      rintro rfl
      apply h rfl
  | _ => rfl

/-- The event of a finalization is of no pass. -/
theorem worker_finalizationEvents {run : RunRecord} {outcome : AttemptOutcome} {event : Event}
    (h : event ∈ finalizationEvents run outcome) :
  event.worker = none
  := by
  cases outcome with
  | finalized =>
      obtain rfl := List.mem_singleton.mp h
      rfl
  | cancelled => cases h
  | stale => cases h

/-- The event of a patch request is of no pass. -/
theorem worker_of_ofPatch {event : Event} (h : event.ofPatch = true) : event.worker = none
  := by
  cases event <;> first | rfl | cases h

/-- The events of a step are of the pass of its scheduler, or of no pass. -/
theorem WorkerStep.worker_events (h : WorkerStep env config w db phase db' phase' events)
    {event : Event} (hevent : event ∈ events) :
  event.worker = some w ∨ event.worker = none
  := by
  cases h
  case reject => exact .inr (worker_finalizationEvents hevent)
  case fail => exact .inr (worker_finalizationEvents hevent)
  all_goals
    simp only [List.mem_singleton, List.not_mem_nil] at hevent
    try simp [hevent, Event.worker]

/-- A step that does not raise handles a due schedule, or leaves it to be handled. -/
theorem WorkerStep.dueLeft (h : WorkerStep env config w db phase db' phase' events)
    (hcalm : ∀ error, phase' ≠ .idle (some error)) {schedule : ScheduleRecord}
    (hschedule : schedule ∈ phase.dueLeft) :
  schedule ∈ phase'.dueLeft ∨ Handled config w events schedule
  := by
  cases h
  case materialize hkind hjob hsave =>
    rcases List.mem_cons.mp hschedule with rfl | hschedule
    · right
      left
      apply List.mem_singleton_self
    · left
      apply hschedule
  case rejected hkind hjob =>
    rcases List.mem_cons.mp hschedule with rfl | hschedule
    · right
      right
      use List.mem_singleton_self _
      exact ⟨_, _, _, hjob⟩
    · left
      apply hschedule
  case unregistered error _ => cases hcalm error rfl
  case advanceRaised error _ => cases hcalm error rfl
  case claim => cases hschedule
  case advance => exact .inl hschedule
  -- in the other phases no schedule is left
  all_goals cases hschedule

/-- A step that does not raise attempts a claimed job or puts it back, and then it is not
leased to the scheduler; or leaves it pending. -/
theorem WorkerStep.pendingLeft (h : WorkerStep env config w db phase db' phase' events)
    (hcalm : ∀ error, phase' ≠ .idle (some error)) {job : JobRecord}
    (hjob : job ∈ phase.pending) :
  job ∈ phase'.pending ∨ (Attempted w events job.id
    ∧ ∀ row, db'.jobs.find? job.id = some row → ¬ row.leasedTo w)
  := by
  cases h
  case mark first jobs jobsTable hmark =>
    rcases List.mem_cons.mp hjob with rfl | hjob
    · right
      constructor
      · left
        apply List.mem_singleton_self
      · rintro row' hrow' ⟨hleased, howner⟩
        obtain rfl := congrArg Prod.snd hmark
        obtain ⟨row, hrow, hbefore, howner'⟩ := tryMarkJobRunning_fst.mp (congrArg Prod.fst hmark)
        dsimp only at hrow'
        rw [find?_tryMarkJobRunning, hrow, Option.map_some,
          if_pos ⟨Table.key_of_find? hrow, hbefore, howner'⟩] at hrow'
        obtain rfl := Option.some.inj hrow'
        cases hleased
    · left
      apply hjob
  case superseded first jobs jobsTable hmark =>
    rcases List.mem_cons.mp hjob with rfl | hjob
    · right
      constructor
      · left
        apply List.mem_singleton_self
      · rintro row' hrow' ⟨hleased, howner⟩
        dsimp only at hrow'
        rw [find?_of_not_marked hmark] at hrow'
        have hmarked : (tryMarkJobRunning db.jobs job.id job.nextAttempt w).1 = true :=
          tryMarkJobRunning_fst.mpr ⟨row', hrow', hleased, howner⟩
        rw [hmark] at hmarked
        cases hmarked
    · left
      apply hjob
  case defer now first message claimed runnable =>
    simp only [Phase.pending, List.mem_append, List.mem_cons] at hjob ⊢
    rcases hjob with hjob | rfl | hjob
    · exact .inl (.inl hjob)
    · right
      constructor
      · right
        apply List.mem_singleton_self
      · rintro row' hrow' ⟨hleased, -⟩
        rw [find?_finishJob] at hrow'
        obtain ⟨row, hrow, rfl⟩ := Option.map_eq_some_iff.mp hrow'
        rw [if_pos (Table.key_of_find? hrow)] at hleased
        cases hleased
    · exact .inl (.inr hjob)
  case badPolicy error _ => cases hcalm error rfl
  case noLease error _ _ => cases hcalm error rfl
  case disappeared error _ _ => cases hcalm _ rfl
  case failedPolicy => cases hcalm _ rfl
  case failRaised => cases hcalm _ rfl
  all_goals
    left
    simp only [Phase.pending, List.mem_append, List.mem_cons, List.not_mem_nil] at hjob ⊢
    try tauto

/-- A claim leaves its jobs pending. -/
theorem WorkerStep.claimed_pending (h : WorkerStep env config w db phase db' phase' events)
    {claimed : List JobRecord} (hclaimed : .claimed w claimed ∈ events) :
  phase'.pending = claimed
  := by
  cases h
  case claim =>
    cases List.mem_singleton.mp hclaimed
    rfl
  case reject => cases worker_finalizationEvents hclaimed
  case fail => cases worker_finalizationEvents hclaimed
  all_goals simp at hclaimed

/-- A step that lists schedules leaves them all to be handled, and comes after a pass. -/
theorem WorkerStep.listed_dueLeft (h : WorkerStep env config w db phase db' phase' events)
    {event : Event} (hevent : event ∈ events) (hbegins : event.begins w = true) :
  ∃ exception now due, phase = .idle exception ∧ phase' = .due now due
    ∧ events = [.listed w due] ∧ db' = db
  := by
  cases h
  case begin => exact ⟨_, _, _, rfl, rfl, rfl, rfl⟩
  case reject =>
    rw [not_begins (by rw [worker_finalizationEvents hevent]; nofun)] at hbegins
    cases hbegins
  case fail =>
    rw [not_begins (by rw [worker_finalizationEvents hevent]; nofun)] at hbegins
    cases hbegins
  all_goals
    simp only [List.mem_singleton, List.not_mem_nil] at hevent
    try subst hevent
    try cases hbegins

end

/-- The account of a pass that is under way. Every schedule it has listed is handled or left,
every job it has claimed is attempted or pending, and the jobs leased to its scheduler are
pending. -/
structure Accounted (config : SchedulerConfig) (w : WorkerId) (σ : System) : Prop where
  calm : ∀ error, σ.phase w ≠ .idle (some error)
  due : ∀ due schedule, .listed w due ∈ lastPass w σ.log → schedule ∈ due →
    schedule ∈ (σ.phase w).dueLeft ∨ Handled config w (lastPass w σ.log) schedule
  claimed : ∀ claimed job, .claimed w claimed ∈ lastPass w σ.log → job ∈ claimed →
    job ∈ (σ.phase w).pending ∨ Attempted w (lastPass w σ.log) job.id
  leased : ∀ j row, σ.db.jobs.find? j = some row → row.leasedTo w →
    ∃ job ∈ (σ.phase w).pending, job.id = j

section

variable {env : Environment} {config : WorkerId → SchedulerConfig} {σ τ : System} {a : Action}

/-- Before the first step nothing is to be accounted for. -/
theorem accounted_init (config : SchedulerConfig) (w : WorkerId) :
  Accounted config w System.init
  := by
  constructor
  case calm =>
    intro error herror
    cases herror
  case due =>
    intro due schedule hlisted
    cases hlisted
  case claimed =>
    intro claimed job hclaimed
    cases hclaimed
  case leased =>
    intro j row hrow
    cases hrow

/-- A row is leased to a scheduler after a step only when it was before, or the scheduler
claims. -/
theorem JobStep.leasedTo {j : Id} {w : WorkerId} {row : Option JobRecord} {row' : JobRecord}
    (h : JobStep σ a j row (some row')) (hleased : row'.leasedTo w) :
  (∃ r, row = some r ∧ r.leasedTo w) ∨ (a.worker = some w ∧ ∃ now, σ.phase w = .due now [])
  := by
  obtain ⟨hstatus, howner⟩ := hleased
  cases h with
  | keep => exact .inl ⟨_, rfl, hstatus, howner⟩
  | insert hid hsubmitted =>
      simp [JobRecord.submitted, hstatus] at hsubmitted
  | claim hworker hphase =>
      obtain rfl := Option.some.inj howner
      exact .inr ⟨hworker, _, hphase⟩
  | renew => exact .inl ⟨_, rfl, hstatus, howner⟩
  | cancel => cases hstatus
  | mark => cases hstatus
  | finalize => cases howner
  | defer => cases howner
  | reconcile => cases howner

/-- What a step adds to the log belongs to the scheduler that takes it, or to none. -/
theorem log_of_step (h : step env config σ a = some τ) {w : WorkerId}
    (hother : a.worker ≠ some w) :
  ∃ events, τ.log = events ++ σ.log ∧ ∀ event ∈ events, event.worker ≠ some w
  := by
  cases a with
  | submit job =>
      simp only [step] at h
      split_ifs at h
      obtain ⟨jobs, -, rfl⟩ := Option.map_eq_some_iff.mp h
      exact ⟨[], rfl, by simp⟩
  | cancel jobId =>
      cases h
      exact ⟨[], rfl, by simp⟩
  | renew v jobId leaseUntil =>
      cases h
      exact ⟨[], rfl, by simp⟩
  | cleanup projectId =>
      cases h
      exact ⟨[], rfl, by simp⟩
  | create kinds request projectId scheduleId createdAt =>
      simp only [step] at h
      split at h
      · cases h
      · cases h
        exact ⟨[], rfl, by simp⟩
  | readPatch requestId scheduleId request =>
      obtain ⟨-, -, events, hlog, hpatch⟩ := readPatch_frame h
      use events, hlog
      intro event hevent hworker
      rw [worker_of_ofPatch (hpatch event hevent)] at hworker
      cases hworker
  | writePatch requestId now =>
      obtain ⟨-, -, -, events, hlog, hpatch⟩ := writePatch_frame h
      use events, hlog
      intro event hevent hworker
      rw [worker_of_ofPatch (hpatch event hevent)] at hworker
      cases hworker
  | scheduler v action =>
      obtain ⟨db, phase, events, hstep, rfl⟩ := workerStep_of_step h
      use events, rfl
      intro event hevent hworker
      rcases hstep.worker_events hevent with hv | hnone
      · rw [hv] at hworker
        apply hother hworker
      · rw [hnone] at hworker
        cases hworker

/-- A step of another party keeps the account of a pass. -/
theorem Accounted.of_other {w : WorkerId} (hσ : Accounted (config w) w σ)
    (h : step env config σ a = some τ) (hother : a.worker ≠ some w)
    (hphase : τ.phase w = σ.phase w) :
  Accounted (config w) w τ
  := by
  obtain ⟨events, hlog, hevents⟩ := log_of_step h hother
  have hlast : lastPass w τ.log = events ++ lastPass w σ.log := by
    rw [hlog, lastPass_append]
    intro event hevent
    apply not_begins (hevents event hevent)
  have hsub : lastPass w σ.log ⊆ lastPass w τ.log := by
    rw [hlast]
    apply List.subset_append_right
  have hold : ∀ event, event.worker = some w → event ∈ lastPass w τ.log →
      event ∈ lastPass w σ.log := by
    intro event hworker hmem
    rw [hlast] at hmem
    rcases List.mem_append.mp hmem with hnew | hmem
    · cases hevents event hnew hworker
    · apply hmem
  constructor
  case calm =>
    rw [hphase]
    apply hσ.calm
  case due =>
    intro due schedule hlisted hschedule
    rw [hphase]
    apply (hσ.due due schedule (hold _ rfl hlisted) hschedule).imp_right
    intro hhandled
    apply hhandled.mono hsub
  case claimed =>
    intro claimed job hclaimed hjob
    rw [hphase]
    apply (hσ.claimed claimed job (hold _ rfl hclaimed) hjob).imp_right
    intro hattempted
    apply hattempted.mono hsub
  case leased =>
    intro j row hrow hleased
    rw [hphase]
    have hstep := jobStep_of_step h j
    rw [hrow] at hstep
    rcases hstep.leasedTo hleased with ⟨r, hr, hleased⟩ | ⟨hworker, -⟩
    · apply hσ.leased j r hr hleased
    · cases hother hworker

/-- The jobs leased to a scheduler are pending after its step. -/
theorem Accounted.leased_of_workerStep {w : WorkerId} {db : Db} {phase : Phase}
    {events : List Event} (hσ : Accounted (config w) w σ)
    (h : WorkerStep env (config w) w σ.db (σ.phase w) db phase events)
    (hcalm : ∀ error, phase ≠ .idle (some error)) {j : Id} {row : JobRecord}
    (hrow : db.jobs.find? j = some row) (hleased : row.leasedTo w) :
  ∃ job ∈ phase.pending, job.id = j
  := by
  have hjob := h.jobStep (a := .scheduler w .tick) rfl j
  rw [hrow] at hjob
  have hstay : (∃ r, σ.db.jobs.find? j = some r ∧ r.leasedTo w) →
      ∃ job ∈ phase.pending, job.id = j := by
    rintro ⟨r, hr, hbefore⟩
    obtain ⟨job, hpending, rfl⟩ := hσ.leased j r hr hbefore
    rcases h.pendingLeft hcalm hpending with hpending' | ⟨-, hnot⟩
    · use job
    · cases hnot row hrow hleased
  rcases hjob.leasedTo hleased with hbefore | ⟨-, now, hphase⟩
  · apply hstay hbefore
  · rw [hphase] at h
    cases h
    case claim claimed jobs hclaim =>
      have hfind := find?_claimDueJobs σ.db.jobs w now (now + seconds (config w).leaseSeconds)
        (config w).claimLimit j
      have hfst := claimDueJobs_fst σ.db.jobs w now (now + seconds (config w).leaseSeconds)
        (config w).claimLimit
      rw [hclaim] at hfind hfst
      dsimp only at hfind hfst hrow
      rw [hrow] at hfind
      obtain ⟨r, hr, hrow'⟩ := Option.map_eq_some_iff.mp hfind.symm
      by_cases hselected : r ∈ claimSelection σ.db.jobs now (config w).claimLimit
      · use r.lease w (now + seconds (config w).leaseSeconds)
        constructor
        · rw [Phase.pending, List.nil_append, hfst]
          apply List.mem_map_of_mem hselected
        · apply Table.key_of_find? hr
      · rw [if_neg hselected] at hrow'
        subst hrow'
        apply hstay ⟨r, hr, hleased⟩

/-- A step of a scheduler that does not raise keeps the account of its pass. -/
theorem Accounted.of_workerStep {w : WorkerId} {db : Db} {phase : Phase} {events : List Event}
    (hσ : Accounted (config w) w σ)
    (h : WorkerStep env (config w) w σ.db (σ.phase w) db phase events)
    (hcalm : ∀ error, phase ≠ .idle (some error)) :
  Accounted (config w) w (σ.after w db phase events)
  := by
  have hleased : ∀ j row, db.jobs.find? j = some row → row.leasedTo w →
      ∃ job ∈ phase.pending, job.id = j := by
    intro j row hrow hrowLeased
    apply hσ.leased_of_workerStep h hcalm hrow hrowLeased
  by_cases hbegins : ∃ event ∈ events, event.begins w = true
  · -- a new pass, with nothing but what it has listed
    obtain ⟨event, hevent, hbegins⟩ := hbegins
    obtain ⟨exception, now, listed, -, rfl, rfl, -⟩ := h.listed_dueLeft hevent hbegins
    have hlast : lastPass w (σ.after w db (.due now listed) [.listed w listed]).log
        = [.listed w listed] := by
      simp [lastPass, Event.begins]
    constructor
    case calm =>
      rw [System.after_phase_self]
      apply hcalm
    case due =>
      intro due schedule hlisted hschedule
      rw [hlast] at hlisted
      cases List.mem_singleton.mp hlisted
      left
      rw [System.after_phase_self]
      apply hschedule
    case claimed =>
      intro claimed job hclaimed
      rw [hlast] at hclaimed
      cases List.mem_singleton.mp hclaimed
    case leased =>
      rw [System.after_phase_self]
      apply hleased
  · simp only [not_exists, not_and] at hbegins
    have hlast : lastPass w (σ.after w db phase events).log = events ++ lastPass w σ.log := by
      rw [System.after_log, lastPass_append]
      intro event hevent
      rw [← Bool.not_eq_true]
      apply hbegins event hevent
    have hsub : lastPass w σ.log ⊆ events ++ lastPass w σ.log := List.subset_append_right _ _
    constructor
    case calm =>
      rw [System.after_phase_self]
      apply hcalm
    case due =>
      intro due schedule hlisted hschedule
      rw [hlast] at hlisted ⊢
      rw [System.after_phase_self]
      rcases List.mem_append.mp hlisted with hnew | hlisted
      · cases hbegins _ hnew (decide_eq_true rfl)
      · rcases hσ.due due schedule hlisted hschedule with hleft | hhandled
        · apply (h.dueLeft hcalm hleft).imp_right
          intro hhandled
          apply hhandled.mono (List.subset_append_left _ _)
        · right
          apply hhandled.mono hsub
    case claimed =>
      intro claimed job hclaimed hjob
      rw [hlast] at hclaimed ⊢
      rw [System.after_phase_self]
      rcases List.mem_append.mp hclaimed with hnew | hclaimed
      · left
        rw [h.claimed_pending hnew]
        apply hjob
      · rcases hσ.claimed claimed job hclaimed hjob with hpending | hattempted
        · apply (h.pendingLeft hcalm hpending).imp_right
          intro hleft
          apply hleft.1.mono (List.subset_append_left _ _)
        · right
          apply hattempted.mono hsub
    case leased =>
      rw [System.after_phase_self]
      apply hleased

/-- A step keeps the account of every pass, unless it raises. -/
theorem Accounted.step {w : WorkerId} (hσ : Accounted (config w) w σ)
    (h : step env config σ a = some τ) (hcalm : ∀ error, τ.phase w ≠ .idle (some error)) :
  Accounted (config w) w τ
  := by
  rcases phaseStep_of_step h w with ⟨hother, hsame⟩ | ⟨-, db, phase, events, hstep, rfl⟩
  · apply hσ.of_other h hother hsame
  · rw [System.after_phase_self] at hcalm
    apply hσ.of_workerStep hstep hcalm

end

/-- A pass that is over has come to everything. Every schedule that it listed is handled,
every job that it claimed was attempted or put back, and no job is leased to its scheduler. -/
structure Complete (config : SchedulerConfig) (w : WorkerId) (σ : System) : Prop where
  due : ∀ due schedule, .listed w due ∈ lastPass w σ.log → schedule ∈ due →
    Handled config w (lastPass w σ.log) schedule
  claimed : ∀ claimed job, .claimed w claimed ∈ lastPass w σ.log → job ∈ claimed →
    Attempted w (lastPass w σ.log) job.id
  leased : ∀ j row, σ.db.jobs.find? j = some row → ¬ row.leasedTo w

/-- The account of a pass that is over is complete. -/
theorem Accounted.complete {config : SchedulerConfig} {w : WorkerId} {σ : System}
    (h : Accounted config w σ) (hphase : σ.phase w = .idle none) :
  Complete config w σ
  := by
  obtain ⟨-, hdue, hclaimed, hleased⟩ := h
  rw [hphase] at hdue hclaimed hleased
  constructor
  · intro due schedule hlisted hschedule
    rcases hdue due schedule hlisted hschedule with hleft | hhandled
    · cases hleft
    · apply hhandled
  · intro claimed job hjobs hjob
    rcases hclaimed claimed job hjobs hjob with hpending | hattempted
    · cases hpending
    · apply hattempted
  · intro j row hrow hrowLeased
    obtain ⟨job, hjob, -⟩ := hleased j row hrow hrowLeased
    cases hjob

/-- No pass ends with an exception, and every pass that is over is complete. -/
def PassesSurvive (config : WorkerId → SchedulerConfig) (σ : System) : Prop :=
  ∀ w, (∀ error, σ.phase w ≠ .idle (some error))
    ∧ (σ.phase w = .idle none → Complete (config w) w σ)

/-- The step of a scheduler meets its condition. -/
def goesOn (env : Environment) (config : WorkerId → SchedulerConfig) (σ : System) (a : Action) :
    Bool :=
  match a with
  | .scheduler w action => proceeds env (config w) σ.db (σ.phase w) action
  | _ => true

section

variable {env : Environment} {config : WorkerId → SchedulerConfig} {σ τ : System} {a : Action}

/-- A scheduler that has not raised before a step has raised after it exactly when the step
is its own and does not meet its condition. -/
theorem raised_of_step (h : step env config σ a = some τ)
    (hσ : ∀ w error, σ.phase w ≠ .idle (some error)) :
  (∃ w error, τ.phase w = .idle (some error)) ↔ goesOn env config σ a = false
  := by
  cases a with
  | scheduler v action =>
      simp only [step, Option.map_eq_some_iff] at h
      obtain ⟨⟨db, phase, events⟩, hstep, rfl⟩ := h
      rw [goesOn, ← raises_iff hstep]
      constructor
      · rintro ⟨w, error, hphase⟩
        by_cases hw : w = v
        · subst hw
          rw [System.after_phase_self] at hphase
          exact ⟨error, hphase⟩
        · rw [System.after_phase_of_ne σ hw] at hphase
          cases hσ w error hphase
      · rintro ⟨error, rfl⟩
        use v, error
        rw [System.after_phase_self]
  | _ =>
      apply iff_of_false
      · rintro ⟨w, error, hphase⟩
        rcases phaseStep_of_step h w with ⟨-, hsame⟩ | ⟨hworker, -⟩
        · rw [hsame] at hphase
          apply hσ w error hphase
        · cases hworker
      · simp [goesOn]

/-- A step that meets its condition keeps the accounts of all passes. -/
theorem accounted_of_goesOn (hσ : ∀ w, Accounted (config w) w σ)
    (hgoes : goesOn env config σ a = true) (h : step env config σ a = some τ) :
  ∀ w, Accounted (config w) w τ
  := by
  intro w
  apply (hσ w).step h
  intro error hphase
  have hraised := (raised_of_step h (fun w => (hσ w).calm)).mp ⟨w, error, hphase⟩
  rw [hgoes] at hraised
  cases hraised

/-- Along a run of any schedulers and requests no pass ends with an exception, and every
pass that is over is complete, exactly when every step meets its condition. -/
theorem passes_survive (env : Environment) (config : WorkerId → SchedulerConfig)
    (as : List Action) :
  Transition.Along (step env config) (fun _ _ τ => PassesSurvive config τ) System.init as
    ↔ Transition.Along (step env config) (fun σ a _ => goesOn env config σ a = true)
      System.init as
  := by
  constructor
  · apply Transition.along_of_invariant (I := fun σ => ∀ w error, σ.phase w ≠ .idle (some error))
    · intro σ a τ hσ hsurvive h
      constructor
      · intro w
        apply (hsurvive w).1
      · rw [← Bool.not_eq_false, ← raised_of_step h hσ]
        rintro ⟨w, error, hphase⟩
        apply (hsurvive w).1 error hphase
    · nofun
  · apply Transition.along_of_invariant (I := fun σ => ∀ w, Accounted (config w) w σ)
    · intro σ a τ hσ hgoes h
      have hτ := accounted_of_goesOn hσ hgoes h
      use hτ
      intro w
      use (hτ w).calm
      apply (hτ w).complete
    · intro w
      apply accounted_init

end

/-- Two jobs are claimed, and the metadata of the first has a number under
`resource_policy`. -/
def claimedBadPolicy : List Action :=
  [.submit { id := "a", kind := "report", createdAt := 0, resourcePolicy := some "5" },
    .submit { id := "b", kind := "report", createdAt := 1 },
    .scheduler "s1" (.begin 10), .scheduler "s1" .tick, .scheduler "s1" .tick]

/-- A pass is ended by the policy of one job. -/
theorem pass_ended_by_bad_policy :
  ¬ ∀ as, Transition.Along (step Environment.sample sampleConfig)
    (fun _ _ τ => PassesSurvive sampleConfig τ) System.init as
  := by
  intro h
  have hphase : (sampleRun claimedBadPolicy).map (fun σ => σ.phase "s1") = some (.idle (some
      "invalid persisted resource policy: validation error for ResourcePolicy")) := by
    decide +kernel
  obtain ⟨σ, hrun, hσ⟩ := Option.map_eq_some_iff.mp hphase
  have hlast := h (claimedBadPolicy.dropLast ++ [.scheduler "s1" .tick])
  obtain ⟨_, -, -, hsurvive⟩ := Transition.along_last hlast hrun
  apply (hsurvive "s1").1 _ hσ

end GoblinKing
