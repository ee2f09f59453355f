import GoblinKing.Library.Renewal
import GoblinKing.Scheduler.Fencing
import GoblinKing.Scheduler.RetryBudget

/-!
# The threads that renew leases

While a scheduler works through the jobs that it has claimed, a thread for each of them renews its lease:
it reads the clock, extends the lease from there, and waits. A renewal that raises is tried again after
the wait; one that finds the job in other hands ends the thread.

The system runs in time. Everything else that happens in it is a transaction as before; a scheduler that
begins a pass reads a clock of its own.
-/

namespace GoblinKing

/-! ### Threads -/

/-- `_renew_interval`, in microseconds -/
def renewInterval (leaseSeconds : ℤ) : ℚ :=
  min (max ((leaseSeconds : ℚ) / 3) (1 / 10)) 30 * 1000000

/-- Where `_renew_loop` stands. -/
inductive LeaseThread where
  /-- at the head of the loop, since a renewal is due -/
  | ready (due : ℚ)
  /-- the clock is read, and the job is to be renewed -/
  | renewing (due : ℚ) (clock : Instant)
  /-- `self._stop.wait` until a renewal is due -/
  | waiting (due : ℚ)
  | stopped
  deriving DecidableEq

/-- When the next renewal is due. -/
def LeaseThread.due : LeaseThread → Option ℚ
  | .ready due | .renewing due _ | .waiting due => some due
  | .stopped => none

/-- The system in time, with the thread of one scheduler for one job. -/
structure TimedSystem where
  system : System
  time : Instant
  thread : LeaseThread
  /-- how many renewals of the thread have raised since one went through -/
  failures : ℕ

/-- What can happen in time. -/
inductive TimedAction where
  | elapse (time : Instant)
  | transaction (action : Action)
  /-- the thread reads the clock -/
  | readClock
  /-- the renewal of the thread is committed -/
  | renew
  /-- the renewal of the thread raises -/
  | renewRaises
  /-- the wait of the thread is over -/
  | wake
  /-- the scheduler has left the scope of the lease -/
  | exit

section

variable (env : Environment) (config : WorkerId → SchedulerConfig) (w : WorkerId) (j : Id)

/-- The renewal of the thread is committed; it ends the thread when the job is in other hands. -/
def TimedSystem.renewLease (s : TimedSystem) (clock : Instant) : TimedSystem :=
  let (renewed, jobs) :=
    tryRenewJobLease s.system.db.jobs j w (clock + seconds (config w).leaseSeconds)
  { system := { s.system with db := { s.system.db with jobs := jobs } }
    time := s.time
    thread := if renewed then .waiting (s.time + renewInterval (config w).leaseSeconds) else .stopped
    failures := 0 }

/-- One step in time; `none` when the action is not possible. A renewal that is under way when the scope
is left may still be committed, as a transaction. -/
def timedStep (s : TimedSystem) : TimedAction → Option TimedSystem
  | .elapse time => if s.time ≤ time then some { s with time := time } else none
  | .transaction action =>
      (step env config s.system action).map (fun system => { s with system := system })
  | .readClock =>
      match s.thread with
      | .ready due => some { s with thread := .renewing due s.time }
      | _ => none
  | .renew =>
      match s.thread with
      | .renewing _ clock => some (s.renewLease config w j clock)
      | _ => none
  | .renewRaises =>
      match s.thread with
      | .renewing _ _ =>
          some { s with
            thread := .waiting (s.time + renewInterval (config w).leaseSeconds)
            failures := s.failures + 1 }
      | _ => none
  | .wake =>
      match s.thread with
      | .waiting due => if due ≤ s.time then some { s with thread := .ready due } else none
      | _ => none
  | .exit =>
      match s.system.phase w with
      | .idle _ => some { s with thread := .stopped }
      | _ => none

end

/-! ### Jobs at work -/

/-- The job whose attempt has begun and not ended. -/
def Phase.working : Phase → Option JobRecord
  | .marked _ job _ _ | .started _ job _ _ _ => some job
  | _ => none

/-- A scheduler carries a job: its attempt is still to be begun, or under way. -/
def Phase.Carries (phase : Phase) (j : Id) : Prop :=
  ∃ job ∈ phase.working.toList ++ phase.pending, job.id = j

instance (phase : Phase) (j : Id) : Decidable (phase.Carries j) :=
  inferInstanceAs (Decidable (∃ job ∈ phase.working.toList ++ phase.pending, job.id = j))

/-- The clock with which a pass is going to claim jobs. -/
def Phase.claimClock : Phase → Option Instant
  | .due now _ | .saved now _ _ => some now
  | _ => none

/-- The job that the next transaction of a pass is about. -/
def Phase.subject : Phase → Option JobRecord
  | .defer _ job _ _ _ => some job
  | .attempt _ (job :: _) => some job
  | phase => phase.current

/-- The row of a job is as the scheduler that carries it knows it. -/
structure Phase.KnowsRow (phase : Phase) (j : Id) (row : JobRecord) : Prop where
  pending : ∀ job ∈ phase.pending, job.id = j → row.status = .leased
  working : ∀ job, phase.working = some job → job.id = j →
    row.status = .running ∧ row.attemptCount = job.nextAttempt

/-- The row of a job is leased to a scheduler, or running there, until an instant. -/
structure JobRecord.HeldBy (row : JobRecord) (w : WorkerId) (leasedUntil : Instant) : Prop where
  active : row.status.isActive = true
  owner : row.leaseOwner = some w
  leasedUntil : row.leasedUntil = some leasedUntil

section

variable {env : Environment} {config : SchedulerConfig} {v w : WorkerId} {j : Id} {db db' : Db}
  {phase phase' : Phase} {events : List Event} {row : JobRecord} {leasedUntil : Instant}

/-- A claim takes no job whose lease has not run out. -/
theorem JobRecord.HeldBy.notMem_selection (h : row.HeldBy w leasedUntil) {jobs : Jobs}
    {now : Instant} (hnow : now < leasedUntil) (limit : ℕ) :
  row ∉ claimSelection jobs now limit
  := notMem_claimSelection h.active h.leasedUntil hnow

/-- A renewal extends the lease. -/
theorem JobRecord.HeldBy.renew (h : row.HeldBy w leasedUntil) (leaseUntil : Instant) :
  (row.renew leaseUntil).HeldBy w (max leasedUntil leaseUntil)
  := by
  refine ⟨h.active, h.owner, ?_⟩
  rw [JobRecord.renew, h.leasedUntil]
  unfold extendedUntil
  dsimp only
  split
  case isTrue hlt => rw [max_eq_right hlt.le]
  case isFalse hle => rw [max_eq_left (not_lt.mp hle)]

/-- A scheduler that holds a job does not hold it a second time. -/
theorem Phase.Sound.ne_of_held (h : phase.Sound) {before after : List JobRecord} {job other : JobRecord}
    (hheld : phase.held = before ++ job :: after) (hother : other ∈ before ++ after) :
  other.id ≠ job.id
  := by
  intro hid
  have hnodup := h.nodup
  rw [hheld, List.map_append, List.map_cons, List.nodup_middle, List.nodup_cons,
    ← List.map_append] at hnodup
  apply hnodup.1
  rw [← hid]
  apply List.mem_map_of_mem hother

/-- A scheduler that has put away a job carries it no longer. -/
theorem Phase.Sound.not_carries (h : phase.Sound) {before after : List JobRecord} {job : JobRecord}
    (hheld : phase.held = before ++ job :: after) (hid : job.id = j) (hworking : phase'.working = none)
    (hpending : phase'.pending = before ++ after) :
  ¬ phase'.Carries j
  := by
  rintro ⟨other, hother, hotherId⟩
  rw [hworking, hpending, Option.toList_none, List.nil_append] at hother
  apply h.ne_of_held hheld hother
  rw [hotherId, hid]

/-- The job whose attempt is under way is held before the others. -/
theorem Phase.held_of_current {job : JobRecord} (h : phase.current = some job) :
  phase.held = [] ++ job :: phase.pending
  := by
  rw [Phase.held, h]
  rfl

/-- What is under way after a step is what the step was about. -/
theorem WorkerStep.current_subject (h : WorkerStep env config v db phase db' phase' events)
    {job : JobRecord} (hcurrent : phase'.current = some job) :
  phase.subject = some job
  := by
  cases h <;> first | exact hcurrent | cases hcurrent

/-- A step gives a scheduler no new jobs, unless it claims them. -/
theorem WorkerStep.pending_subset (h : WorkerStep env config v db phase db' phase' events)
    (hclock : phase.claimClock = none) :
  ∀ job ∈ phase'.pending, job ∈ phase.pending
  := by
  intro job hjob
  cases h <;> first
    | exact hjob
    | (cases hclock; done)
    | (cases hjob; done)
    | exact List.mem_cons_of_mem _ hjob
    | (simp only [Phase.pending, List.mem_append, List.mem_cons, List.not_mem_nil] at hjob ⊢; tauto)

/-- A step of a scheduler leaves the row of a job that it is not about and whose lease has not run out. -/
theorem WorkerStep.find?_of_heldBy (h : WorkerStep env config v db phase db' phase' events)
    (hsound : phase.Sound) (hrow : db.jobs.find? j = some row) (hheld : row.HeldBy w leasedUntil)
    (hclock : ∀ now, phase.claimClock = some now → now < leasedUntil)
    (hsubject : ∀ job, phase.subject = some job → job.id ≠ j) :
  db'.jobs.find? j = some row
  := by
  rw [← hrow]
  cases h
  case materialize hjob hsave =>
    rw [Table.find?_insert? hsave, if_neg]
    rintro rfl
    rw [Table.find?_of_insert? hsave] at hrow
    cases hrow
  case claim hclaim =>
    obtain rfl := congrArg Prod.snd hclaim
    simp only [find?_claimDueJobs, hrow, Option.map_some]
    rw [if_neg (hheld.notMem_selection (hclock _ rfl) _)]
  case defer => apply find?_finishJob_of_ne (hsubject _ rfl)
  case mark hmark => apply find?_tryMarkJobRunning_of_ne hmark (hsubject _ rfl)
  case superseded hmark => apply find?_tryMarkJobRunning_of_ne hmark (hsubject _ rfl)
  case reject hfinalize => apply (find?_of_finalizeAttempt_of_ne hfinalize (hsubject _ rfl)).1
  case finish hrun hfinalize houtcome =>
    apply (find?_of_finalizeAttempt_of_ne hfinalize _).1
    rw [hrun]
    apply hsubject _ rfl
  case finishLost hrun hfinalize houtcome =>
    apply (find?_of_finalizeAttempt_of_ne hfinalize _).1
    rw [hrun]
    apply hsubject _ rfl
  case reconcile =>
    apply find?_finishJob_of_ne
    rw [hsound.inspected _ _ rfl rfl]
    apply hsubject _ rfl
  case fail hrun hfinalize =>
    apply (find?_of_finalizeAttempt_of_ne hfinalize _).1
    rw [hrun]
    intro hid
    apply hsubject _ rfl
    exact (hsound.inspected _ _ rfl rfl).symm.trans hid
  all_goals rfl

/-- The job that a step is about is held. -/
theorem Phase.mem_held_of_subject {job : JobRecord} (h : phase.subject = some job) :
  job ∈ phase.held
  := by
  unfold Phase.subject at h
  split at h
  · cases h
    simp [Phase.held, Phase.pending, Phase.current]
  · cases h
    simp [Phase.held, Phase.pending, Phase.current]
  · rw [Phase.held, h]
    simp

/-- A scheduler does not come to hold a job whose lease has not run out. -/
theorem WorkerStep.held_ne (h : WorkerStep env config v db phase db' phase' events)
    (hrow : db.jobs.find? j = some row) (hheld : row.HeldBy w leasedUntil)
    (hclock : ∀ now, phase.claimClock = some now → now < leasedUntil)
    (hne : ∀ job ∈ phase.held, job.id ≠ j) :
  ∀ job ∈ phase'.held, job.id ≠ j
  := by
  intro job hjob
  rw [Phase.held, List.mem_append, Option.mem_toList] at hjob
  rcases hjob with hjob | hjob
  · apply hne job (Phase.mem_held_of_subject (h.current_subject hjob))
  · cases hnow : phase.claimClock with
    | none =>
        apply hne job
        rw [Phase.held, List.mem_append]
        exact .inr (h.pending_subset hnow job hjob)
    | some now =>
        cases h
        case claim claimed jobs hclaim =>
          obtain rfl := congrArg Prod.fst hclaim
          have hnone := find?_claimed db.jobs v now (now + seconds config.leaseSeconds)
            config.claimLimit j
          obtain rfl := Option.some.inj hnow
          rw [hrow, Option.bind_some, if_neg (hheld.notMem_selection (hclock _ rfl) _),
            List.find?_eq_none] at hnone
          simpa using hnone job (by simpa [Phase.pending] using hjob)
        all_goals first | (cases hnow; done) | cases hjob

/-- The next clock with which jobs are claimed is the one that the scheduler has read, or the one that it
begins its pass with. -/
theorem claimClock_of_schedulerStep {action : SchedulerAction}
    (h : schedulerStep env config v db phase action = some (db', phase', events)) {now : Instant}
    (hnow : phase'.claimClock = some now) :
  phase.claimClock = some now ∨ action = .begin now
  := by
  have hstep := workerStep_of_schedulerStep h
  cases hstep
  case begin =>
    right
    cases action <;> simp only [schedulerStep, reduceCtorEq, Option.some.injEq, Prod.mk.injEq] at h
    obtain ⟨-, h⟩ := h
    unfold beginPass at h
    split at h
    · cases h
    · cases h
      obtain rfl := Option.some.inj hnow
      rfl
  all_goals first | exact .inl hnow | cases hnow

/-- A scheduler that goes on carrying a job keeps its row. -/
theorem WorkerStep.keepsRow (h : WorkerStep env config w db phase db' phase' events)
    (hsound : phase.Sound) (hrow : db.jobs.find? j = some row) (hheldBy : row.HeldBy w leasedUntil)
    (hknows : phase.KnowsRow j row) (hcarried : phase.Carries j) (hcarries : phase'.Carries j) :
  ∃ next, db'.jobs.find? j = some next ∧ next.HeldBy w leasedUntil ∧ phase'.KnowsRow j next
  := by
  have hclock : phase.claimClock = none := by
    cases phase <;> first | rfl | (obtain ⟨job, hjob, -⟩ := hcarried; cases hjob)
  have hpending : ∀ job ∈ phase'.pending, job.id = j → row.status = .leased :=
    fun job hjob => hknows.pending job (h.pending_subset hclock job hjob)
  by_cases hsubject : ∀ job, phase.subject = some job → job.id ≠ j
  · refine ⟨row, h.find?_of_heldBy hsound hrow hheldBy (by simp [hclock]) hsubject, hheldBy, hpending, ?_⟩
    intro job hworking hid
    have hcurrent : phase'.current = some job := by
      cases phase' <;> first | exact hworking | cases hworking
    exact absurd hid (hsubject job (h.current_subject hcurrent))
  · simp only [not_forall, not_not, exists_prop] at hsubject
    obtain ⟨job, hjob, hid⟩ := hsubject
    cases h
    case defer now deferred message claimed runnable =>
      obtain rfl := Option.some.inj hjob
      have hheld : (Phase.defer now deferred message claimed runnable).held
          = runnable ++ deferred :: claimed := rfl
      exact absurd hcarries (hsound.not_carries hheld hid rfl rfl)
    case mark now startedAt marked jobs jobsTable hmark =>
      obtain rfl := Option.some.inj hjob
      have hheld : (Phase.attempt now (marked :: jobs)).held = [] ++ marked :: jobs := rfl
      have hleased := hknows.pending _ List.mem_cons_self hid
      have hmarked := find?_tryMarkJobRunning db.jobs marked.id marked.nextAttempt w j
      rw [hmark, hrow, Option.map_some,
        if_pos ⟨(Table.key_of_find? hrow).trans hid.symm, hleased, hheldBy.owner⟩] at hmarked
      refine ⟨_, hmarked, ⟨rfl, hheldBy.owner, hheldBy.leasedUntil⟩, ?_, ?_⟩
      · intro other hother hotherId
        apply absurd (hotherId.trans hid.symm) (hsound.ne_of_held hheld hother)
      · intro other hother _
        obtain rfl := Option.some.inj hother
        exact ⟨rfl, rfl⟩
    case superseded now marked jobs jobsTable hmark =>
      obtain rfl := Option.some.inj hjob
      have hheld : (Phase.attempt now (marked :: jobs)).held = [] ++ marked :: jobs := rfl
      exact absurd hcarries (hsound.not_carries hheld hid rfl rfl)
    case start =>
      exact ⟨row, hrow, hheldBy, hpending, hknows.working⟩
    all_goals first
      | (cases hjob; done)
      | exact absurd hcarries (hsound.not_carries (Phase.held_of_current hjob) hid rfl rfl)
      | (obtain ⟨other, hother, -⟩ := hcarries; cases hother)

end

end GoblinKing
