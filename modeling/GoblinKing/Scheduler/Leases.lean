import GoblinKing.Scheduler.Holding
import GoblinKing.Library.Lease

/-!
# Leases of jobs

The system, seen from one job, is a lease with epochs: the holder and the number of epochs
are read from the row of the job, the tickets from the phases of the schedulers, and the
settled epochs from the log. Every transaction of the system is a sequence of steps of the
lease, as long as no row is deleted.
-/

namespace GoblinKing

/-- Who holds a job, by the status and the lease owner of its row. -/
def JobRecord.holder (row : JobRecord) : Lease.Holder WorkerId :=
  match row.status, row.leaseOwner with
  | .leased, some w => .leased w
  | .running, some w => .running w
  | _, _ => .free

/-- Who holds a job that may not exist. -/
def holderOf (row : Option JobRecord) : Lease.Holder WorkerId :=
  match row with
  | none => .free
  | some row => row.holder

/-- The number of attempts begun of a job that may not exist. -/
def attemptsOf (row : Option JobRecord) : ℕ :=
  match row with
  | none => 0
  | some row => row.attemptCount

/-- The ticket for job `j` among claimed jobs. -/
def pendingTicket (jobs : List JobRecord) (j : Id) : Lease.Ticket :=
  match jobs.find? (fun job => job.id = j) with
  | none => .none
  | some job => .claimed job.attemptCount

/-- The ticket of a scheduler for job `j`: the attempt it has begun, or the attempt count
of the job as it was claimed. -/
def Phase.ticket (phase : Phase) (j : Id) : Lease.Ticket :=
  match phase.current with
  | some job => if job.id = j then .begun job.nextAttempt else pendingTicket phase.pending j
  | none => pendingTicket phase.pending j

/-- The attempts of job `j` whose finalization returned `finalized`, newest first. -/
def settledAttempts (j : Id) (log : List Event) : List ℕ :=
  log.filterMap (fun event => match event with
    | .finalized jobId attempt => if jobId = j then some attempt else none
    | _ => none)

/-- The lease of a job. -/
def System.lease (σ : System) (j : Id) : Lease.State WorkerId where
  holder := holderOf (σ.db.jobs.find? j)
  epoch := attemptsOf (σ.db.jobs.find? j)
  ticket := fun w => (σ.phase w).ticket j
  settled := settledAttempts j σ.log

/-! ### Tickets -/

/-- There is no ticket for a job that is not among the claimed ones. -/
theorem pendingTicket_of_notMem {jobs : List JobRecord} {j : Id}
    (h : j ∉ jobs.map JobRecord.id) :
  pendingTicket jobs j = .none
  := by
  have hnone : jobs.find? (fun job => job.id = j) = none := by
    rw [List.find?_eq_none]
    intro job hjob
    simp only [decide_eq_true_eq]
    intro hid
    apply h
    rw [← hid]
    apply List.mem_map_of_mem hjob
  rw [pendingTicket, hnone]

/-- The ticket for the first of the claimed jobs. -/
theorem pendingTicket_cons_self (job : JobRecord) (jobs : List JobRecord) :
  pendingTicket (job :: jobs) job.id = .claimed job.attemptCount
  := by
  simp [pendingTicket]

/-- The ticket for a job does not depend on the other claimed jobs. -/
theorem pendingTicket_append_cons_of_ne {job : JobRecord} {j : Id} (h : job.id ≠ j)
    (before jobs : List JobRecord) :
  pendingTicket (before ++ job :: jobs) j = pendingTicket (before ++ jobs) j
  := by
  simp [pendingTicket, List.find?_append, h]

/-- A scheduler that gives up one of its jobs keeps the tickets for the others and has none
for that one. -/
theorem pendingTicket_append_cons (before : List JobRecord) {jobs : List JobRecord}
    {job : JobRecord} (hnodup : ((before ++ job :: jobs).map JobRecord.id).Nodup) (j : Id) :
  pendingTicket (before ++ jobs) j = pendingTicket (before ++ job :: jobs) j
    ∨ pendingTicket (before ++ jobs) j = .none
  := by
  by_cases h : job.id = j
  · right
    subst h
    apply pendingTicket_of_notMem
    have hperm : ((before ++ job :: jobs).map JobRecord.id).Perm
        (job.id :: (before ++ jobs).map JobRecord.id) := by
      rw [← List.map_cons]
      apply List.perm_middle.map
    apply (List.nodup_cons.mp (hperm.nodup_iff.mp hnodup)).1
  · left
    rw [pendingTicket_append_cons_of_ne h]

/-- The ticket for the job whose attempt is under way. -/
theorem ticket_of_current {phase : Phase} {job : JobRecord} (h : phase.current = some job) :
  phase.ticket job.id = .begun job.nextAttempt
  := by
  simp [Phase.ticket, h]

/-- A scheduler that gives up the job whose attempt is under way keeps the tickets for the
others and has none for that one. -/
theorem ticket_of_drop {phase phase' : Phase} {job : JobRecord} (h : phase.Sound)
    (hcurrent : phase.current = some job) (hcurrent' : phase'.current = none)
    (hpending : phase'.pending = phase.pending) (j : Id) :
  phase'.ticket j = phase.ticket j ∨ phase'.ticket j = .none
  := by
  simp only [Phase.ticket, hcurrent, hcurrent', hpending]
  split
  case isTrue hid =>
    right
    subst hid
    apply pendingTicket_of_notMem
    have hnodup := h.nodup
    simp only [Phase.held, hcurrent, Option.toList_some, List.cons_append, List.nil_append,
      List.map_cons, List.nodup_cons] at hnodup
    apply hnodup.1
  case isFalse =>
    left
    rfl

/-- A scheduler without jobs has no ticket. -/
theorem ticket_of_held_nil {phase : Phase} (h : phase.held = []) (j : Id) :
  phase.ticket j = .none
  := by
  simp only [Phase.held, List.append_eq_nil_iff, Option.toList_eq_nil_iff] at h
  rw [Phase.ticket, h.1, h.2]
  rfl

/-! ### Steps -/

/-- The lease of a job after a step of a scheduler. -/
theorem lease_after (σ : System) (w : WorkerId) (db : Db) (phase : Phase) (events : List Event)
    (j : Id) :
  (σ.after w db phase events).lease j
    = { holder := holderOf (db.jobs.find? j)
        epoch := attemptsOf (db.jobs.find? j)
        ticket := Function.update (σ.lease j).ticket w (phase.ticket j)
        settled := settledAttempts j events ++ (σ.lease j).settled }
  := by
  ext v
  · rfl
  · rfl
  · by_cases h : v = w
    · subst h
      simp [System.lease]
    · simp [System.lease, System.after_phase_of_ne σ h, h]
  · simp [System.lease, settledAttempts]

variable {σ : System} {w : WorkerId} {db : Db} {phase : Phase} {events : List Event} {j : Id}

/-- A step that leaves the row of the job and logs no finalization is none for the lease,
except that a ticket may be thrown away. -/
theorem lease_of_quiet (hrow : db.jobs.find? j = σ.db.jobs.find? j)
    (hevents : settledAttempts j events = [])
    (hticket : phase.ticket j = (σ.phase w).ticket j ∨ phase.ticket j = .none) :
  Transition.Reaches Lease.step (σ.lease j) ((σ.after w db phase events).lease j)
  := by
  rw [lease_after, hrow, hevents]
  apply Lease.reaches_ticket (σ.lease j) hticket

/-- A step that frees the job and logs no finalization takes the job away, and may throw a
ticket away. -/
theorem lease_of_release (hholder : holderOf (db.jobs.find? j) = .free)
    (hattempts : attemptsOf (db.jobs.find? j) = attemptsOf (σ.db.jobs.find? j))
    (hevents : settledAttempts j events = [])
    (hticket : phase.ticket j = (σ.phase w).ticket j ∨ phase.ticket j = .none) :
  Transition.Reaches Lease.step (σ.lease j) ((σ.after w db phase events).lease j)
  := by
  have hrelease : Transition.Reaches Lease.step (σ.lease j) (σ.lease j).release :=
    Transition.Reaches.single (a := .release) rfl
  apply hrelease.trans
  rw [lease_after, hholder, hattempts, hevents]
  apply Lease.reaches_ticket (σ.lease j).release hticket

/-- A released row is free. -/
theorem holder_release (row : JobRecord) (status : JobStatus) (lastError : Option String)
    (dueAt : Option Instant) :
  (row.release status lastError dueAt).holder = .free
  := by
  cases status <;> rfl

/-- Finishing a job without looking at its row takes the job away. -/
theorem lease_of_finishJob {jobId : Id} {status : JobStatus} {lastError : Option String}
    {dueAt : Option Instant}
    (hjobs : db.jobs = finishJob σ.db.jobs jobId status lastError dueAt)
    (hevents : settledAttempts j events = [])
    (hticket : phase.ticket j = (σ.phase w).ticket j ∨ phase.ticket j = .none) :
  Transition.Reaches Lease.step (σ.lease j) ((σ.after w db phase events).lease j)
  := by
  have hfind := find?_finishJob σ.db.jobs jobId status lastError dueAt j
  rw [← hjobs] at hfind
  cases hrow : σ.db.jobs.find? j with
  | none =>
      apply lease_of_quiet _ hevents hticket
      rw [hfind, hrow]
      rfl
  | some row =>
      rw [hrow, Option.map_some] at hfind
      by_cases hid : row.id = jobId
      · rw [if_pos hid] at hfind
        apply lease_of_release _ _ hevents hticket
        · rw [hfind]
          apply holder_release
        · rw [hfind, hrow]
          rfl
      · rw [if_neg hid] at hfind
        apply lease_of_quiet _ hevents hticket
        rw [hfind, hrow]

/-- An attempt that owns the row holds the lease at its number. -/
theorem holdsAt_of_ownsAttempt {row : JobRecord} {attempt : ℕ}
    (hrow : σ.db.jobs.find? j = some row) (howns : row.ownsAttempt w attempt = true) :
  (σ.lease j).holdsAt w attempt
  := by
  simp only [JobRecord.ownsAttempt, Bool.and_eq_true, Bool.or_eq_true, beq_iff_eq,
    decide_eq_true_eq] at howns
  obtain ⟨howner, ⟨hstatus, hattempt⟩ | ⟨hstatus, hattempt⟩⟩ := howns
  · left
    simp [System.lease, hrow, holderOf, attemptsOf, JobRecord.holder, howner, hstatus, hattempt]
  · right
    simp [System.lease, hrow, holderOf, attemptsOf, JobRecord.holder, howner, hstatus, hattempt]

/-- A finalization by a scheduler that has begun an attempt of the job settles the attempt
it names, or does nothing to the lease. -/
theorem lease_of_finalizeAttempt {run : RunRecord} {status : JobStatus}
    {lastError : Option String} {dueAt : Option Instant} {finalization : AttemptFinalization}
    {jobsTable : Jobs} {runs : Runs} {job : JobRecord}
    (hfinalize : finalizeAttempt σ.db.jobs σ.db.runs run status lastError dueAt w
      = .ok (finalization, jobsTable, runs))
    (hjobs : db.jobs = jobsTable) (hcurrent : (σ.phase w).current = some job)
    (hid : run.jobId = job.id)
    (hticket : phase.ticket j = (σ.phase w).ticket j ∨ phase.ticket j = .none) :
  Transition.Reaches Lease.step (σ.lease j)
    ((σ.after w db phase (finalizationEvents run finalization.outcome)).lease j)
  := by
  obtain ⟨row, hrow, -, -, ⟨howns, houtcome, rfl⟩ | ⟨-, houtcome, rfl⟩⟩ :=
    finalizeAttempt_ok hfinalize
  · rw [houtcome]
    by_cases hj : run.jobId = j
    · subst hj
      have hbegun : (σ.lease run.jobId).ticket w = .begun job.nextAttempt := by
        simp only [System.lease, hid]
        apply ticket_of_current hcurrent
      have hsettle : Transition.Reaches Lease.step (σ.lease run.jobId)
          ((σ.lease run.jobId).settle run.attempt) := by
        apply Transition.Reaches.single (a := .settle w run.attempt)
        simp [Lease.step, hbegun, holdsAt_of_ownsAttempt hrow howns]
      apply hsettle.trans
      have hfind : db.jobs.find? run.jobId = some (row.release status lastError dueAt) := by
        rw [hjobs, find?_finishJob, hrow]
        simp [Table.key_of_find? hrow]
      rw [lease_after, hfind]
      simp only [holderOf, attemptsOf, holder_release]
      have hattempts : (row.release status lastError dueAt).attemptCount
          = (σ.lease run.jobId).epoch := by
        simp [System.lease, hrow, attemptsOf, JobRecord.release]
      rw [hattempts]
      simp only [settledAttempts, finalizationEvents, List.filterMap_cons, if_true,
        List.filterMap_nil]
      apply Lease.reaches_ticket ((σ.lease run.jobId).settle run.attempt) hticket
    · apply lease_of_finishJob hjobs _ hticket
      simp [settledAttempts, finalizationEvents, hj]
  · apply lease_of_quiet _ _ hticket
    · rw [hjobs]
    · cases hout : finalization.outcome with
      | finalized => cases houtcome hout
      | cancelled => rfl
      | stale => rfl

/-- The claim of a job gives its lease to the scheduler, which notes the attempt count. -/
theorem lease_of_claim {now leaseUntil : Instant} {limit : ℕ} {claimed : List JobRecord}
    {jobs : Jobs}
    (hclaim : claimDueJobs σ.db.jobs w now leaseUntil limit = (claimed, jobs))
    (hjobs : db.jobs = jobs) (hticket : phase.ticket j = pendingTicket claimed j)
    (hevents : settledAttempts j events = []) :
  Transition.Reaches Lease.step (σ.lease j) ((σ.after w db phase events).lease j)
  := by
  have hclaimed := find?_claimed σ.db.jobs w now leaseUntil limit j
  have hfind := find?_claimDueJobs σ.db.jobs w now leaseUntil limit j
  rw [hclaim] at hclaimed hfind
  cases hrow : σ.db.jobs.find? j with
  | none =>
      rw [hrow] at hfind hclaimed
      apply lease_of_quiet _ hevents
      · right
        rw [hticket, pendingTicket, hclaimed]
        rfl
      · rw [hjobs, hfind, hrow]
        rfl
  | some row =>
      rw [hrow, Option.map_some] at hfind
      rw [hrow, Option.bind_some] at hclaimed
      by_cases hmem : row ∈ claimSelection σ.db.jobs now limit
      · rw [if_pos hmem] at hfind hclaimed
        apply Transition.Reaches.single (a := .claim w)
        rw [lease_after, hjobs, hfind, hevents, hticket, pendingTicket, hclaimed]
        simp [Lease.step, Lease.State.claim, System.lease, hrow, holderOf, attemptsOf,
          JobRecord.holder, JobRecord.lease]
      · rw [if_neg hmem] at hfind hclaimed
        apply lease_of_quiet _ hevents
        · right
          rw [hticket, pendingTicket, hclaimed]
        · rw [hjobs, hfind, hrow]

/-- Marking a job running begins the next attempt of its lease. -/
theorem lease_of_mark {job : JobRecord} {jobs : List JobRecord} {jobsTable : Jobs}
    (hmark : tryMarkJobRunning σ.db.jobs job.id job.nextAttempt w = (true, jobsTable))
    (hjobs : db.jobs = jobsTable) (hcurrent : (σ.phase w).current = none)
    (hpending : (σ.phase w).pending = job :: jobs) (hcurrent' : phase.current = some job)
    (hpending' : phase.pending = jobs) (hevents : settledAttempts j events = []) :
  Transition.Reaches Lease.step (σ.lease j) ((σ.after w db phase events).lease j)
  := by
  have hfind := find?_tryMarkJobRunning σ.db.jobs job.id job.nextAttempt w j
  rw [hmark] at hfind
  obtain ⟨row, hrow, hleased, howner⟩ := tryMarkJobRunning_fst.mp (congrArg Prod.fst hmark)
  by_cases hj : job.id = j
  · subst hj
    have hclaimed : (σ.lease job.id).ticket w = .claimed job.attemptCount := by
      simp only [System.lease, Phase.ticket, hcurrent, hpending]
      apply pendingTicket_cons_self
    have hholder : (σ.lease job.id).holder = .leased w := by
      simp [System.lease, hrow, holderOf, JobRecord.holder, hleased, howner]
    apply Transition.Reaches.single (a := .start w)
    rw [Lease.step, hclaimed]
    simp only [hholder, if_true]
    rw [lease_after, hjobs, hfind, hevents, ticket_of_current hcurrent', hrow]
    simp [Lease.State.start, System.lease, holderOf, attemptsOf, JobRecord.holder, hleased,
      howner, JobRecord.markRunning, Table.key_of_find? hrow, JobRecord.nextAttempt]
  · apply lease_of_quiet _ hevents
    · left
      simp only [Phase.ticket, hcurrent, hcurrent', hpending, hpending', if_neg hj]
      symm
      apply pendingTicket_append_cons_of_ne hj []
    · rw [hjobs, hfind]
      cases hfj : σ.db.jobs.find? j with
      | none => rfl
      | some r =>
          have hne : r.id ≠ job.id := fun h => hj (h.symm.trans (Table.key_of_find? hfj))
          simp [hne]

/-- A submitted job is free and has not been attempted. -/
theorem lease_of_saveJob {job : JobRecord} {jobs : Jobs}
    (hsave : saveJob σ.db.jobs job = some jobs) (hsubmitted : job.submitted = true) (j : Id) :
  holderOf (jobs.find? j) = holderOf (σ.db.jobs.find? j)
    ∧ attemptsOf (jobs.find? j) = attemptsOf (σ.db.jobs.find? j)
  := by
  simp only [JobRecord.submitted, Bool.and_eq_true, beq_iff_eq] at hsubmitted
  obtain ⟨⟨⟨hstatus, -⟩, -⟩, hattempts⟩ := hsubmitted
  rw [Table.find?_insert? hsave]
  split
  case isTrue hid =>
    rw [← hid, Table.find?_of_insert? hsave]
    simp [holderOf, attemptsOf, JobRecord.holder, hstatus, hattempts]
  case isFalse => exact ⟨rfl, rfl⟩

/-- Every step of a scheduler is a sequence of steps of the lease of a job. -/
theorem WorkerStep.lease {env : Environment} {config : SchedulerConfig}
    (h : WorkerStep env config w σ.db (σ.phase w) db phase events) (hsound : (σ.phase w).Sound)
    (j : Id) :
  Transition.Reaches Lease.step (σ.lease j) ((σ.after w db phase events).lease j)
  := by
  generalize hbefore : σ.phase w = before at h
  rw [hbefore] at hsound
  have hcurrent : (σ.phase w).current = before.current := by rw [hbefore]
  have hpending : (σ.phase w).pending = before.pending := by rw [hbefore]
  have hkeep : phase.current = before.current → phase.pending = before.pending →
      phase.ticket j = (σ.phase w).ticket j ∨ phase.ticket j = .none := by
    intro hcurrent hpending
    left
    rw [hbefore, Phase.ticket, Phase.ticket, hcurrent, hpending]
  have hdrop : ∀ job, before.current = some job → phase.current = none →
      phase.pending = before.pending →
      phase.ticket j = (σ.phase w).ticket j ∨ phase.ticket j = .none := by
    intro job hcurrent hcurrent' hpending
    rw [hbefore]
    apply ticket_of_drop hsound hcurrent hcurrent' hpending
  have hgiveUp : phase.held = [] →
      phase.ticket j = (σ.phase w).ticket j ∨ phase.ticket j = .none := by
    intro hheld
    right
    apply ticket_of_held_nil hheld
  cases h
  -- the steps that change the row of a job or finalize an attempt
  case materialize hkind hjob hsave =>
    obtain ⟨hholder, hattempts⟩ := lease_of_saveJob hsave (submitted_materializedJob hjob) j
    rw [lease_after, hholder, hattempts]
    apply Lease.reaches_ticket (σ.lease j) (hgiveUp rfl)
  case claim hclaim => apply lease_of_claim hclaim rfl rfl rfl
  case defer now job message claimed runnable =>
    apply lease_of_finishJob rfl rfl
    rw [hbefore]
    have hnodup := hsound.nodup
    apply pendingTicket_append_cons _ hnodup
  case mark hmark =>
    apply lease_of_mark hmark rfl hcurrent hpending rfl rfl rfl
  case superseded now job jobs jobsTable hmark =>
    apply lease_of_quiet (find?_of_not_marked hmark j) rfl
    rw [hbefore]
    have hnodup := hsound.nodup
    apply pendingTicket_append_cons [] hnodup
  case reject hid hfinalize =>
    apply lease_of_finalizeAttempt hfinalize rfl hcurrent rfl (hkeep rfl rfl)
  case finish run finalization _ _ hrun hfinalize houtcome =>
    have hevents : [.finalized run.jobId run.attempt]
        = finalizationEvents run finalization.outcome := by
      rw [houtcome]
      rfl
    rw [hevents]
    apply lease_of_finalizeAttempt hfinalize rfl hcurrent _ (hkeep rfl rfl)
    rw [hrun]
    rfl
  case finishLost hrun hfinalize houtcome =>
    obtain ⟨row, hrow, -, -, ⟨-, hfinalized, -⟩ | ⟨-, -, hjobs⟩⟩ := finalizeAttempt_ok hfinalize
    · cases houtcome hfinalized
    · apply lease_of_quiet _ rfl (hdrop _ rfl rfl rfl)
      rw [hjobs]
  case reconcile => apply lease_of_finishJob rfl rfl (hdrop _ rfl rfl rfl)
  case fail hid hrun hfinalize =>
    apply lease_of_finalizeAttempt hfinalize rfl hcurrent _ (hdrop _ rfl rfl rfl)
    rw [hrun]
    apply hsound.inspected _ _ rfl rfl
  -- the steps after which the scheduler holds nothing
  case begin => apply lease_of_quiet rfl rfl (hgiveUp rfl)
  case beginRaised => apply lease_of_quiet rfl rfl (hgiveUp rfl)
  case rejected => apply lease_of_quiet rfl rfl (hgiveUp rfl)
  case unregistered => apply lease_of_quiet rfl rfl (hgiveUp rfl)
  case advance => apply lease_of_quiet rfl rfl (hgiveUp rfl)
  case advanceRaised => apply lease_of_quiet rfl rfl (hgiveUp rfl)
  case badPolicy => apply lease_of_quiet rfl rfl (hgiveUp rfl)
  case noLease => apply lease_of_quiet rfl rfl (hgiveUp rfl)
  case finishPass => apply lease_of_quiet rfl rfl (hgiveUp rfl)
  case disappeared => apply lease_of_quiet rfl rfl (hgiveUp rfl)
  case failedPolicy => apply lease_of_quiet rfl rfl (hgiveUp rfl)
  case failRaised => apply lease_of_quiet rfl rfl (hgiveUp rfl)
  -- the steps after which it holds the same jobs, in the same order
  case returnJob now job claimed runnable policy hpolicy hproject hlimit =>
    apply lease_of_quiet rfl rfl (hkeep rfl _)
    simp [Phase.pending]
  case returnWithinKind =>
    apply lease_of_quiet rfl rfl (hkeep rfl _)
    simp [Phase.pending]
  case enterLeases =>
    apply lease_of_quiet rfl rfl (hkeep rfl _)
    simp [Phase.pending]
  case emitted => apply lease_of_quiet rfl rfl (hdrop _ rfl rfl rfl)
  case settled => apply lease_of_quiet rfl rfl (hdrop _ rfl rfl rfl)
  all_goals apply lease_of_quiet rfl rfl (hkeep rfl rfl)

/-! ### The system -/

section

variable {env : Environment} {config : WorkerId → SchedulerConfig} {τ : System} {a : Action}

/-- A step that leaves the schedulers alone, and keeps a job's attempts, may only take the
job away. -/
theorem lease_of_request (hphase : τ.phase = σ.phase)
    (hlog : settledAttempts j τ.log = settledAttempts j σ.log)
    (hattempts : attemptsOf (τ.db.jobs.find? j) = attemptsOf (σ.db.jobs.find? j))
    (hholder : holderOf (τ.db.jobs.find? j) = holderOf (σ.db.jobs.find? j)
      ∨ holderOf (τ.db.jobs.find? j) = .free) :
  Transition.Reaches Lease.step (σ.lease j) (τ.lease j)
  := by
  rcases hholder with hholder | hholder
  · have hsame : τ.lease j = σ.lease j := by
      simp only [System.lease, hphase, hlog, hattempts, hholder]
    rw [hsame]
    apply Transition.Path.refl
  · apply Transition.Reaches.single (a := .release)
    simp only [Lease.step, Lease.State.release, System.lease, hphase, hlog, hattempts, hholder]

/-- A conditional change of rows keeps their attempts, and keeps or frees their holder, when
the change does. -/
theorem holder_of_update (row : Option JobRecord) {P : JobRecord → Prop} [DecidablePred P]
    {f : JobRecord → JobRecord} (hattempts : ∀ r, (f r).attemptCount = r.attemptCount)
    (hholder : ∀ r, (f r).holder = r.holder ∨ (f r).holder = .free) :
  attemptsOf (row.map (fun r => if P r then f r else r)) = attemptsOf row
    ∧ (holderOf (row.map (fun r => if P r then f r else r)) = holderOf row
      ∨ holderOf (row.map (fun r => if P r then f r else r)) = .free)
  := by
  cases row with
  | none => exact ⟨rfl, .inl rfl⟩
  | some r =>
      rw [Option.map_some]
      split
      · exact ⟨hattempts r, hholder r⟩
      · exact ⟨rfl, .inl rfl⟩

/-- A patch request finalizes nothing. -/
theorem settledAttempts_of_patch {log : List Event}
    (h : ∀ event ∈ events, event.ofPatch = true) :
  settledAttempts j (events ++ log) = settledAttempts j log
  := by
  have hnone : settledAttempts j events = [] := by
    rw [settledAttempts, List.filterMap_eq_nil_iff]
    intro event hevent
    have hpatch := h event hevent
    cases event <;> first | rfl | cases hpatch
  rw [settledAttempts] at hnone
  rw [settledAttempts, List.filterMap_append, hnone, List.nil_append, settledAttempts]

/-- Every step of the system that deletes no row is a sequence of steps of the lease of a
job. -/
theorem lease_of_step (hsound : SoundPhases σ) (hrows : a.keepsRows = true)
    (h : step env config σ a = some τ) (j : Id) :
  Transition.Reaches Lease.step (σ.lease j) (τ.lease j)
  := by
  cases a with
  | submit job =>
      simp only [step] at h
      split_ifs at h with hsubmitted
      obtain ⟨jobs, hsave, rfl⟩ := Option.map_eq_some_iff.mp h
      obtain ⟨hholder, hattempts⟩ := lease_of_saveJob hsave hsubmitted j
      refine lease_of_request rfl rfl hattempts (.inl hholder)
  | cancel jobId =>
      cases h
      obtain ⟨hattempts, hholder⟩ := holder_of_update (σ.db.jobs.find? j)
        (P := fun r => r.id = jobId ∧ r.status.isTerminal = false) (f := JobRecord.cancel)
        (fun _ => rfl) (fun _ => .inr (holder_release _ _ _ _))
      rw [← find?_tryCancelJob] at hattempts hholder
      refine lease_of_request rfl rfl hattempts hholder
  | renew w jobId leaseUntil =>
      cases h
      obtain ⟨hattempts, hholder⟩ := holder_of_update (σ.db.jobs.find? j)
        (P := fun r => r.id = jobId ∧ r.status.isActive = true ∧ r.leaseOwner = some w)
        (f := JobRecord.renew leaseUntil) (fun _ => rfl) (fun _ => .inl rfl)
      rw [← find?_tryRenewJobLease] at hattempts hholder
      refine lease_of_request rfl rfl hattempts hholder
  | cleanup projectId => cases hrows
  | create kinds request projectId scheduleId createdAt =>
      simp only [step] at h
      split at h
      · cases h
      · cases h
        refine lease_of_request rfl rfl rfl (.inl rfl)
  | readPatch requestId scheduleId request =>
      obtain ⟨hdb, hphase, events, hlog, hpatch⟩ := readPatch_frame h
      apply lease_of_request hphase
      · rw [hlog, settledAttempts_of_patch hpatch]
      · rw [hdb]
      · left
        rw [hdb]
  | writePatch requestId now =>
      obtain ⟨hjobs, -, hphase, events, hlog, hpatch⟩ := writePatch_frame h
      apply lease_of_request hphase
      · rw [hlog, settledAttempts_of_patch hpatch]
      · rw [hjobs]
      · left
        rw [hjobs]
  | scheduler w action =>
      obtain ⟨db, phase, events, hstep, rfl⟩ := workerStep_of_step h
      apply hstep.lease (hsound w)

/-- The lease of a job before the first step. -/
theorem lease_init (j : Id) :
  System.init.lease j = Lease.init
  := rfl

/-- A state that is reached without deleting rows. -/
def Retained (env : Environment) (config : WorkerId → SchedulerConfig) : System → System → Prop :=
  Transition.Path (step env config) (fun _ a => a.keepsRows = true)

/-- A path of the system is a path of the lease of every job. -/
theorem lease_of_retained (h : Retained env config σ τ) (hsound : SoundPhases σ) (j : Id) :
  SoundPhases τ ∧ Transition.Reaches Lease.step (σ.lease j) (τ.lease j)
  := by
  induction h with
  | refl => exact ⟨hsound, Transition.Path.refl _⟩
  | tail _ hrows hstep ih =>
      obtain ⟨hsound', hreaches⟩ := ih
      use hsound'.step hstep
      apply hreaches.trans (lease_of_step hsound' hrows hstep j)

/-- The invariant of leases holds of every job in every state that is reached without
deleting rows. -/
theorem leaseInvariant_of_retained (h : Retained env config System.init σ) (j : Id) :
  Lease.Invariant (σ.lease j)
  := by
  obtain ⟨-, hreaches⟩ := lease_of_retained h soundPhases_init j
  apply Lease.Invariant.reaches hreaches
  rw [lease_init]
  apply Lease.invariant_init

end

end GoblinKing
