import GoblinKing.Library.Admission
import GoblinKing.Scheduler.Knowledge
import GoblinKing.Scheduler.Terminal

/-!
# Concurrency limits

A claim leases a whole batch of jobs in one transaction, and checks the limits of each of
them afterwards, in transactions of its own. What a check counts are all other jobs that are
leased or running, whether they have been checked or not, so that of two schedulers that
check two jobs at the same time at least one defers. The jobs that `claim_due_jobs` has
returned and that are active since are never more than the limit, as long as no lease runs
out: a lease that runs out may let a job be claimed again that another claim is about to
return.
-/

namespace GoblinKing

/-- What a limit is for: the jobs of one goblin kind, or those of one project. -/
inductive ConcurrencyScope where
  | goblin (kind : String)
  | project (projectId : Option Id)
  deriving DecidableEq

/-- The job counts against the limit. -/
def ConcurrencyScope.covers : ConcurrencyScope → JobRecord → Bool
  | .goblin kind, job => decide (job.kind = kind)
  | .project projectId, job => decide (job.projectId = projectId)

/-- The limit of the scope in a policy. -/
def ConcurrencyScope.limit : ConcurrencyScope → ConcurrencyPolicy → Option ℕ+
  | .goblin _, limits => limits.maxRunning
  | .project _, limits => limits.maxProjectRunning

/-- The jobs of the scope that are leased or running. -/
def ConcurrencyScope.occupied (scope : ConcurrencyScope) (jobs : Jobs) : Finset Id :=
  jobs.keys (fun row => scope.covers row && row.status.isActive)

/-- The jobs that are leased or running. -/
def activeJobs (jobs : Jobs) : Finset Id :=
  jobs.keys (fun row => row.status.isActive)

/-- The policy of the job has the limit. -/
def JobRecord.carries (env : Environment) (scope : ConcurrencyScope) (limit : ℕ+)
    (job : JobRecord) : Bool :=
  match policyFromJobMetadata env.modelValidate job.resourcePolicy with
  | .error _ => false
  | .ok policy => decide (scope.limit (concurrency policy) = some limit)

/-- Every job of the scope carries the limit. -/
def carriedByAll (env : Environment) (scope : ConcurrencyScope) (limit : ℕ+) (σ : System) :
    Bool :=
  σ.db.jobs.rows.all (fun row => !scope.covers row || row.carries env scope limit)

/-- A claim finds no active job whose lease has run out. -/
def leasesLast (σ : System) (a : Action) : Bool :=
  match a with
  | .scheduler w _ =>
      match σ.phase w with
      | .due now [] =>
          σ.db.jobs.rows.all (fun row => !(row.status.isActive && row.leasedUntil.any (· ≤ now)))
      | _ => true
  | _ => true

/-- The jobs of the scope carry the limit, no lease runs out, and no row is deleted. -/
def underLimit (env : Environment) (scope : ConcurrencyScope) (limit : ℕ+) (σ : System)
    (a : Action) : Bool :=
  carriedByAll env scope limit σ && leasesLast σ a && a.keepsRows

/-- What `claim_due_jobs` returns, when all claimed jobs have been checked. -/
def Phase.returned : Phase → List JobRecord
  | .check _ [] runnable => runnable
  | _ => []

/-- The jobs that `claim_due_jobs` has returned and that are active since, as a history
variable. -/
def activeReturned (_ : System) (a : Action) (τ : System) (runnable : Finset Id) : Finset Id :=
  let returned := match a.worker with
    | none => []
    | some w => (τ.phase w).returned
  ((returned.map JobRecord.id).toFinset ∪ runnable) ∩ activeJobs τ.db.jobs

/-- The jobs of a claim that is still checking: those that have passed, and the others. -/
def Phase.checking : Phase → List JobRecord
  | .check _ claimed runnable => runnable ++ claimed
  | .checkKind _ job _ claimed runnable => runnable ++ job :: claimed
  | .defer _ job _ claimed runnable => runnable ++ job :: claimed
  | _ => []

/-- The jobs of a claim that have passed the limit of the scope. The limit of the project is
checked before that of the kind. -/
def Phase.admitted (scope : ConcurrencyScope) : Phase → List JobRecord
  | .check _ _ runnable => runnable
  | .checkKind _ job _ _ runnable =>
      match scope with
      | .goblin _ => runnable
      | .project _ => job :: runnable
  | .defer _ _ _ _ runnable => runnable
  | _ => []

/-- The row of a job that the claim of a scheduler is still checking: leased to the
scheduler, or terminal. -/
def JobRecord.heldBy (w : WorkerId) (row : JobRecord) : Prop :=
  row.status.isTerminal = true ∨ (row.status = .leased ∧ row.leaseOwner = some w)

/-- The jobs of a claim that is still checking are leased to its scheduler or terminal, no two
schedulers are checking one job, and the limit of a kind that is about to be checked is the
one that the job carries. -/
structure ClaimsHeld (env : Environment) (σ : System) : Prop where
  held : ∀ w, ∀ job ∈ (σ.phase w).checking, ∀ row, σ.db.jobs.find? job.id = some row →
    row.heldBy w
  apart : ∀ w w', ∀ job ∈ (σ.phase w).checking, ∀ job' ∈ (σ.phase w').checking,
    job.id = job'.id → w = w'
  limits : ∀ w now job maxRunning claimed runnable,
    σ.phase w = .checkKind now job maxRunning claimed runnable →
    ∃ policy, policyFromJobMetadata env.modelValidate job.resourcePolicy = .ok policy
      ∧ (concurrency policy).maxRunning = some maxRunning

section

variable {env : Environment} {σ τ : System} {a : Action} {w : WorkerId}

/-- The jobs that a claim is checking are among those that its scheduler knows. -/
theorem known_of_checking {phase : Phase} {job : JobRecord} (h : job ∈ phase.checking) :
  job ∈ phase.known
  := by
  have hheld : phase.checking.Sublist phase.held := by
    cases phase <;> simp [Phase.checking, Phase.held, Phase.current, Phase.pending]
  apply List.mem_append_left _ (hheld.subset h)

/-- The jobs that have passed a limit are among those that the claim is checking. -/
theorem checking_of_admitted {scope : ConcurrencyScope} {phase : Phase} {job : JobRecord}
    (h : job ∈ phase.admitted scope) :
  job ∈ phase.checking
  := by
  cases phase with
  | check => simp_all [Phase.admitted, Phase.checking]
  | checkKind =>
      cases scope <;> simp_all [Phase.admitted, Phase.checking]
      tauto
  | defer => simp_all [Phase.admitted, Phase.checking]
  | _ => cases h

/-- The jobs that are returned have passed every limit. -/
theorem admitted_of_returned {scope : ConcurrencyScope} {phase : Phase} {job : JobRecord}
    (h : job ∈ phase.returned) :
  job ∈ phase.admitted scope
  := by
  cases phase with
  | check now claimed runnable =>
      cases claimed with
      | nil => apply h
      | cons => cases h
  | _ => cases h

/-! ### Leases -/

/-- A terminal job cannot be claimed. -/
theorem not_claimable_of_terminal {row : JobRecord} (h : row.status.isTerminal = true)
    (now : Instant) :
  row.claimable now = false
  := by
  rw [JobRecord.claimable]
  cases hstatus : row.status <;> rw [hstatus] at h <;> first | rfl | cases h

/-- A claim under which no lease has run out leaves the jobs alone that another claim is
still checking. -/
theorem not_claimable_of_held {row : JobRecord} {v : WorkerId} {now : Instant}
    (hleases : leasesLast σ a = true) (hworker : a.worker = some v)
    (hphase : σ.phase v = .due now []) {j : Id} (hrow : σ.db.jobs.find? j = some row)
    (hheld : row.heldBy w) :
  row.claimable now = false
  := by
  rcases hheld with hterminal | ⟨hstatus, -⟩
  · apply not_claimable_of_terminal hterminal
  · cases a with
    | scheduler u action =>
        obtain rfl := Option.some.inj hworker
        simp only [leasesLast, hphase, List.all_eq_true] at hleases
        have hlasts := hleases row (Table.mem_of_find? hrow)
        simpa [JobRecord.claimable, JobStatus.isActive, hstatus] using hlasts
    | _ => cases hworker

/-- The transactions of others leave a job that a claim is checking leased to its scheduler,
or terminal. -/
theorem JobStep.heldBy {j : Id} {row : JobRecord} {row' : Option JobRecord}
    (h : JobStep σ a j (some row) row') (hworker : a.worker ≠ some w)
    (hleases : leasesLast σ a = true) (hrow : σ.db.jobs.find? j = some row)
    (hheld : row.heldBy w) (hrows : OwnedRows σ)
    (hapart : ∀ v, ∀ job ∈ (σ.phase v).checking, job.id = j → v = w) :
  ∀ r, row' = some r → r.heldBy w
  := by
  rintro r rfl
  cases h with
  | keep => apply hheld
  | claim hclaimant hphase hclaimable =>
      rw [not_claimable_of_held hleases hclaimant hphase hrow hheld] at hclaimable
      cases hclaimable
  | renew hactive howner =>
      rcases hheld with hterminal | hleased
      · exact .inl hterminal
      · exact .inr hleased
  | cancel hlive => exact .inl rfl
  | mark hmarker hphase hid hleased howner =>
      rcases hheld with hterminal | ⟨-, howner'⟩
      · rw [hleased] at hterminal
        cases hterminal
      · rw [howner] at howner'
        rw [hmarker] at hworker
        cases hworker howner'
  | finalize hfinalizer howns hstatus =>
      -- only the owner finalizes, and the owner of an active row is the claimant
      obtain ⟨howner, hactive⟩ := ownsAttempt_active howns
      rcases hheld with hterminal | ⟨-, howner'⟩
      · rw [JobStatus.not_isActive hterminal] at hactive
        cases hactive
      · rw [howner] at howner'
        rw [hfinalizer] at hworker
        cases hworker howner'
  | defer hdeferrer hphase hid =>
      have hsame := hapart _ _ (by rw [hphase]; simp [Phase.checking]) hid
      rw [hdeferrer, hsame] at hworker
      cases hworker rfl
  | reconcile hrecovery hphase hid =>
      left
      rw [JobRecord.release, RunStatus.isTerminal_toJobStatus, RunStatus.isTerminal_iff]
      apply hrows.latest _ _ _ _ _ _ hphase

/-- What a claim is checking after a step of its scheduler it has checked before, and the row
was left alone; or it was just claimed. -/
theorem WorkerStep.checking {config : SchedulerConfig} {db db' : Db} {phase phase' : Phase}
    {events : List Event} (h : WorkerStep env config w db phase db' phase' events)
    (hsound : phase.Sound) {job : JobRecord} (hjob : job ∈ phase'.checking) :
  (job ∈ phase.checking ∧ db'.jobs.find? job.id = db.jobs.find? job.id)
    ∨ ∃ now row, phase = .due now [] ∧ db.jobs.find? job.id = some row
      ∧ row.claimable now = true ∧ db'.jobs.find? job.id = some job ∧ job.heldBy w
  := by
  cases h
  case claim now claimed jobs hclaim =>
    right
    have hclaimed := claimDueJobs_fst db.jobs w now (now + seconds config.leaseSeconds)
      config.claimLimit
    rw [hclaim] at hclaimed
    dsimp only at hclaimed
    have hmem : job ∈ claimed := hjob
    have hfind := knows_of_claimDueJobs hclaim hmem
    rw [hclaimed] at hmem
    obtain ⟨row, hrow, rfl⟩ := List.mem_map.mp hmem
    obtain ⟨hrow, hclaimable, -⟩ := mem_claimSelection hrow
    exact ⟨now, row, rfl, hrow, hclaimable, hfind, .inr ⟨rfl, rfl⟩⟩
  case defer now deferred message claimed runnable =>
    left
    have hmem : job ∈ runnable ++ claimed := hjob
    have hne : job.id ≠ deferred.id := by
      have hnodup := hsound.nodup
      simp only [Phase.held, Phase.current, Phase.pending, Option.toList_none, List.nil_append,
        List.map_append, List.map_cons, List.nodup_middle, List.nodup_cons] at hnodup
      intro heq
      apply hnodup.1
      rw [← heq, ← List.map_append]
      apply List.mem_map_of_mem hmem
    constructor
    · rcases List.mem_append.mp hmem with hmem | hmem
      · apply List.mem_append_left _ hmem
      · apply List.mem_append_right _ (List.mem_cons_of_mem _ hmem)
    · rw [find?_finishJob]
      cases hrow : db.jobs.find? job.id with
      | none => rfl
      | some row =>
          rw [Option.map_some, if_neg]
          rw [Table.key_of_find? hrow]
          apply hne
  all_goals
    left
    simp only [Phase.checking, List.mem_append, List.mem_cons, List.not_mem_nil] at hjob ⊢
    try tauto

/-- Before the first step nothing is claimed. -/
theorem claimsHeld_init (env : Environment) : ClaimsHeld env System.init
  := by
  constructor
  · intro w job hjob
    cases hjob
  · intro w w' job hjob
    cases hjob
  · intro w now job maxRunning claimed runnable hphase
    cases hphase

/-- A claim takes no job that another claim is still checking. -/
theorem ClaimsHeld.apart_of_claim {config : WorkerId → SchedulerConfig} (hσ : ClaimsHeld env σ)
    (hsound : SoundPhases σ) (hleases : leasesLast σ a = true) {db : Db} {phase : Phase}
    {events : List Event} (hworker : a.worker = some w)
    (hstep : WorkerStep env (config w) w σ.db (σ.phase w) db phase events) {job job' : JobRecord}
    (hjob : job ∈ phase.checking) {v : WorkerId} (hjob' : job' ∈ (σ.phase v).checking)
    (hid : job.id = job'.id) :
  w = v
  := by
  rcases hstep.checking (hsound w) hjob with ⟨hjob, -⟩ | ⟨now, row, hphase, hrow, hclaimable, -⟩
  · apply hσ.apart w v job hjob job' hjob' hid
  · rw [hid] at hrow
    rw [not_claimable_of_held hleases hworker hphase hrow (hσ.held v job' hjob' row hrow)]
      at hclaimable
    cases hclaimable

/-- A step under which no lease runs out and no row is deleted keeps what claims are
checking leased to their schedulers, or terminal. -/
theorem ClaimsHeld.step {config : WorkerId → SchedulerConfig} (hσ : ClaimsHeld env σ)
    (hsound : SoundPhases σ) (hcopies : TrueCopies env σ) (hrows : OwnedRows σ)
    (hleases : leasesLast σ a = true) (h : step env config σ a = some τ) :
  ClaimsHeld env τ
  := by
  constructor
  · intro w job hjob row hrow
    rcases phaseStep_of_step h w with ⟨hworker, hsame⟩ | ⟨-, db, phase, events, hstep, rfl⟩
    · rw [hsame] at hjob
      obtain ⟨before, hbefore, -⟩ := hcopies.known w job (known_of_checking hjob)
      have hjobStep := jobStep_of_step h job.id
      rw [hbefore] at hjobStep
      apply hjobStep.heldBy hworker hleases hbefore (hσ.held w job hjob before hbefore) hrows _
        row hrow
      intro v job' hjob' hid
      apply hσ.apart v w job' hjob' job hjob hid
    · rw [System.after_phase_self] at hjob
      rw [System.after_db] at hrow
      rcases hstep.checking (hsound w) hjob with ⟨hjob, hsame⟩ | ⟨_, _, -, -, -, hclaimed, hheld⟩
      · rw [hsame] at hrow
        apply hσ.held w job hjob row hrow
      · rw [hclaimed] at hrow
        obtain rfl := Option.some.inj hrow
        apply hheld
  · intro w w' job hjob job' hjob' hid
    rcases phaseStep_of_step h w with ⟨hworker, hsame⟩ | ⟨hworker, db, phase, events, hstep, rfl⟩
    · rw [hsame] at hjob
      rcases phaseStep_of_step h w' with ⟨-, hsame'⟩ | ⟨hworker', db, phase, events, hstep, rfl⟩
      · rw [hsame'] at hjob'
        apply hσ.apart w w' job hjob job' hjob' hid
      · rw [System.after_phase_self] at hjob'
        exact (hσ.apart_of_claim hsound hleases hworker' hstep hjob' hjob hid.symm).symm
    · rw [System.after_phase_self] at hjob
      by_cases hw : w' = w
      · exact hw.symm
      · rw [System.after_phase_of_ne σ hw] at hjob'
        apply hσ.apart_of_claim hsound hleases hworker hstep hjob hjob' hid
  · intro w now job maxRunning claimed runnable hphase
    rcases phaseStep_of_step h w with ⟨-, hsame⟩ | ⟨-, db, phase, events, hstep, rfl⟩
    · rw [hsame] at hphase
      apply hσ.limits w now job maxRunning claimed runnable hphase
    · rw [System.after_phase_self] at hphase
      subst hphase
      generalize σ.phase w = before at hstep
      cases hstep with
      | withinProject hpolicy hproject hlimit => exact ⟨_, hpolicy, hlimit⟩

/-! ### Places -/

variable {scope : ConcurrencyScope} {limit : ℕ+} {jobs : Jobs}

/-- The jobs of the scope that are leased or running. -/
theorem mem_occupied {j : Id} :
  j ∈ scope.occupied jobs
    ↔ ∃ row, jobs.find? j = some row ∧ scope.covers row = true ∧ row.status.isActive = true
  := by
  simp [ConcurrencyScope.occupied, Table.mem_keys]

/-- The jobs that are leased or running. -/
theorem mem_activeJobs {j : Id} :
  j ∈ activeJobs jobs ↔ ∃ row, jobs.find? j = some row ∧ row.status.isActive = true
  := Table.mem_keys

/-- What counts against a limit is among the columns that no operation changes. -/
theorem covers_of_lineage {row job : JobRecord} (h : row.lineage = job.lineage) :
  scope.covers row = scope.covers job
  := by
  simp only [JobRecord.lineage, Prod.mk.injEq] at h
  cases scope <;> simp [ConcurrencyScope.covers, h]

/-- The policy is among the columns that no operation changes. -/
theorem carries_of_lineage {row job : JobRecord} (h : row.lineage = job.lineage) :
  row.carries env scope limit = job.carries env scope limit
  := by
  simp only [JobRecord.lineage, Prod.mk.injEq] at h
  simp [JobRecord.carries, h]

/-- The limit that is read from the policy of a job is the one that it carries. -/
theorem limit_of_carries {job : JobRecord} {policy : Option ResourcePolicy}
    (h : job.carries env scope limit = true)
    (hpolicy : policyFromJobMetadata env.modelValidate job.resourcePolicy = .ok policy) :
  scope.limit (concurrency policy) = some limit
  := by
  simp only [JobRecord.carries, hpolicy] at h
  apply of_decide_eq_true h

/-- The other active jobs of the kind of a job. -/
theorem card_erase_goblin {kind : String} {job : JobRecord} (h : job.kind = kind) :
  ((ConcurrencyScope.occupied (.goblin kind) jobs).erase job.id).card
    = countActiveJobs jobs job.kind job.id
  := by
  rw [ConcurrencyScope.occupied, Table.erase_keys, Table.card_keys, countActiveJobs, h]
  rfl

/-- The other active jobs of the project of a job. -/
theorem card_erase_project {projectId : Option Id} {job : JobRecord}
    (h : job.projectId = projectId) :
  ((ConcurrencyScope.occupied (.project projectId) jobs).erase job.id).card
    = countActiveProjectJobs jobs job.projectId job.id
  := by
  rw [ConcurrencyScope.occupied, Table.erase_keys, Table.card_keys, countActiveProjectJobs, h]
  rfl

/-- A job that carries the limit of its project leaves room for itself, when it passes the
check of the project. -/
theorem room_of_withinProject {projectId : Option Id} {db : Db} {job : JobRecord}
    {policy : Option ResourcePolicy} (hcovers : ConcurrencyScope.covers (.project projectId) job)
    (hcarries : job.carries env (.project projectId) limit = true)
    (hpolicy : policyFromJobMetadata env.modelValidate job.resourcePolicy = .ok policy)
    (hproject : WithinProject db job (concurrency policy)) :
  ((ConcurrencyScope.occupied (.project projectId) db.jobs).erase job.id).card < limit
  := by
  rw [card_erase_project (of_decide_eq_true hcovers)]
  apply hproject limit (limit_of_carries hcarries hpolicy)

/-- What passes a limit in a step has passed it before; or it is one job, the tables are left
alone, and when the job carries the limit there is room for it. -/
theorem WorkerStep.admitted {config : SchedulerConfig} {db db' : Db} {phase phase' : Phase}
    {events : List Event} (h : WorkerStep env config w db phase db' phase' events)
    (scope : ConcurrencyScope)
    (hlimits : ∀ now job maxRunning claimed runnable,
      phase = .checkKind now job maxRunning claimed runnable →
      ∃ policy, policyFromJobMetadata env.modelValidate job.resourcePolicy = .ok policy
        ∧ (concurrency policy).maxRunning = some maxRunning) :
  (∀ job ∈ phase'.admitted scope, job ∈ phase.admitted scope)
    ∨ ∃ job ∈ phase.checking, db' = db
      ∧ (∀ job' ∈ phase'.admitted scope, job' = job ∨ job' ∈ phase.admitted scope)
      ∧ ∀ limit : ℕ+, scope.covers job = true → job.carries env scope limit = true →
        ((scope.occupied db.jobs).erase job.id).card < limit
  := by
  cases h
  case withinProject now job claimed runnable policy maxRunning hpolicy hproject hlimit =>
    cases scope with
    | goblin kind => exact .inl (fun _ hjob => hjob)
    | project projectId =>
        right
        use job, by simp [Phase.checking], rfl, fun job' hjob' => List.mem_cons.mp hjob'
        intro limit hcovers hcarries
        apply room_of_withinProject hcovers hcarries hpolicy hproject
  case returnJob now job claimed runnable policy hpolicy hproject hlimit =>
    right
    use job, by simp [Phase.checking], rfl
    constructor
    · intro job' hjob'
      rw [or_comm]
      simpa [Phase.admitted] using hjob'
    · intro limit hcovers hcarries
      cases scope with
      | goblin kind =>
          have hsome := limit_of_carries hcarries hpolicy
          rw [ConcurrencyScope.limit, hlimit] at hsome
          cases hsome
      | project projectId => apply room_of_withinProject hcovers hcarries hpolicy hproject
  case returnWithinKind now job maxRunning claimed runnable hcount =>
    cases scope with
    | goblin kind =>
        right
        use job, by simp [Phase.checking], rfl
        constructor
        · intro job' hjob'
          rw [or_comm]
          simpa [Phase.admitted] using hjob'
        · intro limit hcovers hcarries
          obtain ⟨policy, hpolicy, hlimit⟩ := hlimits now job maxRunning claimed runnable rfl
          have hsome := limit_of_carries hcarries hpolicy
          rw [ConcurrencyScope.limit, hlimit] at hsome
          obtain rfl := Option.some.inj hsome
          rw [card_erase_goblin (of_decide_eq_true hcovers)]
          apply hcount
    | project projectId =>
        -- the job has passed the limit of its project before
        left
        intro job' hjob'
        simpa [Phase.admitted, or_comm] using hjob'
  case overProject => exact .inl (fun _ hjob => hjob)
  case overKind =>
    left
    intro job hjob
    cases scope with
    | goblin kind => apply hjob
    | project projectId => apply List.mem_cons_of_mem _ hjob
  case defer => exact .inl (fun _ hjob => hjob)
  -- the other steps leave no claim that has passed jobs
  all_goals
    left
    intro job hjob
    cases hjob

/-- The places of the scope: those that active jobs occupy, and among them those of the jobs
that have been returned and those that have passed the limit. -/
structure Admits (scope : ConcurrencyScope) (σ : System) (runnable : Finset Id)
    (places : Admission.Places Id limit) : Prop where
  occupied : places.occupied = scope.occupied σ.db.jobs
  returned : ∀ j ∈ runnable, j ∈ places.occupied → j ∈ places.admitted
  passed : ∀ w, ∀ job ∈ (σ.phase w).admitted scope, job.id ∈ places.occupied →
    job.id ∈ places.admitted

/-- A row that becomes active is claimed. -/
theorem JobStep.claimable_of_active {j : Id} {row row' : JobRecord}
    (h : JobStep σ a j (some row) (some row')) (hrows : OwnedRows σ)
    (hactive : row'.status.isActive = true) :
  row.status.isActive = true
    ∨ ∃ v now, a.worker = some v ∧ σ.phase v = .due now [] ∧ row.claimable now = true
  := by
  cases h with
  | keep => exact .inl hactive
  | claim hworker hphase hclaimable => exact .inr ⟨_, _, hworker, hphase, hclaimable⟩
  | renew hactive' howner => exact .inl hactive'
  | cancel hlive => cases hactive
  | mark hworker hphase hid hleased howner =>
      left
      rw [hleased]
      rfl
  | finalize hworker howns hstatus =>
      rw [JobRecord.release, hstatus] at hactive
      cases hactive
  | defer hworker hphase hid => cases hactive
  | reconcile hworker hphase hid =>
      have hterminal := RunStatus.isTerminal_iff.mpr (hrows.latest _ _ _ _ _ _ hphase)
      rw [← RunStatus.isTerminal_toJobStatus] at hterminal
      rw [JobRecord.release, JobStatus.not_isActive hterminal] at hactive
      cases hactive

/-- A job with a row that occupies a place after a step occupied it before, unless its row
is claimed in the step. -/
theorem occupied_of_step {config : WorkerId → SchedulerConfig} (hrows : OwnedRows σ)
    (hkeeps : a.keepsRows = true) (h : step env config σ a = some τ) {j : Id} {row : JobRecord}
    (hrow : σ.db.jobs.find? j = some row)
    (hlost : row.status.isActive = true ∨ ∀ v now, a.worker = some v → σ.phase v = .due now [] →
      row.claimable now = false)
    (hj : j ∈ scope.occupied τ.db.jobs) :
  j ∈ scope.occupied σ.db.jobs
  := by
  obtain ⟨row', hrow', hcovers, hactive⟩ := mem_occupied.mp hj
  have hstep := jobStep_of_step h j
  rw [hrow, hrow'] at hstep
  obtain ⟨_, hsome, hlineage⟩ := hstep.knows hkeeps
  obtain rfl := Option.some.inj hsome
  apply mem_occupied.mpr
  use row, hrow
  rw [← covers_of_lineage hlineage]
  use hcovers
  rcases hlost with hbefore | hunclaimed
  · apply hbefore
  · apply (hstep.claimable_of_active hrows hactive).resolve_right
    rintro ⟨v, now, hworker, hphase, hclaimable⟩
    rw [hunclaimed v now hworker hphase] at hclaimable
    cases hclaimable

/-- The invariants of runs under the limit. -/
structure LimitInvariant (env : Environment) (σ : System) : Prop where
  sound : SoundPhases σ
  copies : TrueCopies env σ
  rows : OwnedRows σ
  claims : ClaimsHeld env σ

/-- A step under the limit keeps the invariants. -/
theorem LimitInvariant.step {config : WorkerId → SchedulerConfig} (hσ : LimitInvariant env σ)
    (hleases : leasesLast σ a = true) (hkeeps : a.keepsRows = true)
    (h : step env config σ a = some τ) :
  LimitInvariant env τ
  := by
  constructor
  · apply hσ.sound.step h
  · apply hσ.copies.step hkeeps h
  · apply hσ.rows.step h
  · apply hσ.claims.step hσ.sound hσ.copies hσ.rows hleases h

/-- A job that has passed the limit in a claim that is still checking, and occupies a place
after a step, occupied it before. -/
theorem occupied_of_passed {config : WorkerId → SchedulerConfig} (hσ : LimitInvariant env σ)
    (hleases : leasesLast σ a = true) (hkeeps : a.keepsRows = true)
    (h : step env config σ a = some τ) {job : JobRecord} (hjob : job ∈ (σ.phase w).checking)
    (hj : job.id ∈ scope.occupied τ.db.jobs) :
  job.id ∈ scope.occupied σ.db.jobs
  := by
  obtain ⟨row, hrow, -⟩ := hσ.copies.known w job (known_of_checking hjob)
  apply occupied_of_step hσ.rows hkeeps h hrow _ hj
  right
  intro v now hworker hphase
  apply not_claimable_of_held hleases hworker hphase hrow (hσ.claims.held w job hjob row hrow)

/-- In a step of the system no job passes a limit; or one does, the tables are left alone, and
when the job carries the limit there is room for it. -/
theorem admitted_of_step {config : WorkerId → SchedulerConfig} (hclaims : ClaimsHeld env σ)
    (h : step env config σ a = some τ) (scope : ConcurrencyScope) :
  (∀ w, ∀ job ∈ (τ.phase w).admitted scope, job ∈ (σ.phase w).admitted scope)
    ∨ ∃ v, ∃ job ∈ (σ.phase v).checking, τ.db = σ.db
      ∧ (∀ w, ∀ job' ∈ (τ.phase w).admitted scope,
        job' = job ∨ job' ∈ (σ.phase w).admitted scope)
      ∧ ∀ limit : ℕ+, scope.covers job = true → job.carries env scope limit = true →
        ((scope.occupied σ.db.jobs).erase job.id).card < limit
  := by
  cases hworker : a.worker with
  | none =>
      left
      intro w job hjob
      rcases phaseStep_of_step h w with ⟨-, hsame⟩ | ⟨hw, -⟩
      · rw [← hsame]
        apply hjob
      · rw [hworker] at hw
        cases hw
  | some v =>
      rcases phaseStep_of_step h v with ⟨hother, -⟩ | ⟨-, db, phase, events, hstep, rfl⟩
      · cases hother hworker
      · have hothers : ∀ w, w ≠ v → ∀ job ∈ ((σ.after v db phase events).phase w).admitted scope,
            job ∈ (σ.phase w).admitted scope := by
          intro w hw job hjob
          rw [System.after_phase_of_ne σ hw] at hjob
          apply hjob
        rcases hstep.admitted scope (hclaims.limits v) with hnone | ⟨job, hjob, hdb, hone, hroom⟩
        · left
          intro w job hjob
          by_cases hw : w = v
          · subst hw
            rw [System.after_phase_self] at hjob
            apply hnone job hjob
          · apply hothers w hw job hjob
        · right
          use v, job, hjob, hdb
          refine ⟨?_, hroom⟩
          intro w job' hjob'
          by_cases hw : w = v
          · subst hw
            rw [System.after_phase_self] at hjob'
            apply hone job' hjob'
          · exact .inr (hothers w hw job' hjob')

/-- A job that a claim is checking, and that occupies a place, has room when it passes the
limit that all jobs of the scope carry. -/
theorem room_of_passed (hσ : LimitInvariant env σ)
    (hcarried : carriedByAll env scope limit σ = true) {job : JobRecord}
    (hjob : job ∈ (σ.phase w).checking) (hj : job.id ∈ scope.occupied σ.db.jobs)
    (hroom : ∀ limit : ℕ+, scope.covers job = true → job.carries env scope limit = true →
      ((scope.occupied σ.db.jobs).erase job.id).card < limit) :
  ((scope.occupied σ.db.jobs).erase job.id).card < limit
  := by
  obtain ⟨row, hrow, hcovers, -⟩ := mem_occupied.mp hj
  obtain ⟨_, hsome, hlineage⟩ := hσ.copies.known w job (known_of_checking hjob)
  rw [hrow] at hsome
  obtain rfl := Option.some.inj hsome
  have hcarries : row.carries env scope limit = true := by
    have hall := List.all_eq_true.mp hcarried row (Table.mem_of_find? hrow)
    rw [hcovers] at hall
    apply hall
  apply hroom limit
  · rw [← covers_of_lineage hlineage]
    apply hcovers
  · rw [← carries_of_lineage hlineage]
    apply hcarries

/-- After a step under the limit, the places have room for all jobs that have passed it. -/
theorem admits_passed {config : WorkerId → SchedulerConfig} (hσ : LimitInvariant env σ)
    (hguard : underLimit env scope limit σ a = true) (h : step env config σ a = some τ)
    {runnable : Finset Id} {places : Admission.Places Id limit}
    (hplaces : Admits scope σ runnable places) :
  ∃ places' : Admission.Places Id limit, places'.occupied = scope.occupied τ.db.jobs
    ∧ (∀ j ∈ places'.occupied, j ∈ places.admitted → j ∈ places'.admitted)
    ∧ ∀ w, ∀ job ∈ (τ.phase w).admitted scope, job.id ∈ places'.occupied →
      job.id ∈ places'.admitted
  := by
  simp only [underLimit, Bool.and_eq_true] at hguard
  obtain ⟨⟨hcarried, hleases⟩, hkeeps⟩ := hguard
  -- what had passed before is admitted still, as long as it occupies its place
  have hbefore : ∀ w, ∀ job ∈ (σ.phase w).admitted scope, job.id ∈ scope.occupied τ.db.jobs →
      job.id ∈ places.admitted := by
    intro w job hjob hj
    apply hplaces.passed w job hjob
    rw [hplaces.occupied]
    apply occupied_of_passed hσ hleases hkeeps h (checking_of_admitted hjob) hj
  rcases admitted_of_step hσ.claims h scope with hnone | ⟨v, job, hjob, hdb, hone, hroom⟩
  · use places.occupy (scope.occupied τ.db.jobs), rfl
    constructor
    · intro j hj hadmitted
      apply Admission.Places.mem_occupy.mpr ⟨hadmitted, hj⟩
    · intro w job hjob hj
      apply Admission.Places.mem_occupy.mpr ⟨hbefore w job (hnone w job hjob) hj, hj⟩
  · rw [hdb] at hbefore ⊢
    by_cases hj : job.id ∈ scope.occupied σ.db.jobs
    · have hroom' : (places.occupied.erase job.id).card < limit := by
        rw [hplaces.occupied]
        apply room_of_passed hσ hcarried hjob hj hroom
      use places.enter job.id hroom', hplaces.occupied
      constructor
      · intro j hj hadmitted
        apply Admission.Places.mem_enter.mpr ⟨.inr hadmitted, hj⟩
      · intro w job' hjob' hj'
        apply Admission.Places.mem_enter.mpr
        refine ⟨?_, hj'⟩
        rcases hone w job' hjob' with rfl | hjob'
        · exact .inl rfl
        · right
          apply hplaces.passed w job' hjob' hj'
    · use places, hplaces.occupied
      constructor
      · intro j _ hadmitted
        apply hadmitted
      · intro w job' hjob' hj'
        rcases hone w job' hjob' with rfl | hjob'
        · rw [hplaces.occupied] at hj'
          cases hj hj'
        · apply hplaces.passed w job' hjob' hj'

/-- A step under the limit keeps the places of the jobs that have been returned and of those
that have passed the limit. -/
theorem Admits.step {config : WorkerId → SchedulerConfig} {runnable : Finset Id}
    {places : Admission.Places Id limit} (hplaces : Admits scope σ runnable places)
    (hσ : LimitInvariant env σ) (hactive : runnable ⊆ activeJobs σ.db.jobs)
    (hguard : underLimit env scope limit σ a = true) (h : step env config σ a = some τ) :
  ∃ places' : Admission.Places Id limit, Admits scope τ (activeReturned σ a τ runnable) places'
  := by
  obtain ⟨places', hoccupied, hkept, hpassed⟩ := admits_passed hσ hguard h hplaces
  simp only [underLimit, Bool.and_eq_true] at hguard
  use places'
  constructor
  · apply hoccupied
  · intro j hj hplace
    simp only [activeReturned, Finset.mem_inter, Finset.mem_union, List.mem_toFinset,
      List.mem_map] at hj
    rcases hj.1 with ⟨job, hjob, rfl⟩ | hj
    · split at hjob
      · cases hjob
      · apply hpassed _ job (admitted_of_returned hjob) hplace
    · apply hkept j hplace
      apply hplaces.returned j hj
      obtain ⟨row, hrow, hrowActive⟩ := mem_activeJobs.mp (hactive hj)
      rw [hoccupied] at hplace
      rw [hplaces.occupied]
      apply occupied_of_step hσ.rows hguard.2 h hrow (.inl hrowActive) hplace
  · apply hpassed

end

/-- In every state of a run in which all jobs of a kind, or of a project, carry one limit and
in which no lease runs out, the jobs of the kind or the project that `claim_due_jobs` has
returned and that are leased or running since are no more than the limit. -/
theorem concurrency_limited (env : Environment) (config : WorkerId → SchedulerConfig)
    (scope : ConcurrencyScope) (limit : ℕ+) (σ : System) (runnable : Finset Id)
    (h : Transition.Path (Transition.withHistory (step env config) activeReturned)
      (fun s a => underLimit env scope limit s.1 a = true) (System.init, ∅) (σ, runnable)) :
  (runnable ∩ σ.db.jobs.keys scope.covers).card ≤ limit
  := by
  have hinvariant : LimitInvariant env σ ∧ runnable ⊆ activeJobs σ.db.jobs
      ∧ ∃ places : Admission.Places Id limit, Admits scope σ runnable places := by
    apply h.invariant (I := fun s => LimitInvariant env s.1 ∧ s.2 ⊆ activeJobs s.1.db.jobs
      ∧ ∃ places : Admission.Places Id limit, Admits scope s.1 s.2 places)
    · rintro ⟨σ, runnable⟩ a ⟨τ, runnable'⟩ ⟨hσ, hactive, places, hplaces⟩ hguard hnext
      obtain ⟨hstep, rfl⟩ := Transition.withHistory_eq_some.mp hnext
      refine ⟨?_, Finset.inter_subset_right, hplaces.step hσ hactive hguard hstep⟩
      simp only [underLimit, Bool.and_eq_true] at hguard
      apply hσ.step hguard.1.2 hguard.2 hstep
    · refine ⟨⟨soundPhases_init, trueCopies_init env, ownedRows_init, claimsHeld_init env⟩,
        Finset.empty_subset _, Admission.Places.empty, ?_⟩
      constructor
      · rfl
      · intro j hj
        cases hj
      · intro w job hjob
        cases hjob
  obtain ⟨-, hactive, places, hplaces⟩ := hinvariant
  apply (Finset.card_le_card _).trans places.card_le
  intro j hj
  obtain ⟨hj, hcovered⟩ := Finset.mem_inter.mp hj
  apply hplaces.returned j hj
  rw [hplaces.occupied, mem_occupied]
  obtain ⟨row, hrow, hrowActive⟩ := mem_activeJobs.mp (hactive hj)
  obtain ⟨_, hsome, hcovers⟩ := Table.mem_keys.mp hcovered
  rw [hrow] at hsome
  obtain rfl := Option.some.inj hsome
  use row, hrow, hcovers

/-- A job of the kind `report` with the limit of one running job of the kind. -/
def limitedJob (jobId : Id) : JobRecord where
  id := jobId
  kind := "report"
  createdAt := 0
  resourcePolicy := some Environment.oneRunning

/-- Two schedulers claim one job each; the job that is checked first is deferred, and the
other one is returned and marked running. -/
def deferredByTwo : List Action :=
  [.submit (limitedJob "a"), .scheduler "s1" (.begin 10), .scheduler "s1" .tick,
    .submit (limitedJob "b"), .scheduler "s2" (.begin 20), .scheduler "s2" .tick,
    .scheduler "s1" .tick, .scheduler "s1" .tick, .scheduler "s1" .tick,
    .scheduler "s2" .tick, .scheduler "s2" .tick, .scheduler "s2" .tick,
    .scheduler "s2" (.mark 30)]

/-- Of two jobs with a limit of one, one is returned and running. -/
theorem concurrency_limited_deferredByTwo :
  ∃ s, Transition.runUnder (Transition.withHistory (step Environment.sample sampleConfig)
      activeReturned) (fun s a => underLimit Environment.sample (.goblin "report") 1 s.1 a)
      (System.init, ∅) deferredByTwo = some s
    ∧ s.2 = {"b"} ∧ (s.2 ∩ s.1.db.jobs.keys (ConcurrencyScope.covers (.goblin "report"))).card ≤ 1
  := by
  have hreturned : (Transition.runUnder (Transition.withHistory
      (step Environment.sample sampleConfig) activeReturned)
      (fun s a => underLimit Environment.sample (.goblin "report") 1 s.1 a)
      (System.init, ∅) deferredByTwo).map (fun s => s.2) = some {"b"} := by decide +kernel
  obtain ⟨s, hrun, hreturned⟩ := Option.map_eq_some_iff.mp hreturned
  use s, hrun, hreturned
  apply concurrency_limited Environment.sample sampleConfig (.goblin "report") 1 s.1 s.2
  apply Transition.path_of_runUnder hrun

end GoblinKing
