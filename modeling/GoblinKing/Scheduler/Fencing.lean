import GoblinKing.Scheduler.Leases
import GoblinKing.Scheduler.Terminal

/-!
# Fencing

What the leases of jobs guarantee to schedulers that run at the same time, lose their leases
and go on regardless: a finalization changes a job only for the attempt that owns it, no
attempt is finalized twice, attempt counts never decrease, a lease that has not run out is
not taken away, and renewals move deadlines to later instants only.
-/

namespace GoblinKing

section

variable {env : Environment} {config : WorkerId → SchedulerConfig} {σ τ : System}

/-- Owners and statuses are in step in every state that is reached. -/
theorem ownedRows_of_retained (h : Retained env config System.init σ) : OwnedRows σ
  := h.invariant (fun _ _ _ hσ _ hstep => hσ.step hstep) ownedRows_init

/-- A finalization that changes the row of a job is by the owner of the row, for the attempt
that the row is at. -/
theorem ownsAttempt_of_changed {jobs jobs' : Jobs} {runs runs' : Runs} {run : RunRecord}
    {status : JobStatus} {lastError : Option String} {dueAt : Option Instant} {w : WorkerId}
    {finalization : AttemptFinalization} {j : Id}
    (h : finalizeAttempt jobs runs run status lastError dueAt w
      = .ok (finalization, jobs', runs')) (hchanged : jobs'.find? j ≠ jobs.find? j) :
  j = run.jobId ∧ ∃ row, jobs.find? j = some row ∧ row.leaseOwner = some w
    ∧ ((row.status = .running ∧ row.attemptCount = run.attempt)
      ∨ (row.status = .leased ∧ row.attemptCount + 1 = run.attempt))
  := by
  obtain ⟨row, hrow, -, -, ⟨howns, -, rfl⟩ | ⟨-, -, rfl⟩⟩ := finalizeAttempt_ok h
  · have hj : j = run.jobId := by
      by_contra hne
      apply hchanged
      rw [find?_finishJob]
      cases hfind : jobs.find? j with
      | none => rfl
      | some r =>
          have hr : r.id ≠ run.jobId := fun hid => hne ((Table.key_of_find? hfind).symm.trans hid)
          simp [hr]
    subst hj
    use rfl, row, hrow
    simpa [JobRecord.ownsAttempt] using howns
  · cases hchanged rfl

/-- No attempt of a job is finalized twice. -/
theorem count_finalized_le_one (h : Retained env config System.init σ) (j : Id) (attempt : ℕ) :
  σ.log.count (.finalized j attempt) ≤ 1
  := by
  have hcount : σ.log.count (.finalized j attempt) ≤ (settledAttempts j σ.log).count attempt := by
    induction σ.log with
    | nil => apply Nat.le_refl
    | cons event log ih =>
        by_cases hevent : event = .finalized j attempt
        · subst hevent
          simpa [settledAttempts] using ih
        · rw [List.count_cons_of_ne hevent]
          apply le_trans ih
          apply List.Sublist.count_le
          apply List.Sublist.filterMap
          apply List.sublist_cons_self
  apply le_trans hcount
  apply List.nodup_iff_count_le_one.mp
  apply (leaseInvariant_of_retained h j).settled_nodup

/-- The attempt count of a job never decreases. -/
theorem attempts_le_of_retained (h : Retained env config System.init σ)
    (hτ : Retained env config σ τ) (j : Id) :
  attemptsOf (σ.db.jobs.find? j) ≤ attemptsOf (τ.db.jobs.find? j)
  := by
  obtain ⟨hsound, -⟩ := lease_of_retained h soundPhases_init j
  obtain ⟨-, hreaches⟩ := lease_of_retained hτ hsound j
  apply Lease.epoch_le_of_reaches hreaches (leaseInvariant_of_retained h j)

/-- A claim does not select a job that has an owner and a deadline that is still to come. -/
theorem notMem_claimSelection {jobs : Jobs} {now t : Instant} {limit : ℕ} {row : JobRecord}
    (hactive : row.status.isActive = true) (huntil : row.leasedUntil = some t) (ht : now < t) :
  row ∉ claimSelection jobs now limit
  := by
  intro hmem
  obtain ⟨-, hclaimable, -⟩ := mem_claimSelection hmem
  simp only [JobRecord.claimable, huntil, Option.any_some, Bool.or_eq_true, Bool.and_eq_true,
    beq_iff_eq, decide_eq_true_eq] at hclaimable
  rcases hclaimable with (h | h) | ⟨-, h⟩
  · rw [h] at hactive
    cases hactive
  · rw [h] at hactive
    cases hactive
  · apply not_le.mpr ht h

/-- A renewal leaves every deadline where it is or moves it to a later instant. -/
theorem leasedUntil_le_of_renewal {jobs : Jobs} {jobId j : Id} {w : WorkerId}
    {leaseUntil t : Instant} {row : JobRecord} (hrow : jobs.find? j = some row)
    (huntil : row.leasedUntil = some t) :
  ∃ row' t', (tryRenewJobLease jobs jobId w leaseUntil).2.find? j = some row'
    ∧ row'.leasedUntil = some t' ∧ t ≤ t'
  := by
  rw [find?_tryRenewJobLease, hrow, Option.map_some]
  split
  · obtain ⟨t', ht', hle⟩ := le_extendedUntil huntil leaseUntil
    use row.renew leaseUntil, t', rfl, ht', hle
  · use row, t

/-- In every state that any schedulers, renewals and cancellations reach without deleting
rows: (a) a finalization changes a row only for its owner and at exactly its attempt; (b)
every attempt of a job has been finalized at most once; (c) the attempt counts do not
decrease from here on; (d) a claim takes no job from an owner whose deadline is later than
the claimer's clock; (e) a renewal makes no deadline earlier. -/
theorem lease_fencing (env : Environment) (config : WorkerId → SchedulerConfig) (σ : System)
    (h : Retained env config System.init σ) :
  (∀ run status lastError dueAt w finalization jobs runs j,
      finalizeAttempt σ.db.jobs σ.db.runs run status lastError dueAt w
        = .ok (finalization, jobs, runs) →
      jobs.find? j ≠ σ.db.jobs.find? j →
      j = run.jobId ∧ ∃ row, σ.db.jobs.find? j = some row ∧ row.leaseOwner = some w
        ∧ ((row.status = .running ∧ row.attemptCount = run.attempt)
          ∨ (row.status = .leased ∧ row.attemptCount + 1 = run.attempt)))
    ∧ (∀ j attempt, σ.log.count (.finalized j attempt) ≤ 1)
    ∧ (∀ τ j row row', Retained env config σ τ → σ.db.jobs.find? j = some row →
        τ.db.jobs.find? j = some row' → row.attemptCount ≤ row'.attemptCount)
    ∧ (∀ j row owner t w now leaseUntil limit, σ.db.jobs.find? j = some row →
        row.leaseOwner = some owner → row.leasedUntil = some t → now < t →
        (claimDueJobs σ.db.jobs w now leaseUntil limit).2.find? j = some row
          ∧ ∀ job ∈ (claimDueJobs σ.db.jobs w now leaseUntil limit).1, job.id ≠ j)
    ∧ (∀ j row t jobId w leaseUntil, σ.db.jobs.find? j = some row → row.leasedUntil = some t →
        ∃ row' t', (tryRenewJobLease σ.db.jobs jobId w leaseUntil).2.find? j = some row'
          ∧ row'.leasedUntil = some t' ∧ t ≤ t')
  := by
  constructor
  · intro run status lastError dueAt w finalization jobs runs j hfinalize hchanged
    apply ownsAttempt_of_changed hfinalize hchanged
  constructor
  · apply count_finalized_le_one h
  constructor
  · intro τ j row row' hτ hrow hrow'
    have hle := attempts_le_of_retained h hτ j
    rw [hrow, hrow'] at hle
    apply hle
  constructor
  · intro j row owner t w now leaseUntil limit hrow howner huntil ht
    have hactive : row.status.isActive = true := by
      rw [← (ownedRows_of_retained h).owned j row hrow, howner]
      rfl
    have hnot : row ∉ claimSelection σ.db.jobs now limit :=
      notMem_claimSelection hactive huntil ht
    constructor
    · rw [find?_claimDueJobs, hrow, Option.map_some, if_neg hnot]
    · intro job hjob hid
      have hnone := find?_claimed σ.db.jobs w now leaseUntil limit j
      rw [hrow, Option.bind_some, if_neg hnot, List.find?_eq_none] at hnone
      apply hnone job hjob (by simpa using hid)
  · intro j row t jobId w leaseUntil hrow huntil
    apply leasedUntil_le_of_renewal hrow huntil

end

/-- A job is claimed, started and finished by one scheduler. -/
def finishedByOne : List Action :=
  [.submit { id := "a", kind := "report", createdAt := 0 },
    .scheduler "s1" (.begin 10), .scheduler "s1" .tick, .scheduler "s1" .tick,
    .scheduler "s1" .tick, .scheduler "s1" (.mark 11), .scheduler "s1" (.start "r"),
    .scheduler "s1" (.finish ⟨.success, none⟩ 5 none 20)]

/-- The guarantees hold after a run in which an attempt has been finalized. -/
theorem lease_fencing_finishedByOne :
  ∃ σ, sampleRun finishedByOne = some σ ∧ σ.log.count (.finalized "a" 1) = 1
    ∧ ∀ j attempt, σ.log.count (.finalized j attempt) ≤ 1
  := by
  have hlog : (sampleRun finishedByOne).map (fun σ => σ.log.count (.finalized "a" 1)) = some 1 := by
    decide +kernel
  obtain ⟨σ, hrun, hcount⟩ := Option.map_eq_some_iff.mp hlog
  use σ, hrun, hcount
  have hretained : Retained Environment.sample sampleConfig System.init σ :=
    Transition.path_of_run_forall hrun (by decide)
  apply (lease_fencing Environment.sample sampleConfig σ hretained).2.1

end GoblinKing
