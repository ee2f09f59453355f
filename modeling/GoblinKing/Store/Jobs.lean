import GoblinKing.Contracts
import Mathlib.Data.List.Sort

/-!
# The jobs table

The transactions of the store on the table of jobs. Each function is one transaction: it
takes the table before and returns what the caller gets together with the table after.
-/

namespace GoblinKing

/-- The table of jobs. -/
abbrev Jobs := Table JobRecord.id

/-- Insert one submitted job; `none` when its identifier is taken. -/
def saveJob (jobs : Jobs) (job : JobRecord) : Option Jobs :=
  jobs.insert? job

/-- Load one job by its identifier. -/
def getJob (jobs : Jobs) (jobId : Id) : Option JobRecord :=
  jobs.find? jobId

/-! ### Claiming -/

/-- A job is claimable when it waits, or when its lease has run out. -/
def JobRecord.claimable (now : Instant) (job : JobRecord) : Bool :=
  job.status == .queued || job.status == .retrying
    || (job.status.isActive && job.leasedUntil.any (· ≤ now))

/-- A job is due when it has no due time or its due time has come. -/
def JobRecord.due (now : Instant) (job : JobRecord) : Bool :=
  job.dueAt.all (· ≤ now)

/-- The order of claiming: higher priority first, then earlier creation. -/
def JobRecord.ClaimedBefore (a b : JobRecord) : Prop :=
  b.priority < a.priority ∨ (a.priority = b.priority ∧ a.createdAt ≤ b.createdAt)

instance : DecidableRel JobRecord.ClaimedBefore :=
  fun _ _ => inferInstanceAs (Decidable (_ ∨ _))

/-- The row of a job leased to a worker. -/
def JobRecord.lease (workerId : WorkerId) (leaseUntil : Instant) (job : JobRecord) : JobRecord :=
  { job with status := .leased, leaseOwner := some workerId, leasedUntil := some leaseUntil }

theorem JobRecord.lease_id (workerId : WorkerId) (leaseUntil : Instant) (job : JobRecord) :
  (job.lease workerId leaseUntil).id = job.id
  := rfl

/-- The rows the claim selects: claimable and due, in the order of claiming, up to the
limit. -/
def claimSelection (jobs : Jobs) (now : Instant) (limit : ℕ) : List JobRecord :=
  ((jobs.select (fun job => job.claimable now && job.due now)).insertionSort
    JobRecord.ClaimedBefore).take limit

/-- The loop of the claim over the selected rows. A row is claimed when the conditional
update finds it. -/
def claimRows (workerId : WorkerId) (now leaseUntil : Instant) :
    List JobRecord → Jobs → List JobRecord × Jobs
  | [], jobs => ([], jobs)
  | row :: rows, jobs =>
      let hit := fun job : JobRecord =>
        decide (job.id = row.id) && (job.claimable now && job.due now)
      let jobs' := jobs.update hit (JobRecord.lease workerId leaseUntil)
        (JobRecord.lease_id workerId leaseUntil)
      let rest := claimRows workerId now leaseUntil rows jobs'
      if jobs.count hit = 1 then
        (row.lease workerId leaseUntil :: rest.1, rest.2)
      else
        rest

/-- Lease due queued or retrying jobs, and active jobs whose lease has run out. -/
def claimDueJobs (jobs : Jobs) (workerId : WorkerId) (now leaseUntil : Instant) (limit : ℕ) :
    List JobRecord × Jobs :=
  claimRows workerId now leaseUntil (claimSelection jobs now limit) jobs

/-! ### Leases -/

/-- The deadline a renewal leaves: it is only ever moved later. -/
def extendedUntil (leasedUntil : Option Instant) (leaseUntil : Instant) : Option Instant :=
  match leasedUntil with
  | none => some leaseUntil
  | some t => if t < leaseUntil then some leaseUntil else some t

/-- The row of a job with its lease extended. -/
def JobRecord.renew (leaseUntil : Instant) (job : JobRecord) : JobRecord :=
  { job with leasedUntil := extendedUntil job.leasedUntil leaseUntil }

theorem JobRecord.renew_id (leaseUntil : Instant) (job : JobRecord) :
  (job.renew leaseUntil).id = job.id
  := rfl

/-- Extend an active lease only while the scheduler still owns it. -/
def tryRenewJobLease (jobs : Jobs) (jobId : Id) (expectedLeaseOwner : WorkerId)
    (leaseUntil : Instant) : Bool × Jobs :=
  let hit := fun job : JobRecord =>
    decide (job.id = jobId)
      && (job.status.isActive && decide (job.leaseOwner = some expectedLeaseOwner))
  (jobs.count hit == 1, jobs.update hit (JobRecord.renew leaseUntil)
    (JobRecord.renew_id leaseUntil))

/-- The row of a job marked running at an attempt. -/
def JobRecord.markRunning (attemptCount : ℕ) (job : JobRecord) : JobRecord :=
  { job with status := .running, attemptCount := attemptCount }

theorem JobRecord.markRunning_id (attemptCount : ℕ) (job : JobRecord) :
  (job.markRunning attemptCount).id = job.id
  := rfl

/-- Mark a job running only while the scheduler owns its lease. -/
def tryMarkJobRunning (jobs : Jobs) (jobId : Id) (attemptCount : ℕ)
    (expectedLeaseOwner : WorkerId) : Bool × Jobs :=
  let hit := fun job : JobRecord =>
    decide (job.id = jobId)
      && (job.status == .leased && decide (job.leaseOwner = some expectedLeaseOwner))
  (jobs.count hit == 1, jobs.update hit (JobRecord.markRunning attemptCount)
    (JobRecord.markRunning_id attemptCount))

/-! ### Counting active jobs -/

/-- Count the active jobs of one kind, other than one job. -/
def countActiveJobs (jobs : Jobs) (kind : String) (excludeJobId : Id) : ℕ :=
  jobs.count (fun job => (decide (job.kind = kind) && job.status.isActive)
    && !decide (job.id = excludeJobId))

/-- Count the active jobs of one project, other than one job. -/
def countActiveProjectJobs (jobs : Jobs) (projectId : Option Id) (excludeJobId : Id) : ℕ :=
  jobs.count (fun job => (decide (job.projectId = projectId) && job.status.isActive)
    && !decide (job.id = excludeJobId))

/-! ### Ending -/

/-- The row of a job that gives up its lease for a status. -/
def JobRecord.release (status : JobStatus) (lastError : Option String) (dueAt : Option Instant)
    (job : JobRecord) : JobRecord :=
  { job with
    status := status
    lastError := lastError
    leaseOwner := none
    leasedUntil := none
    dueAt := dueAt.or job.dueAt }

theorem JobRecord.release_id (status : JobStatus) (lastError : Option String)
    (dueAt : Option Instant) (job : JobRecord) :
  (job.release status lastError dueAt).id = job.id
  := rfl

/-- Finish or requeue a job. Neither the status nor the owner of the row is looked at. -/
def finishJob (jobs : Jobs) (jobId : Id) (status : JobStatus) (lastError : Option String)
    (dueAt : Option Instant) : Jobs :=
  jobs.update (fun job => decide (job.id = jobId)) (JobRecord.release status lastError dueAt)
    (JobRecord.release_id status lastError dueAt)

/-- The row of a job cancelled through the API. -/
def JobRecord.cancel (job : JobRecord) : JobRecord :=
  job.release .cancelled (some "cancelled by API") none

theorem JobRecord.cancel_id (job : JobRecord) :
  job.cancel.id = job.id
  := rfl

/-- Cancel a job that is not terminal, and report whether this call did it. -/
def tryCancelJob (jobs : Jobs) (jobId : Id) : (Option JobRecord × Bool) × Jobs :=
  let hit := fun job : JobRecord => decide (job.id = jobId) && !job.status.isTerminal
  let jobs' := jobs.update hit JobRecord.cancel JobRecord.cancel_id
  ((jobs'.find? jobId, jobs.count hit == 1), jobs')

/-! ### What each transaction leaves -/

/-- The claimed rows and the table after the loop of the claim: every selected row is
claimed, and no other row changes. -/
theorem claimRows_spec (workerId : WorkerId) (now leaseUntil : Instant) :
    ∀ (rows : List JobRecord) (jobs : Jobs), (rows.map JobRecord.id).Nodup →
      (∀ row ∈ rows, jobs.find? row.id = some row ∧ row.claimable now ∧ row.due now) →
      (claimRows workerId now leaseUntil rows jobs).1 = rows.map (JobRecord.lease workerId leaseUntil)
      ∧ ∀ j, (claimRows workerId now leaseUntil rows jobs).2.find? j
        = (jobs.find? j).map (fun r => if r ∈ rows then r.lease workerId leaseUntil else r)
  | [], jobs, _, _ => by simp [claimRows]
  | row :: rows, jobs, hnodup, hrows => by
      obtain ⟨hid, hnodup⟩ := List.nodup_cons.mp hnodup
      obtain ⟨hfind, hclaimable, hdue⟩ := hrows row List.mem_cons_self
      have hcount : jobs.count (fun job =>
          decide (job.id = row.id) && (job.claimable now && job.due now)) = 1 := by
        apply Table.count_key_eq_one.mpr
        use row, hfind
        simp [hclaimable, hdue]
      -- the update of this row leaves the rows still to be claimed as they were selected
      have hrest : ∀ s ∈ rows, (jobs.update (fun job =>
          decide (job.id = row.id) && (job.claimable now && job.due now))
          (JobRecord.lease workerId leaseUntil)
          (JobRecord.lease_id workerId leaseUntil)).find? s.id = some s
          ∧ s.claimable now ∧ s.due now := by
        intro s hs
        obtain ⟨hfs, hcs⟩ := hrows s (List.mem_cons_of_mem _ hs)
        have hne : s.id ≠ row.id := by
          intro h
          apply hid
          rw [← h]
          apply List.mem_map_of_mem hs
        constructor
        · rw [Table.find?_update, hfs]
          simp [hne]
        · apply hcs
      obtain ⟨hfst, hsnd⟩ := claimRows_spec workerId now leaseUntil rows _ hnodup hrest
      simp only [claimRows, hcount, if_true, hfst, hsnd, Table.find?_update]
      constructor
      · rfl
      · intro j
        cases hj : jobs.find? j with
        | none => rfl
        | some r =>
            obtain ⟨hr, rfl⟩ := Table.find?_eq_some.mp hj
            by_cases hrow : r.id = row.id
            · obtain rfl : r = row := by
                rw [hrow, hfind] at hj
                apply (Option.some.inj hj).symm
              have hleased : r.lease workerId leaseUntil ∉ rows := by
                intro h
                apply hid
                apply List.mem_map.mpr
                use r.lease workerId leaseUntil, h
                rfl
              simp [hclaimable, hdue, hleased]
            · have hne : r ≠ row := fun h => hrow (congrArg JobRecord.id h)
              simp [hrow, hne]

/-- The selection of the claim consists of rows of the table that are claimable and due. -/
theorem mem_claimSelection {jobs : Jobs} {now : Instant} {limit : ℕ} {job : JobRecord}
    (h : job ∈ claimSelection jobs now limit) :
  jobs.find? job.id = some job ∧ job.claimable now ∧ job.due now
  := by
  have h' := List.mem_of_mem_take h
  simp only [List.mem_insertionSort, Table.select, List.mem_filter, Bool.and_eq_true] at h'
  obtain ⟨hmem, hjob⟩ := h'
  use Table.find?_of_mem hmem

/-- The selection of the claim has no two rows of one job. -/
theorem nodup_claimSelection (jobs : Jobs) (now : Instant) (limit : ℕ) :
  ((claimSelection jobs now limit).map JobRecord.id).Nodup
  := by
  apply List.Nodup.sublist ((List.take_sublist _ _).map _)
  apply ((List.perm_insertionSort _ _).map _).nodup_iff.mpr
  apply jobs.nodup.sublist (List.filter_sublist.map _)

/-- The claim returns the selected rows, leased. -/
theorem claimDueJobs_fst (jobs : Jobs) (workerId : WorkerId) (now leaseUntil : Instant)
    (limit : ℕ) :
  (claimDueJobs jobs workerId now leaseUntil limit).1
    = (claimSelection jobs now limit).map (JobRecord.lease workerId leaseUntil)
  := (claimRows_spec workerId now leaseUntil _ jobs (nodup_claimSelection jobs now limit)
      (fun _ h => mem_claimSelection h)).1

/-- The claim leases the selected rows and leaves the others. -/
theorem find?_claimDueJobs (jobs : Jobs) (workerId : WorkerId) (now leaseUntil : Instant)
    (limit : ℕ) (j : Id) :
  (claimDueJobs jobs workerId now leaseUntil limit).2.find? j
    = (jobs.find? j).map (fun r =>
        if r ∈ claimSelection jobs now limit then r.lease workerId leaseUntil else r)
  := (claimRows_spec workerId now leaseUntil _ jobs (nodup_claimSelection jobs now limit)
      (fun _ h => mem_claimSelection h)).2 j

/-- The claim returns a job when it selects its row, and returns the leased row. -/
theorem find?_claimed (jobs : Jobs) (workerId : WorkerId) (now leaseUntil : Instant)
    (limit : ℕ) (j : Id) :
  (claimDueJobs jobs workerId now leaseUntil limit).1.find? (fun job => job.id = j)
    = (jobs.find? j).bind (fun r =>
        if r ∈ claimSelection jobs now limit then some (r.lease workerId leaseUntil) else none)
  := by
  rw [claimDueJobs_fst, List.find?_map]
  cases hselected : (claimSelection jobs now limit).find?
      ((fun job => decide (job.id = j)) ∘ JobRecord.lease workerId leaseUntil) with
  | some row =>
      have hmem := List.mem_of_find?_eq_some hselected
      have hid : row.id = j := by
        have htrue := List.find?_some hselected
        exact of_decide_eq_true htrue
      rw [← hid, (mem_claimSelection hmem).1, Option.bind_some, if_pos hmem, Option.map_some]
  | none =>
      rw [List.find?_eq_none] at hselected
      cases hrow : jobs.find? j with
      | none => rfl
      | some row =>
          have hmem : row ∉ claimSelection jobs now limit := by
            intro hmem
            have hne := hselected row hmem
            simp [JobRecord.lease, Table.key_of_find? hrow] at hne
          rw [Option.bind_some, if_neg hmem, Option.map_none]

/-- The claim returns at most as many jobs as its limit. -/
theorem length_claimDueJobs_le (jobs : Jobs) (workerId : WorkerId) (now leaseUntil : Instant)
    (limit : ℕ) :
  (claimDueJobs jobs workerId now leaseUntil limit).1.length ≤ limit
  := by
  rw [claimDueJobs_fst, List.length_map]
  apply List.length_take_le

/-- A renewal extends the lease of the job it names while the worker owns it. -/
theorem find?_tryRenewJobLease (jobs : Jobs) (jobId : Id) (w : WorkerId) (leaseUntil : Instant)
    (j : Id) :
  (tryRenewJobLease jobs jobId w leaseUntil).2.find? j
    = (jobs.find? j).map (fun r =>
        if r.id = jobId ∧ r.status.isActive = true ∧ r.leaseOwner = some w then
          r.renew leaseUntil
        else r)
  := by
  simp [tryRenewJobLease]

/-- Marking succeeds when the job is leased to the worker. -/
theorem tryMarkJobRunning_fst {jobs : Jobs} {jobId : Id} {attemptCount : ℕ} {w : WorkerId} :
  (tryMarkJobRunning jobs jobId attemptCount w).1 = true
    ↔ ∃ r, jobs.find? jobId = some r ∧ r.status = .leased ∧ r.leaseOwner = some w
  := by
  simp [tryMarkJobRunning, Table.count_key_beq_one, Option.any_eq_true]

/-- Marking changes the job it names, when that is leased to the worker. -/
theorem find?_tryMarkJobRunning (jobs : Jobs) (jobId : Id) (attemptCount : ℕ) (w : WorkerId)
    (j : Id) :
  (tryMarkJobRunning jobs jobId attemptCount w).2.find? j
    = (jobs.find? j).map (fun r =>
        if r.id = jobId ∧ r.status = .leased ∧ r.leaseOwner = some w then
          r.markRunning attemptCount
        else r)
  := by
  simp [tryMarkJobRunning]

/-- Marking that fails changes nothing. -/
theorem find?_of_not_marked {jobs jobs' : Jobs} {jobId : Id} {attemptCount : ℕ} {w : WorkerId}
    (h : tryMarkJobRunning jobs jobId attemptCount w = (false, jobs')) (j : Id) :
  jobs'.find? j = jobs.find? j
  := by
  have hfind := find?_tryMarkJobRunning jobs jobId attemptCount w j
  have hfst := congrArg Prod.fst h
  rw [h] at hfind
  rw [hfind]
  cases hrow : jobs.find? j with
  | none => rfl
  | some row =>
      rw [Option.map_some, if_neg]
      rintro ⟨hid, hleased, howner⟩
      have hrow' : jobs.find? jobId = some row := by
        rw [← hid, Table.key_of_find? hrow, hrow]
      have htrue : (tryMarkJobRunning jobs jobId attemptCount w).1 = true := by
        apply tryMarkJobRunning_fst.mpr
        use row, hrow', hleased, howner
      rw [hfst] at htrue
      cases htrue

/-- Finishing releases the job it names, whatever its state. -/
theorem find?_finishJob (jobs : Jobs) (jobId : Id) (status : JobStatus)
    (lastError : Option String) (dueAt : Option Instant) (j : Id) :
  (finishJob jobs jobId status lastError dueAt).find? j
    = (jobs.find? j).map (fun r =>
        if r.id = jobId then r.release status lastError dueAt else r)
  := by
  simp [finishJob]

/-- A cancellation changes the job it names, unless that is terminal. -/
theorem find?_tryCancelJob (jobs : Jobs) (jobId : Id) (j : Id) :
  (tryCancelJob jobs jobId).2.find? j
    = (jobs.find? j).map (fun r =>
        if r.id = jobId ∧ r.status.isTerminal = false then r.cancel else r)
  := by
  simp [tryCancelJob]

/-- A renewal never moves a deadline to an earlier instant. -/
theorem le_extendedUntil {leasedUntil : Option Instant} {t : Instant}
    (h : leasedUntil = some t) (leaseUntil : Instant) :
  ∃ t', extendedUntil leasedUntil leaseUntil = some t' ∧ t ≤ t'
  := by
  subst h
  unfold extendedUntil
  dsimp only
  split
  case isTrue h =>
    use leaseUntil, rfl
    apply h.le
  case isFalse => use t

end GoblinKing
