import GoblinKing.Scheduler.Holding
import GoblinKing.Scheduler.RunRows

/-!
# What schedulers know

The records that a scheduler carries through its pass are copies of rows that other parties
may have changed since. What no transaction changes is still as it was copied: the kind, the
project and the policy of a job. And the policy of a job that has passed the loop of the
claim has been read without an error.
-/

namespace GoblinKing

/-- The job has a row, with the columns that no operation changes. -/
def Knows (jobs : Jobs) (job : JobRecord) : Prop :=
  ∃ row, jobs.find? job.id = some row ∧ row.lineage = job.lineage

/-- The policy in the metadata of a job is absent or valid. -/
def JobRecord.hasPolicy (env : Environment) (job : JobRecord) : Bool :=
  (policyFromJobMetadata env.modelValidate job.resourcePolicy).isOk

/-- The copies of job rows that a scheduler carries. -/
def Phase.known (phase : Phase) : List JobRecord :=
  phase.held ++ phase.inspected.toList

/-- The jobs whose policy has been read. -/
def Phase.checked : Phase → List JobRecord
  | .check _ _ runnable => runnable
  | .checkKind _ job _ _ runnable => job :: runnable
  | .defer _ _ _ _ runnable => runnable
  | phase => phase.held

/-- A policy is valid when reading it returns one. -/
theorem hasPolicy_iff {env : Environment} {job : JobRecord} :
  job.hasPolicy env = true
    ↔ ∃ policy, policyFromJobMetadata env.modelValidate job.resourcePolicy = .ok policy
  := Except.isOk_eq_true

section

variable {env : Environment} {σ τ : System} {a : Action}

/-- A change of a row that does not delete it keeps the columns that no operation changes. -/
theorem JobStep.knows {j : Id} {row : JobRecord} {row' : Option JobRecord}
    (h : JobStep σ a j (some row) row') (hkeeps : a.keepsRows = true) :
  ∃ r, row' = some r ∧ r.lineage = row.lineage
  := by
  cases h with
  | keep => use row
  | claim => exact ⟨_, rfl, rfl⟩
  | renew => exact ⟨_, rfl, rfl⟩
  | cancel => exact ⟨_, rfl, rfl⟩
  | mark => exact ⟨_, rfl, rfl⟩
  | finalize => exact ⟨_, rfl, rfl⟩
  | defer => exact ⟨_, rfl, rfl⟩
  | reconcile => exact ⟨_, rfl, rfl⟩
  | delete hcleanup =>
      rw [hkeeps] at hcleanup
      cases hcleanup

/-- What is known of a job stays true as long as no row is deleted. -/
theorem Knows.step {config : WorkerId → SchedulerConfig} {job : JobRecord}
    (h : Knows σ.db.jobs job) (hkeeps : a.keepsRows = true)
    (hstep : step env config σ a = some τ) :
  Knows τ.db.jobs job
  := by
  obtain ⟨row, hrow, hlineage⟩ := h
  have hjob := jobStep_of_step hstep job.id
  rw [hrow] at hjob
  obtain ⟨row', hrow', hlineage'⟩ := hjob.knows hkeeps
  use row', hrow', hlineage'.trans hlineage

/-- The jobs that a claim returns are known. -/
theorem knows_of_claimDueJobs {jobs jobs' : Jobs} {w : WorkerId} {now leaseUntil : Instant}
    {limit : ℕ} {claimed : List JobRecord}
    (h : claimDueJobs jobs w now leaseUntil limit = (claimed, jobs')) {job : JobRecord}
    (hjob : job ∈ claimed) :
  jobs'.find? job.id = some job
  := by
  have hclaimed := claimDueJobs_fst jobs w now leaseUntil limit
  have hfind := find?_claimDueJobs jobs w now leaseUntil limit
  rw [h] at hclaimed hfind
  dsimp only at hclaimed hfind
  rw [hclaimed] at hjob
  obtain ⟨row, hrow, rfl⟩ := List.mem_map.mp hjob
  rw [hfind, JobRecord.lease_id, (mem_claimSelection hrow).1, Option.map_some, if_pos hrow]

section

variable {config : SchedulerConfig} {w : WorkerId} {db db' : Db} {phase phase' : Phase}
  {events : List Event}

/-- What a scheduler knows after a step it has known before, or has just read. -/
theorem WorkerStep.known (h : WorkerStep env config w db phase db' phase' events)
    {job : JobRecord} (hjob : job ∈ phase'.known) :
  job ∈ phase.known ∨ Knows db'.jobs job
  := by
  cases h
  case claim hclaim =>
    right
    use job
    constructor
    · apply knows_of_claimDueJobs hclaim
      simpa [Phase.known, Phase.held, Phase.current, Phase.pending, Phase.inspected] using hjob
    · rfl
  case recover hrow =>
    simp only [Phase.known, Phase.held, Phase.current, Phase.pending, Phase.inspected,
      Option.toList_some, List.mem_append, List.mem_singleton] at hjob ⊢
    rcases hjob with hjob | rfl
    · left
      left
      apply hjob
    · right
      use job
      constructor
      · rw [Table.key_of_find? hrow, hrow]
      · rfl
  all_goals
    left
    simp only [Phase.known, Phase.held, Phase.current, Phase.pending, Phase.inspected,
      Option.toList_some, Option.toList_none, List.mem_append, List.mem_cons,
      List.not_mem_nil] at hjob ⊢
    tauto

/-- A job whose policy has been read after a step, was so before or its policy is valid. -/
theorem WorkerStep.checked (h : WorkerStep env config w db phase db' phase' events)
    {job : JobRecord} (hjob : job ∈ phase'.checked) :
  job ∈ phase.checked ∨ job.hasPolicy env = true
  := by
  cases h
  case withinProject hpolicy hproject hlimit =>
    rcases List.mem_cons.mp hjob with rfl | hjob
    · right
      apply hasPolicy_iff.mpr ⟨_, hpolicy⟩
    · left
      apply hjob
  case returnJob hpolicy hproject hlimit =>
    rcases List.mem_append.mp hjob with hjob | hjob
    · left
      apply hjob
    · obtain rfl := List.mem_singleton.mp hjob
      right
      apply hasPolicy_iff.mpr ⟨_, hpolicy⟩
  all_goals
    left
    simp only [Phase.checked, Phase.held, Phase.current, Phase.pending, Option.toList_some,
      Option.toList_none, List.mem_append, List.mem_cons, List.not_mem_nil] at hjob ⊢
    try tauto

end

/-- The copies that schedulers carry are true to the table in what no operation changes, and
the policies that have been read are valid. -/
structure TrueCopies (env : Environment) (σ : System) : Prop where
  known : ∀ w, ∀ job ∈ (σ.phase w).known, Knows σ.db.jobs job
  checked : ∀ w, ∀ job ∈ (σ.phase w).checked, job.hasPolicy env = true

/-- Before the first step no scheduler carries a copy. -/
theorem trueCopies_init (env : Environment) : TrueCopies env System.init
  := by
  constructor
  · intro w job hjob
    cases hjob
  · intro w job hjob
    cases hjob

/-- A step that deletes no row keeps the copies true. -/
theorem TrueCopies.step {config : WorkerId → SchedulerConfig} (hσ : TrueCopies env σ)
    (hkeeps : a.keepsRows = true) (h : step env config σ a = some τ) :
  TrueCopies env τ
  := by
  constructor
  · intro w job hjob
    rcases phaseStep_of_step h w with ⟨-, hsame⟩ | ⟨-, db, phase, events, hstep, rfl⟩
    · rw [hsame] at hjob
      apply (hσ.known w job hjob).step hkeeps h
    · rw [System.after_phase_self] at hjob
      rcases hstep.known hjob with hjob | hknows
      · apply (hσ.known w job hjob).step hkeeps h
      · apply hknows
  · intro w job hjob
    rcases phaseStep_of_step h w with ⟨-, hsame⟩ | ⟨-, db, phase, events, hstep, rfl⟩
    · rw [hsame] at hjob
      apply hσ.checked w job hjob
    · rw [System.after_phase_self] at hjob
      rcases hstep.checked hjob with hjob | hpolicy
      · apply hσ.checked w job hjob
      · apply hpolicy

/-! ### The lineage of runs -/

/-- Every run is of the kind and the project of its job. -/
def RunsOfJobs (σ : System) : Prop :=
  ∀ k run, σ.db.runs.find? k = some run →
    ∃ row, σ.db.jobs.find? run.jobId = some row ∧ run.lineage = row.runLineage run.attempt

/-- A run of a job that is known has the lineage of a run of its row. -/
theorem Knows.runLineage {jobs : Jobs} {job : JobRecord} {run : RunRecord} {attempt : ℕ}
    (h : Knows jobs job) (hrun : run.lineage = job.runLineage attempt) :
  ∃ row, jobs.find? run.jobId = some row ∧ run.lineage = row.runLineage run.attempt
  := by
  obtain ⟨row, hrow, hlineage⟩ := h
  simp only [JobRecord.lineage, Prod.mk.injEq] at hlineage
  simp only [RunRecord.lineage, JobRecord.runLineage, Prod.mk.injEq] at hrun ⊢
  use row
  rw [hrun.1, hrow]
  simp [hrun, hlineage]

/-- A run that is inserted is of the kind and the project of its job. -/
theorem RunOrigin.runOfJob {w : WorkerId} {run : RunRecord} (h : RunOrigin σ w run)
    (hσ : TrueCopies env σ) :
  ∃ row, σ.db.jobs.find? run.jobId = some row ∧ run.lineage = row.runLineage run.attempt
  := by
  have hknown := hσ.known w
  cases h with
  | marked hphase hlineage =>
      apply (hknown _ _).runLineage hlineage
      rw [hphase]
      apply List.mem_cons_self
  | started hphase hlineage =>
      apply (hknown _ _).runLineage hlineage
      rw [hphase]
      apply List.mem_cons_self
  | fail hphase hid hlineage =>
      apply (hknown _ _).runLineage hlineage
      rw [hphase]
      simp [Phase.known, Phase.inspected]

/-- A step that deletes no row keeps the runs of the kind and the project of their jobs. -/
theorem RunsOfJobs.step {config : WorkerId → SchedulerConfig} (hσ : RunsOfJobs σ)
    (hcopies : TrueCopies env σ) (hkeeps : a.keepsRows = true)
    (h : step env config σ a = some τ) :
  RunsOfJobs τ
  := by
  -- the row of the job is kept by the step
  have hrow : ∀ run : RunRecord, (∃ row, σ.db.jobs.find? run.jobId = some row
      ∧ run.lineage = row.runLineage run.attempt) →
      ∃ row, τ.db.jobs.find? run.jobId = some row ∧ run.lineage = row.runLineage run.attempt := by
    rintro run ⟨row, hrow, hlineage⟩
    have hknows : Knows τ.db.jobs row := by
      have hbefore : Knows σ.db.jobs row := by
        use row
        rw [Table.key_of_find? hrow]
        exact ⟨hrow, rfl⟩
      apply hbefore.step hkeeps h
    apply hknows.runLineage hlineage
  have hruns := runStep_of_step h
  intro k run hrun
  generalize τ.db.runs = runs' at hruns hrun
  cases hruns with
  | keep => apply hrow run (hσ k run hrun)
  | @insert _ new w hworker hnew hfind horigin =>
      rw [hfind] at hrun
      split at hrun
      · cases hrun
        apply hrow _ (horigin.runOfJob hcopies)
      · apply hrow run (hσ k run hrun)
  | @finalize _ new existing hexisting hrunning hlineage hfind =>
      rw [hfind] at hrun
      split at hrun
      · cases hrun
        obtain ⟨row, hjob, hrow'⟩ := hσ _ existing hexisting
        apply hrow
        simp only [RunRecord.lineage, Prod.mk.injEq] at hlineage
        use row
        rw [hlineage.1]
        use hjob
        simp only [RunRecord.lineage, JobRecord.runLineage, Prod.mk.injEq] at hrow' ⊢
        simp [hlineage, hrow']
      · apply hrow run (hσ k run hrun)
  | delete p hcleanup =>
      rw [hkeeps] at hcleanup
      cases hcleanup

end

end GoblinKing
