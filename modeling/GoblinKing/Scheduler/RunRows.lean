import GoblinKing.Scheduler.Rows

/-!
# What a step does to the table of runs

A step inserts one run, ends one running run in place, or leaves the runs alone; a cleanup
deletes terminal runs. A run is inserted by a scheduler that has just marked its job, or that
ends an attempt whose run is not there.
-/

namespace GoblinKing

/-- Where an inserted run comes from. -/
inductive RunOrigin (σ : System) (w : WorkerId) (run : RunRecord) : Prop where
  | marked {now startedAt : Instant} {job : JobRecord} {jobs : List JobRecord}
      (hphase : σ.phase w = .marked now job startedAt jobs)
      (hlineage : run.lineage = job.runLineage job.nextAttempt)
  | started {now startedAt : Instant} {job : JobRecord} {jobs : List JobRecord}
      (hphase : σ.phase w = .started now job startedAt run.id jobs)
      (hlineage : run.lineage = job.runLineage job.nextAttempt)
  | fail {now : Instant} {job current : JobRecord} {error : String}
      {runningRun : Option RunRecord} {jobs : List JobRecord}
      (hphase : σ.phase w = .fail now job error current runningRun jobs)
      (hid : ∀ running, runningRun = some running → run.id = running.id)
      (hlineage : run.lineage = current.runLineage (failureAttempt current job))

/-- A change of the table of runs in a step from `σ`. -/
inductive RunStep (σ : System) (a : Action) : Runs → Runs → Prop where
  | keep (runs : Runs) : RunStep σ a runs runs
  | insert {runs runs' : Runs} {run : RunRecord} {w : WorkerId} (hworker : a.worker = some w)
      (hnew : runs.find? run.id = none)
      (hfind : ∀ k, runs'.find? k = if run.id = k then some run else runs.find? k)
      (horigin : RunOrigin σ w run) :
      RunStep σ a runs runs'
  | finalize {runs runs' : Runs} {run existing : RunRecord}
      (hexisting : runs.find? run.id = some existing) (hrunning : existing.status = .running)
      (hlineage : run.lineage = existing.lineage)
      (hfind : ∀ k, runs'.find? k = if run.id = k then some run else runs.find? k) :
      RunStep σ a runs runs'
  | delete {runs : Runs} (p : RunRecord → Bool) (hcleanup : a.keepsRows = false)
      (hterminal : ∀ r, p r = true → r.status.isTerminal) :
      RunStep σ a runs (runs.delete p)

/-- A finalization inserts or ends its run. -/
theorem RunStep.of_finalizeAttempt {σ : System} {a : Action} {jobs jobs' : Jobs} {runs runs' : Runs}
    {run : RunRecord} {status : JobStatus} {lastError : Option String} {dueAt : Option Instant}
    {w : WorkerId} {finalization : AttemptFinalization}
    (h : finalizeAttempt jobs runs run status lastError dueAt w
      = .ok (finalization, jobs', runs')) (hworker : a.worker = some w)
    (horigin : RunOrigin σ w (normalizePersistedRun run)) :
  RunStep σ a runs runs'
  := by
  obtain ⟨-, -, hrun, -, -⟩ := finalizeAttempt_ok h
  obtain ⟨-, hexisting, hfind⟩ := finalizeRun_ok hrun
  cases hrow : runs.find? (normalizePersistedRun run).id with
  | none => apply RunStep.insert hworker hrow hfind horigin
  | some existing =>
      obtain ⟨hrunning, hlineage⟩ := hexisting existing hrow
      apply RunStep.finalize hrow hrunning hlineage hfind

/-- What a step of a scheduler does to the runs. -/
theorem WorkerStep.runStep {env : Environment} {config : SchedulerConfig} {σ : System}
    {a : Action} {w : WorkerId} {db : Db} {phase : Phase} {events : List Event}
    (h : WorkerStep env config w σ.db (σ.phase w) db phase events)
    (hworker : a.worker = some w) :
  RunStep σ a σ.db.runs db.runs
  := by
  generalize hphase : σ.phase w = before at h
  cases h
  case start runId runs hrun =>
    apply RunStep.insert hworker (Table.find?_of_insert? hrun) (Table.find?_insert? hrun)
    apply RunOrigin.marked hphase rfl
  case reject hid hfinalize =>
    apply RunStep.of_finalizeAttempt hfinalize hworker
    rw [normalizePersistedRun_of_finished rfl]
    apply RunOrigin.marked hphase rfl
  case finish hrun hfinalize houtcome =>
    apply RunStep.of_finalizeAttempt hfinalize hworker
    subst hrun
    rw [normalizePersistedRun_of_finished rfl]
    apply RunOrigin.started hphase rfl
  case finishLost hrun hfinalize houtcome =>
    apply RunStep.of_finalizeAttempt hfinalize hworker
    subst hrun
    rw [normalizePersistedRun_of_finished rfl]
    apply RunOrigin.started hphase rfl
  case fail runningRun _ _ _ _ _ _ hid hrun hfinalize =>
    apply RunStep.of_finalizeAttempt hfinalize hworker
    subst hrun
    rw [normalizePersistedRun_of_finished rfl]
    apply RunOrigin.fail hphase _ rfl
    rintro running rfl
    rfl
  all_goals apply RunStep.keep

/-- What a step of the system does to the runs. -/
theorem runStep_of_step {env : Environment} {config : WorkerId → SchedulerConfig}
    {σ τ : System} {a : Action} (h : step env config σ a = some τ) :
  RunStep σ a σ.db.runs τ.db.runs
  := by
  cases a with
  | submit job =>
      simp only [step] at h
      split_ifs at h
      obtain ⟨jobs, -, rfl⟩ := Option.map_eq_some_iff.mp h
      apply RunStep.keep
  | cancel jobId =>
      cases h
      apply RunStep.keep
  | renew w jobId leaseUntil =>
      cases h
      apply RunStep.keep
  | cleanup projectId =>
      cases h
      refine RunStep.delete _ rfl ?_
      intro r hr
      simp only [Bool.and_eq_true] at hr
      apply hr.1
  | create kinds request projectId scheduleId createdAt =>
      simp only [step] at h
      split at h
      · cases h
      · cases h
        apply RunStep.keep
  | readPatch requestId scheduleId request =>
      obtain ⟨hdb, -⟩ := readPatch_frame h
      rw [hdb]
      apply RunStep.keep
  | writePatch requestId now =>
      obtain ⟨-, hruns, -⟩ := writePatch_frame h
      rw [hruns]
      apply RunStep.keep
  | scheduler w action =>
      obtain ⟨db, phase, events, hstep, rfl⟩ := workerStep_of_step h
      apply hstep.runStep rfl

/-- A terminal run stays as it is in a step that deletes no row. -/
theorem RunStep.terminal_kept {σ : System} {a : Action} {runs runs' : Runs}
    (h : RunStep σ a runs runs') (hkeeps : a.keepsRows = true) {k : Id} {run : RunRecord}
    (hrun : runs.find? k = some run) (hterminal : run.status.isTerminal = true) :
  runs'.find? k = some run
  := by
  cases h with
  | keep => apply hrun
  | insert hworker hnew hfind horigin =>
      rw [hfind, if_neg]
      · apply hrun
      · rintro rfl
        rw [hnew] at hrun
        cases hrun
  | finalize hexisting hrunning hlineage hfind =>
      rw [hfind, if_neg]
      · apply hrun
      · rintro rfl
        rw [hexisting] at hrun
        obtain rfl := Option.some.inj hrun
        rw [hrunning] at hterminal
        cases hterminal
  | delete p hcleanup hdelete =>
      rw [hkeeps] at hcleanup
      cases hcleanup

end GoblinKing
