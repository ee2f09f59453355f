import GoblinKing.Scheduler.Attempts
import GoblinKing.Scheduler.EarlierRuns

/-!
# Causal order of one attempt

The timestamps that an attempt leaves in the event log and in its run are in the order of
their causes, whatever the clocks show: `job.leased`, `job.running`, the start of the run, the
events of the job up to the finalization, the finish of the run, and the event that follows it.

The log itself keeps its events in order. The start of the run is placed after `job.running`,
which the normal path has at hand and the recovery reads from the log; or it is the start of
the running run, which the attempt has inserted itself, because a run that an earlier attempt
has left running cannot be finalized under the number of this one.
-/

namespace GoblinKing

/-- An instant is after every `job.running` event. -/
def AfterRunning (evidence : List Evidence) (t : Instant) : Prop :=
  ∀ event, .running event ∈ evidence → event.createdAt < t

/-- The evidence of an attempt is in causal order. -/
structure CausallyOrdered (evidence : List Evidence) : Prop where
  leased : ∀ leased running, .leased leased ∈ evidence → .running running ∈ evidence →
    leased.createdAt < running.createdAt
  started : ∀ run, .started run ∈ evidence → AfterRunning evidence run.startedAt
  finalized : ∀ run before, .finalized run before ∈ evidence →
    AfterRunning evidence run.startedAt ∧ ∃ finishedAt, run.finishedAt = some finishedAt
      ∧ run.startedAt < finishedAt ∧ ∀ event ∈ before, event.createdAt < finishedAt
  ended : ∀ run event, .ended run event ∈ evidence →
    (∃ before, .finalized run before ∈ evidence)
      ∧ ∃ finishedAt, run.finishedAt = some finishedAt ∧ finishedAt < event.createdAt

/-- A run that an earlier attempt has left is in the table. -/
def LeftBy (job : JobRecord) (runs : Runs) (run : RunRecord) : Prop :=
  run ∈ runs.rows ∧ run.jobId = job.id ∧ run.attempt ≤ job.attemptCount

/-- A finished run whose finish is after its start and after the events of its job. -/
def Stamped (job : JobRecord) (log : EventDb) (run : RunRecord) : Prop :=
  ∃ finishedAt, run.finishedAt = some finishedAt ∧ run.startedAt < finishedAt
    ∧ ∀ event ∈ log.events.table.rows, ofJob job event = true → event.createdAt < finishedAt

/-- What an attempt relies on in each phase. -/
def AttemptPhase.Sound (job : JobRecord) (log : EventDb) (db : Db) (evidence : List Evidence) :
    AttemptPhase → Prop
  | .claimed => evidence = [] ∧ EarlierRuns job db.runs
  | .leased | .marking =>
      (∀ e ∈ evidence, ∃ event, e = .leased event) ∧ EarlierRuns job db.runs
  | .validating startedAt | .executing startedAt _ | .stamping startedAt _ =>
      AfterRunning evidence startedAt
  | .finalizing _ run => Stamped job log run ∧ AfterRunning evidence run.startedAt
  | .finalized _ run | .failed run => ∃ before, .finalized run before ∈ evidence
  | .inspect _ current => current.id = job.id
  | .failing _ current runningRun => current.id = job.id ∧ ∀ run, runningRun = some run →
      AfterRunning evidence run.startedAt ∨ LeftBy job db.runs run
  | .failStamping _ current runningRun startedAt => current.id = job.id
      ∧ (AfterRunning evidence startedAt ∨ ∃ run, runningRun = some run ∧ LeftBy job db.runs run)
  | .failFinalizing run => Stamped job log run ∧ job.nextAttempt ≤ run.attempt
      ∧ (AfterRunning evidence run.startedAt ∨ ∃ left, left.id = run.id ∧ LeftBy job db.runs left)
  | .ended | .recover _ | .reconcile _ _ | .done _ => True

/-- What holds throughout an attempt: the evidence is in order and is in the log, and a run of
the job that is running was there before or has started after `job.running`. -/
structure AttemptKept (job : JobRecord) (log : EventDb) (db : Db) (evidence : List Evidence) :
    Prop where
  ordered : ∃ counter, log.Ordered counter
  causal : CausallyOrdered evidence
  leased : ∀ event, .leased event ∈ evidence → event ∈ log.events.table.rows
  running : ∀ event, .running event ∈ evidence → event ∈ log.events.table.rows
    ∧ ofJob job event = true ∧ event.eventType = "job.running"
  runs : ∀ run ∈ db.runs.rows, run.jobId = job.id → run.status = .running →
    AfterRunning evidence run.startedAt ∨ run.attempt ≤ job.attemptCount

/-- The invariant of an attempt. -/
structure AttemptInvariant (job : JobRecord) (s : Attempt) : Prop where
  kept : AttemptKept job s.log s.db s.evidence
  phase : s.phase.Sound job s.log s.db s.evidence

section

variable {env : Environment} {w : WorkerId} {job : JobRecord} {requestedStart : Instant}
  {log log' : EventDb} {db : Db} {evidence : List Evidence}

/-! ### Instants -/

/-- An instant after the newest `job.running` event is after all of them. -/
theorem AttemptKept.afterRunning_latest (h : AttemptKept job log db evidence)
    {current : JobRecord} (hid : current.id = job.id) (before : List (Option Instant))
    (candidate : Instant) :
  AfterRunning evidence (causallyAfter (before ++ [latestEventCreatedAt log
    (fun event => ofJob current event && decide (event.eventType = "job.running"))]) candidate)
  := by
  intro event hevent
  obtain ⟨hrow, hjob, htype⟩ := h.running event hevent
  obtain ⟨counter, hordered⟩ := h.ordered
  have hof : (ofJob current event && decide (event.eventType = "job.running")) = true := by
    simp only [ofJob, decide_eq_true_eq] at hjob
    simp [ofJob, hid, hjob, htype]
  obtain ⟨t, ht, hle⟩ := hordered.le_latestEventCreatedAt
    (p := fun event => ofJob current event && decide (event.eventType = "job.running")) hrow hof
  apply hle.trans_lt
  apply lt_causallyAfter
  rw [← ht]
  apply List.mem_append_right
  apply List.mem_singleton_self

/-- The finish of an attempt is after its start and after the events of its job. -/
theorem stamped_of_finishAttemptTimestamp (h : ∃ counter, log.Ordered counter)
    {current : JobRecord} (hid : current.id = job.id) {run : RunRecord} {startedAt clock : Instant}
    (hstart : run.startedAt = startedAt)
    (hfinish : run.finishedAt = some (finishAttemptTimestamp startedAt
      (latestEventCreatedAt log (ofJob current)) clock)) :
  Stamped job log run
  := by
  obtain ⟨counter, hordered⟩ := h
  refine ⟨_, hfinish, ?_, ?_⟩
  · rw [hstart]
    apply lt_causallyAfter
    apply List.mem_cons_self
  · intro event hrow hjob
    have hof : ofJob current event = true := by
      rw [ofJob, hid]
      apply hjob
    obtain ⟨t, ht, hle⟩ := hordered.le_latestEventCreatedAt hrow hof
    apply hle.trans_lt
    apply lt_causallyAfter
    rw [ht]
    simp

/-! ### Changes of the log and the database -/

/-- What is kept stays when rows are added to the log. -/
theorem AttemptKept.of_log (h : AttemptKept job log db evidence) {counter : ℕ}
    (hordered : log'.Ordered counter)
    (hrows : ∀ event ∈ log.events.table.rows, event ∈ log'.events.table.rows) :
  AttemptKept job log' db evidence
  := by
  constructor
  · use counter
  · apply h.causal
  · intro event hevent
    apply hrows event (h.leased event hevent)
  · intro event hevent
    obtain ⟨hrow, hjob, htype⟩ := h.running event hevent
    exact ⟨hrows event hrow, hjob, htype⟩
  · apply h.runs

/-- The finish of a run stays after the events of the job when other events are added. -/
theorem Stamped.of_log {run : RunRecord} (h : Stamped job log run) {event : EventRecord}
    (hrows : log'.events.table.rows = log.events.table.rows ++ [event])
    (hevent : ofJob job event = false) :
  Stamped job log' run
  := by
  obtain ⟨finishedAt, hfinish, hstart, hevents⟩ := h
  refine ⟨finishedAt, hfinish, hstart, ?_⟩
  intro row hrow hjob
  rw [hrows] at hrow
  rcases List.mem_append.mp hrow with hrow | hrow
  · apply hevents row hrow hjob
  · rw [List.mem_singleton.mp hrow, hevent] at hjob
    cases hjob

/-- A phase stays sound when an event is persisted; while the finish is decided, the event
is one of another job. -/
theorem AttemptPhase.Sound.of_log {phase : AttemptPhase} (h : phase.Sound job log db evidence)
    {event : EventRecord} (hrows : log'.events.table.rows = log.events.table.rows ++ [event])
    (hevent : (phase.stamped && ofJob job event) = false) :
  phase.Sound job log' db evidence
  := by
  cases phase with
  | finalizing ending run =>
      obtain ⟨hstamped, hrun⟩ := h
      use hstamped.of_log hrows hevent
  | failFinalizing run =>
      obtain ⟨hstamped, hrest⟩ := h
      use hstamped.of_log hrows hevent
  | _ => exact h

/-- The runs of a job are the same in two tables. -/
def SameRuns (job : JobRecord) (runs runs' : Runs) : Prop :=
  ∀ run : RunRecord, run.jobId = job.id → (run ∈ runs'.rows ↔ run ∈ runs.rows)

/-- The runs of a job that are selected from two tables tell whether they are the same. -/
theorem sameRuns_of_select {runs runs' : Runs}
    (h : runs'.select (fun run => decide (run.jobId = job.id))
      = runs.select (fun run => decide (run.jobId = job.id))) :
  SameRuns job runs runs'
  := by
  intro run hrun
  have hmem : run ∈ runs'.select (fun run => decide (run.jobId = job.id))
      ↔ run ∈ runs.select (fun run => decide (run.jobId = job.id)) := by
    rw [h]
  simpa [Table.select, hrun] using hmem

/-- A run that was left stays as long as the runs of the job are the same. -/
theorem LeftBy.of_sameRuns {runs runs' : Runs} {run : RunRecord} (h : LeftBy job runs run)
    (hruns : SameRuns job runs runs') :
  LeftBy job runs' run
  := by
  obtain ⟨hrow, hjob, hattempt⟩ := h
  exact ⟨(hruns run hjob).mpr hrow, hjob, hattempt⟩

/-- No new run is running as long as the runs of the job are the same. -/
theorem EarlierRuns.of_sameRuns {runs runs' : Runs} (h : EarlierRuns job runs)
    (hruns : SameRuns job runs runs') :
  EarlierRuns job runs'
  := by
  intro run hrow hjob
  apply h run ((hruns run hjob).mp hrow) hjob

/-- A phase stays sound as long as the runs of the job are the same. -/
theorem AttemptPhase.Sound.of_sameRuns {phase : AttemptPhase} {db' : Db}
    (h : phase.Sound job log db evidence) (hruns : SameRuns job db.runs db'.runs) :
  phase.Sound job log db' evidence
  := by
  cases phase with
  | claimed => exact ⟨h.1, h.2.of_sameRuns hruns⟩
  | leased => exact ⟨h.1, h.2.of_sameRuns hruns⟩
  | marking => exact ⟨h.1, h.2.of_sameRuns hruns⟩
  | failing error current runningRun =>
      use h.1
      intro run hrun
      apply (h.2 run hrun).imp_right
      intro hleft
      apply hleft.of_sameRuns hruns
  | failStamping error current runningRun startedAt =>
      use h.1
      apply h.2.imp_right
      rintro ⟨run, hrun, hleft⟩
      use run, hrun
      apply hleft.of_sameRuns hruns
  | failFinalizing run =>
      use h.1, h.2.1
      apply h.2.2.imp_right
      rintro ⟨left, hid, hleft⟩
      use left, hid
      apply hleft.of_sameRuns hruns
  | _ => exact h

/-- What is kept stays when no running run is added to the runs of the job. -/
theorem AttemptKept.of_runs {db' : Db} (h : AttemptKept job log db evidence)
    (hruns : ∀ run ∈ db'.runs.rows, run.jobId = job.id → run.status = .running →
      run ∈ db.runs.rows) :
  AttemptKept job log db' evidence
  := by
  constructor
  · apply h.ordered
  · apply h.causal
  · apply h.leased
  · apply h.running
  · intro run hrow hjob hstatus
    apply h.runs run (hruns run hrow hjob hstatus) hjob hstatus

/-- What is kept stays with one more piece of evidence that is no `job.running` event. -/
theorem AttemptKept.cons (h : AttemptKept job log db evidence) {e : Evidence}
    (hordered : CausallyOrdered (e :: evidence))
    (hleased : ∀ event, e = .leased event → event ∈ log.events.table.rows)
    (hrunning : ∀ event, e ≠ .running event) :
  AttemptKept job log db (e :: evidence)
  := by
  constructor
  · apply h.ordered
  · apply hordered
  · intro event hevent
    rcases List.mem_cons.mp hevent with heq | hevent
    · apply hleased event heq.symm
    · apply h.leased event hevent
  · intro event hevent
    rcases List.mem_cons.mp hevent with heq | hevent
    · cases hrunning event heq.symm
    · apply h.running event hevent
  · intro run hrow hjob hstatus
    apply (h.runs run hrow hjob hstatus).imp_left
    intro hafter event hevent
    rcases List.mem_cons.mp hevent with heq | hevent
    · cases hrunning event heq.symm
    · apply hafter event hevent

/-! ### Order of the evidence -/

/-- What is after all `job.running` events stays so with evidence of another kind. -/
theorem AfterRunning.cons {t : Instant} (h : AfterRunning evidence t) {e : Evidence}
    (he : ∀ event, e ≠ .running event) :
  AfterRunning (e :: evidence) t
  := by
  intro event hevent
  rcases List.mem_cons.mp hevent with heq | hevent
  · cases he event heq.symm
  · apply h event hevent

/-- Evidence of a run stays in order with evidence of another kind than `job.running`, when it
is itself in order. -/
theorem CausallyOrdered.cons (h : CausallyOrdered evidence) {e : Evidence}
    (hleased : ∀ event, e ≠ .leased event) (hrunning : ∀ event, e ≠ .running event)
    (hstarted : ∀ run, e = .started run → AfterRunning evidence run.startedAt)
    (hfinalized : ∀ run before, e = .finalized run before → AfterRunning evidence run.startedAt
      ∧ ∃ finishedAt, run.finishedAt = some finishedAt ∧ run.startedAt < finishedAt
        ∧ ∀ event ∈ before, event.createdAt < finishedAt)
    (hended : ∀ run event, e = .ended run event → (∃ before, .finalized run before ∈ evidence)
      ∧ ∃ finishedAt, run.finishedAt = some finishedAt ∧ finishedAt < event.createdAt) :
  CausallyOrdered (e :: evidence)
  := by
  constructor
  case leased =>
    intro leased running hl hr
    rcases List.mem_cons.mp hl with heq | hl
    · cases hleased leased heq.symm
    rcases List.mem_cons.mp hr with heq | hr
    · cases hrunning running heq.symm
    · apply h.leased leased running hl hr
  case started =>
    intro run hrun
    apply AfterRunning.cons _ hrunning
    rcases List.mem_cons.mp hrun with heq | hrun
    · apply hstarted run heq.symm
    · apply h.started run hrun
  case finalized =>
    intro run before hrun
    rcases List.mem_cons.mp hrun with heq | hrun
    · obtain ⟨hafter, hfinish⟩ := hfinalized run before heq.symm
      exact ⟨hafter.cons hrunning, hfinish⟩
    · obtain ⟨hafter, hfinish⟩ := h.finalized run before hrun
      exact ⟨hafter.cons hrunning, hfinish⟩
  case ended =>
    intro run event hevent
    rcases List.mem_cons.mp hevent with heq | hevent
    · obtain ⟨⟨before, hbefore⟩, hfinish⟩ := hended run event heq.symm
      exact ⟨⟨before, List.mem_cons_of_mem e hbefore⟩, hfinish⟩
    · obtain ⟨⟨before, hbefore⟩, hfinish⟩ := h.ended run event hevent
      exact ⟨⟨before, List.mem_cons_of_mem e hbefore⟩, hfinish⟩

/-- Before `job.running` is persisted there are only events `job.leased`. -/
theorem causallyOrdered_of_leased (h : ∀ e ∈ evidence, ∃ event, e = .leased event) :
  CausallyOrdered evidence
  := by
  constructor
  · intro leased running _ hrunning
    obtain ⟨event, heq⟩ := h _ hrunning
    cases heq
  · intro run hrun
    obtain ⟨event, heq⟩ := h _ hrun
    cases heq
  · intro run before hrun
    obtain ⟨event, heq⟩ := h _ hrun
    cases heq
  · intro run event hevent
    obtain ⟨event, heq⟩ := h _ hevent
    cases heq

/-- `job.running` is after the events `job.leased` that are there. -/
theorem causallyOrdered_running (h : ∀ e ∈ evidence, ∃ event, e = .leased event)
    {running : EventRecord} (hlater : ∀ event, .leased event ∈ evidence →
      event.createdAt < running.createdAt) :
  CausallyOrdered (.running running :: evidence)
  := by
  constructor
  · intro leased event hleased hevent
    rcases List.mem_cons.mp hleased with heq | hleased
    · cases heq
    rcases List.mem_cons.mp hevent with heq | hevent
    · cases heq
      apply hlater leased hleased
    · obtain ⟨event, heq⟩ := h _ hevent
      cases heq
  · intro run hrun
    rcases List.mem_cons.mp hrun with heq | hrun
    · cases heq
    · obtain ⟨event, heq⟩ := h _ hrun
      cases heq
  · intro run before hrun
    rcases List.mem_cons.mp hrun with heq | hrun
    · cases heq
    · obtain ⟨event, heq⟩ := h _ hrun
      cases heq
  · intro run event hevent
    rcases List.mem_cons.mp hevent with heq | hevent
    · cases heq
    · obtain ⟨event, heq⟩ := h _ hevent
      cases heq

/-! ### The steps -/

variable {s t : Attempt}

/-- The invariant is kept by a change of the phase to one that is sound. -/
theorem AttemptInvariant.of_phase (h : AttemptInvariant job s) {phase : AttemptPhase}
    (hphase : phase.Sound job s.log s.db s.evidence) :
  AttemptInvariant job { s with phase := phase }
  := ⟨h.kept, hphase⟩

/-- An event that is persisted outside the steps of the scheduler keeps the invariant. -/
theorem AttemptInvariant.persist (h : AttemptInvariant job s) {event : EventRecord}
    (hstep : s.persist job event = some t) :
  AttemptInvariant job t
  := by
  rw [Attempt.persist] at hstep
  split at hstep
  · cases hstep
  case isFalse hallowed =>
    split at hstep
    case h_1 log stored hpersist =>
      cases hstep
      obtain ⟨counter, hordered⟩ := h.kept.ordered
      obtain ⟨_, -, -, hstored, hrows⟩ := persistEvent_ok hpersist
      have hof : ofJob job stored = ofJob job event := by
        rw [hstored]
        rfl
      constructor
      · apply h.kept.of_log (hordered.persist hpersist).1
        intro row hrow
        rw [hrows]
        apply List.mem_append_left _ hrow
      · apply h.phase.of_log hrows
        rw [hof]
        simpa using hallowed
    case h_2 =>
      cases hstep
      apply h

/-- A change of the database by others keeps the invariant. -/
theorem AttemptInvariant.change (h : AttemptInvariant job s) {db : Db}
    (hstep : s.change job db = some t) :
  AttemptInvariant job t
  := by
  rw [Attempt.change] at hstep
  split at hstep
  case isTrue hselect =>
    cases hstep
    have hruns := sameRuns_of_select hselect
    constructor
    · apply h.kept.of_runs
      intro run hrow hjob _
      apply (hruns run hjob).mp hrow
    · apply h.phase.of_sameRuns hruns
  case isFalse => cases hstep

/-- `job.leased` keeps the invariant. -/
theorem AttemptInvariant.emitLeased (h : AttemptInvariant job s) (hphase : s.phase = .claimed)
    (eventId : Id) (clock : Instant) :
  AttemptInvariant job (s.emitLeased job eventId clock)
  := by
  have hsound := h.phase
  rw [hphase] at hsound
  obtain ⟨hnone, hearlier⟩ := hsound
  rw [Attempt.emitLeased]
  split
  · exact h.of_phase trivial
  case h_2 log event hemit =>
    obtain ⟨counter, hordered⟩ := h.kept.ordered
    obtain ⟨hordered', hrows, -⟩ := hordered.emit hemit
    have honly : ∀ e ∈ Evidence.leased event :: s.evidence, ∃ event, e = .leased event := by
      rw [hnone]
      simp
    constructor
    · apply (h.kept.of_log hordered' _).cons (causallyOrdered_of_leased honly)
      · rintro _ ⟨⟩
        rw [hrows]
        simp
      · rintro _ ⟨⟩
      · intro row hrow
        rw [hrows]
        apply List.mem_append_left _ hrow
    · exact ⟨honly, hearlier⟩

/-- The attempt to mark the job keeps the invariant. -/
theorem AttemptInvariant.mark (h : AttemptInvariant job s) (hphase : s.phase = .leased) :
  AttemptInvariant job (s.mark w job)
  := by
  have hsound := h.phase
  rw [hphase] at hsound
  constructor
  · exact h.kept.of_runs (fun run hrow _ _ => hrow)
  · simp only [Attempt.mark]
    split
    · apply hsound
    · trivial

/-- `job.running` keeps the invariant: the start of the attempt is after it. -/
theorem AttemptInvariant.emitRunning (h : AttemptInvariant job s) (hphase : s.phase = .marking)
    (eventId : Id) (clock : Instant) :
  AttemptInvariant job (s.emitRunning job requestedStart eventId clock)
  := by
  have hsound := h.phase
  rw [hphase] at hsound
  obtain ⟨honly, hearlier⟩ := hsound
  rw [Attempt.emitRunning]
  split
  · exact h.of_phase trivial
  case h_2 log event hemit =>
    obtain ⟨counter, hordered⟩ := h.kept.ordered
    obtain ⟨hordered', hrows, hjob, htype, hlater, -⟩ := hordered.emit hemit
    have hevent : ∀ running, .running running ∈ Evidence.running event :: s.evidence →
        running = event := by
      intro running hrunning
      rcases List.mem_cons.mp hrunning with heq | hrunning
      · cases heq
        rfl
      · obtain ⟨_, heq⟩ := honly _ hrunning
        cases heq
    constructor
    · constructor
      · exact ⟨_, hordered'⟩
      · apply causallyOrdered_running honly
        intro leased hleased
        apply hlater leased (h.kept.leased leased hleased)
      · intro leased hleased
        rcases List.mem_cons.mp hleased with heq | hleased
        · cases heq
        · rw [hrows]
          apply List.mem_append_left _ (h.kept.leased leased hleased)
      · intro running hrunning
        rw [hevent running hrunning, hrows]
        refine ⟨List.mem_append_right _ (List.mem_singleton_self event), ?_, htype⟩
        rw [ofJob, hjob]
        apply decide_eq_true rfl
      · intro run hrow hrun hstatus
        right
        apply hearlier run hrow hrun hstatus
    · intro running hrunning
      rw [hevent running hrunning]
      apply lt_causallyAfter
      apply List.mem_singleton_self

/-- The insertion of the running run keeps the invariant. -/
theorem AttemptInvariant.startRun (h : AttemptInvariant job s) {startedAt : Instant}
    (hphase : s.phase = .validating startedAt) (runId : Id) :
  AttemptInvariant job (s.startRun job startedAt runId)
  := by
  have hafter : AfterRunning s.evidence startedAt := by
    have hsound := h.phase
    rw [hphase] at hsound
    apply hsound
  rw [Attempt.startRun]
  split
  · exact h.of_phase trivial
  case h_2 runs hrun =>
    obtain ⟨-, hinsert⟩ := startRun_ok hrun
    have hkept : AttemptKept job s.log { s.db with runs := runs } s.evidence := by
      refine { h.kept with runs := ?_ }
      intro run hrow hjob hstatus
      rw [Table.rows_insert? hinsert] at hrow
      rcases List.mem_append.mp hrow with hrow | hrow
      · apply h.kept.runs run hrow hjob hstatus
      · left
        rw [List.mem_singleton.mp hrow]
        apply hafter
    constructor
    · apply hkept.cons
      · apply h.kept.causal.cons
        · rintro _ ⟨⟩
        · rintro _ ⟨⟩
        · rintro run ⟨⟩
          apply hafter
        · rintro _ _ ⟨⟩
        · rintro _ _ ⟨⟩
      · rintro _ ⟨⟩
      · rintro _ ⟨⟩
    · apply hafter.cons
      rintro _ ⟨⟩

/-- The reading of the newest event keeps the invariant: the finish is after it. -/
theorem AttemptInvariant.stamp (h : AttemptInvariant job s) {startedAt : Instant} {ending : Ending}
    (hphase : s.phase = .stamping startedAt ending) (clock : Instant) :
  AttemptInvariant job (s.stamp job startedAt ending clock)
  := by
  have hsound := h.phase
  rw [hphase] at hsound
  have hstart : ∀ finishedAt, (ending.run job startedAt finishedAt).startedAt = startedAt
      ∧ (ending.run job startedAt finishedAt).finishedAt = some finishedAt := by
    intro finishedAt
    cases ending with
    | rejected runId validationError => exact ⟨rfl, rfl⟩
    | returned runId result elapsed => exact ⟨rfl, rfl⟩
  apply h.of_phase
  constructor
  · apply stamped_of_finishAttemptTimestamp h.kept.ordered rfl (hstart _).1 (hstart _).2
  · rw [(hstart _).1]
    apply hsound

/-- A finalization keeps the invariant when the run has started after `job.running`, or an
earlier attempt has left a run that it would have to finalize. -/
theorem AttemptInvariant.finalizeWith (h : AttemptInvariant job s) {run : RunRecord}
    {status : JobStatus} {dueAt : Option Instant} {raised : String → AttemptPhase}
    {returned : AttemptOutcome → AttemptPhase} (hstamped : Stamped job s.log run)
    (hafter : AfterRunning s.evidence run.startedAt
      ∨ ∃ left, left.id = run.id ∧ left.attempt ≠ run.attempt ∧ left ∈ s.db.runs.rows)
    (hraised : ∀ error, (raised error).Sound job s.log s.db s.evidence)
    (hreturned : ∀ outcome (db : Db) (evidence : List Evidence),
      (∃ before, .finalized run before ∈ evidence) →
        (returned outcome).Sound job s.log db evidence) :
  AttemptInvariant job (s.finalizeWith w job run status dueAt raised returned)
  := by
  obtain ⟨finishedAt, hfinish, hstart, hevents⟩ := hstamped
  have hnormalized : normalizePersistedRun run = run := by
    apply normalizePersistedRun_of_finished
    rw [hfinish]
    rfl
  rw [Attempt.finalizeWith]
  split
  case h_1 error herror => exact h.of_phase (hraised error)
  case h_2 finalization jobs runs hfinalize =>
    obtain ⟨row, -, hrun, hnorm, -⟩ := finalizeAttempt_ok hfinalize
    rw [hnormalized] at hrun hnorm
    obtain ⟨-, hexisting, -⟩ := finalizeRun_ok hrun
    -- the run that is finalized has the lineage of the run it replaces
    have hafter : AfterRunning s.evidence run.startedAt := by
      rcases hafter with hafter | ⟨left, hid, hattempt, hrow⟩
      · apply hafter
      · have hleft := Table.find?_of_mem hrow
        rw [hid] at hleft
        obtain ⟨-, hlineage⟩ := hexisting left hleft
        simp only [RunRecord.lineage, Prod.mk.injEq] at hlineage
        cases hattempt hlineage.2.2.2.symm
    have hkept : AttemptKept job s.log { s.db with jobs := jobs, runs := runs } s.evidence := by
      apply h.kept.of_runs
      intro r hrow hjob hstatus
      apply running_of_finalizeAttempt hfinalize hrow hstatus
    rw [hnorm]
    constructor
    · apply hkept.cons
      · apply h.kept.causal.cons
        · rintro _ ⟨⟩
        · rintro _ ⟨⟩
        · rintro _ ⟨⟩
        · rintro _ _ ⟨⟩
          refine ⟨hafter, finishedAt, hfinish, hstart, ?_⟩
          intro event hevent
          obtain ⟨hrow, hjob⟩ := List.mem_filter.mp hevent
          apply hevents event hrow hjob
        · rintro _ _ ⟨⟩
      · rintro _ ⟨⟩
      · rintro _ ⟨⟩
    · apply hreturned
      exact ⟨_, List.mem_cons_self⟩

/-- The event of a finalized run keeps the invariant: it is after the finish of the run. -/
theorem AttemptInvariant.emitEnd (h : AttemptInvariant job s) {run : RunRecord}
    (hrun : ∃ before, .finalized run before ∈ s.evidence) (eventType : String) (eventId : Id)
    (clock : Instant) {raised : String → AttemptPhase} {emitted : AttemptPhase}
    (hraised : ∀ error, (raised error).Sound job s.log s.db s.evidence)
    (hemitted : ∀ log evidence, emitted.Sound job log s.db evidence) :
  AttemptInvariant job (s.emitEnd job run eventType eventId clock raised emitted)
  := by
  obtain ⟨before, hbefore⟩ := hrun
  obtain ⟨-, finishedAt, hfinish, -⟩ := h.kept.causal.finalized run before hbefore
  rw [Attempt.emitEnd]
  split
  case h_1 error herror => exact h.of_phase (hraised error)
  case h_2 log event hemit =>
    obtain ⟨counter, hordered⟩ := h.kept.ordered
    obtain ⟨hordered', hrows, -, -, -, hafter⟩ := hordered.emit hemit
    constructor
    · apply (h.kept.of_log hordered' _).cons
      · apply h.kept.causal.cons
        · rintro _ ⟨⟩
        · rintro _ ⟨⟩
        · rintro _ ⟨⟩
        · rintro _ _ ⟨⟩
        · rintro _ _ ⟨⟩
          exact ⟨⟨before, hbefore⟩, finishedAt, hfinish, hafter finishedAt hfinish⟩
      · rintro _ ⟨⟩
      · rintro _ ⟨⟩
      · intro row hrow
        rw [hrows]
        apply List.mem_append_left _ hrow
    · apply hemitted

/-- The finalization of the attempt keeps the invariant. -/
theorem AttemptInvariant.finalize (h : AttemptInvariant job s) {ending : Ending}
    {run : RunRecord} (hphase : s.phase = .finalizing ending run) :
  AttemptInvariant job (s.finalize w job requestedStart ending run)
  := by
  have hsound := h.phase
  rw [hphase] at hsound
  obtain ⟨hstamped, hafter⟩ := hsound
  apply h.finalizeWith hstamped (Or.inl hafter)
  · intro error
    trivial
  · intro outcome db evidence hrun
    cases outcome with
    | finalized => exact hrun
    | cancelled => trivial
    | stale => trivial

/-- The reading of the row of the job keeps the invariant. -/
theorem AttemptInvariant.getJob (h : AttemptInvariant job s) (error : String) :
  AttemptInvariant job (s.getJob job error)
  := by
  rw [Attempt.getJob]
  split
  · exact h.of_phase trivial
  case h_2 current hcurrent => exact h.of_phase (Table.key_of_find? hcurrent)

/-- The decision of the recovery keeps the invariant: the running run it has found has
started after `job.running`, or an earlier attempt has left it. -/
theorem AttemptInvariant.inspect (h : AttemptInvariant job s) {error : String}
    {current : JobRecord} (hphase : s.phase = .inspect error current) :
  AttemptInvariant job (s.inspect env error current)
  := by
  have hid : current.id = job.id := by
    have hsound := h.phase
    rw [hphase] at hsound
    apply hsound
  rw [Attempt.inspect]
  split
  · exact h.of_phase trivial
  · exact h.of_phase trivial
  case h_3 runningRun hruns =>
    split
    · exact h.of_phase trivial
    · apply h.of_phase
      use hid
      rintro run rfl
      obtain ⟨hlatest, hstatus, -⟩ := of_reconciliation_fail_some hruns
      obtain ⟨hrow, hjob⟩ := mem_listJobRuns.mp (latestRun_eq_some hlatest).1
      rw [hid] at hjob
      apply (h.kept.runs run hrow hjob hstatus).imp_right
      intro hattempt
      exact ⟨hrow, hjob, hattempt⟩

/-- The status that the job takes over keeps the invariant. -/
theorem AttemptInvariant.reconcile (h : AttemptInvariant job s) (current : JobRecord)
    (latest : RunRecord) :
  AttemptInvariant job (s.reconcile current latest)
  := by
  constructor
  · exact h.kept.of_runs (fun run hrow _ _ => hrow)
  · trivial

/-- The start of an attempt that failed keeps the invariant. -/
theorem AttemptInvariant.failStart (h : AttemptInvariant job s) {error : String}
    {current : JobRecord} {runningRun : Option RunRecord}
    (hphase : s.phase = .failing error current runningRun) :
  AttemptInvariant job (s.failStart requestedStart error current runningRun)
  := by
  have hsound := h.phase
  rw [hphase] at hsound
  obtain ⟨hid, hrunning⟩ := hsound
  apply h.of_phase
  use hid
  cases runningRun with
  | none =>
      left
      exact h.kept.afterRunning_latest hid [some current.createdAt] requestedStart
  | some run =>
      apply (hrunning run rfl).imp_right
      intro hleft
      use run, rfl

/-- A failure is recorded at the attempt that was begun, or at a later one. -/
theorem nextAttempt_le_failureAttempt (current job : JobRecord) :
  job.nextAttempt ≤ failureAttempt current job
  := by
  rw [failureAttempt]
  apply le_max_right

/-- The finish of an attempt that failed keeps the invariant. -/
theorem AttemptInvariant.failStamp (h : AttemptInvariant job s) {error : String}
    {current : JobRecord} {runningRun : Option RunRecord} {startedAt : Instant}
    (hphase : s.phase = .failStamping error current runningRun startedAt) (runId : Id)
    (clock : Instant) :
  AttemptInvariant job (s.failStamp job error current runningRun startedAt runId clock)
  := by
  have hsound := h.phase
  rw [hphase] at hsound
  obtain ⟨hid, hafter⟩ := hsound
  apply h.of_phase
  refine ⟨stamped_of_finishAttemptTimestamp h.kept.ordered hid rfl rfl,
    nextAttempt_le_failureAttempt current job, ?_⟩
  apply hafter.imp_right
  rintro ⟨run, rfl, hleft⟩
  use run, rfl

/-- The recording of a failure keeps the invariant. -/
theorem AttemptInvariant.failFinalize (h : AttemptInvariant job s) {run : RunRecord}
    (hphase : s.phase = .failFinalizing run) :
  AttemptInvariant job (s.failFinalize w job run)
  := by
  have hsound := h.phase
  rw [hphase] at hsound
  obtain ⟨hstamped, hattempt, hafter⟩ := hsound
  apply h.finalizeWith hstamped
  · apply hafter.imp_right
    rintro ⟨left, hid, hrow, -, hle⟩
    refine ⟨left, hid, ?_, hrow⟩
    apply (lt_of_le_of_lt hle (lt_of_lt_of_le (Nat.lt_succ_self _) hattempt)).ne
  · intro error
    trivial
  · intro outcome db evidence hrun
    cases outcome with
    | finalized => exact hrun
    | cancelled => trivial
    | stale => trivial

/-- The next event keeps the invariant. -/
theorem AttemptInvariant.emitNext (h : AttemptInvariant job s) {eventId : Id} {clock : Instant}
    (hstep : s.emitNext job requestedStart eventId clock = some t) :
  AttemptInvariant job t
  := by
  rw [Attempt.emitNext] at hstep
  have hsound := h.phase
  split at hstep
  case h_1 hphase =>
    cases hstep
    apply h.emitLeased hphase
  case h_2 hphase =>
    cases hstep
    apply h.emitRunning hphase
  case h_3 ending run hphase =>
    cases hstep
    rw [hphase] at hsound
    apply h.emitEnd hsound
    · intro error
      trivial
    · intro log evidence
      trivial
  case h_4 run hphase =>
    cases hstep
    rw [hphase] at hsound
    apply h.emitEnd hsound
    · intro error
      trivial
    · intro log evidence
      trivial
  case h_5 => cases hstep

/-- The next transaction on the database keeps the invariant. -/
theorem AttemptInvariant.tick (h : AttemptInvariant job s)
    (hstep : s.tick env w job requestedStart = some t) :
  AttemptInvariant job t
  := by
  rw [Attempt.tick] at hstep
  split at hstep
  case h_1 hphase =>
    cases hstep
    apply h.mark hphase
  case h_2 hphase =>
    cases hstep
    apply h.finalize hphase
  case h_3 =>
    cases hstep
    exact h.of_phase trivial
  case h_4 =>
    cases hstep
    apply h.getJob
  case h_5 hphase =>
    cases hstep
    apply h.inspect hphase
  case h_6 =>
    cases hstep
    apply h.reconcile
  case h_7 hphase =>
    cases hstep
    apply h.failStart hphase
  case h_8 hphase =>
    cases hstep
    apply h.failFinalize hphase
  case h_9 => cases hstep

/-- A rejection by the validation, or the return of the runtime, keeps the invariant. -/
theorem AttemptInvariant.finish (h : AttemptInvariant job s) {ending : Ending}
    (hstep : s.finish ending = some t) :
  AttemptInvariant job t
  := by
  have hsound := h.phase
  unfold Attempt.finish at hstep
  split at hstep
  case h_1 startedAt runId validationError hphase =>
    cases hstep
    rw [hphase] at hsound
    exact h.of_phase hsound
  case h_2 startedAt runId runId' result elapsed hphase =>
    split at hstep
    · cases hstep
      rw [hphase] at hsound
      exact h.of_phase hsound
    · cases hstep
  case h_3 => cases hstep

/-- An exception leads to a phase that relies on nothing. -/
theorem sound_of_raise {phase phase' : AttemptPhase} {error : String}
    (h : phase.raise error = some phase') :
  phase'.Sound job log db evidence
  := by
  cases phase with
  | done exception => cases h
  | _ =>
      cases h
      trivial

/-- A step keeps the invariant. -/
theorem AttemptInvariant.step (h : AttemptInvariant job s) {action : AttemptAction}
    (hstep : attemptStep env w job requestedStart s action = some t) :
  AttemptInvariant job t
  := by
  cases action with
  | persist event => apply h.persist hstep
  | change db => apply h.change hstep
  | emit eventId clock => apply h.emitNext hstep
  | tick => apply h.tick hstep
  | start runId =>
      simp only [attemptStep] at hstep
      split at hstep
      case h_1 startedAt hphase =>
        cases hstep
        apply h.startRun hphase
      case h_2 => cases hstep
  | finish ending => apply h.finish hstep
  | stamp runId clock =>
      simp only [attemptStep, Attempt.stampNext] at hstep
      split at hstep
      case h_1 hphase =>
        cases hstep
        apply h.stamp hphase
      case h_2 hphase =>
        cases hstep
        apply h.failStamp hphase
      case h_3 => cases hstep
  | raise error =>
      obtain ⟨phase, hraise, rfl⟩ := Option.map_eq_some_iff.mp hstep
      exact h.of_phase (sound_of_raise hraise)

/-- The invariant holds right after the claim. -/
theorem attemptInvariant_start {counter : ℕ} (hlog : log.Ordered counter)
    (hruns : EarlierRuns job db.runs) :
  AttemptInvariant job (Attempt.start log db)
  := by
  have hnone : ∀ e ∈ (Attempt.start log db).evidence, ∃ event, e = .leased event := by
    intro e he
    cases he
  constructor
  · constructor
    · exact ⟨counter, hlog⟩
    · apply causallyOrdered_of_leased hnone
    · intro event hevent
      cases hevent
    · intro event hevent
      cases hevent
    · intro run hrow hjob hstatus
      right
      apply hruns run hrow hjob hstatus
  · exact ⟨rfl, hruns⟩

end

/-- The attempt of a claimed job leaves its timestamps in causal order, along every run of the
attempt and its surroundings: from every state of the system and every event log that are
reached, with any clocks, any start requested, and an exception raised at any step. -/
theorem attempt_causally_ordered (env : Environment) (config : WorkerId → SchedulerConfig)
    {σ : System}
    (hσ : Transition.Path (step env config) (DrawsUnused env config) System.init σ)
    {w : WorkerId} {now leaseUntil : Instant} {limit : ℕ} {claimed : List JobRecord} {jobs : Jobs}
    (hclaim : claimDueJobs σ.db.jobs w now leaseUntil limit = (claimed, jobs)) {job : JobRecord}
    (hjob : job ∈ claimed) {log : EventDb}
    (hlog : Transition.Reaches eventStep EventDb.init log) (requestedStart : Instant)
    (actions : List AttemptAction) :
  Transition.Along (attemptStep env w job requestedStart)
    (fun _ _ t => CausallyOrdered t.evidence)
    (Attempt.start log { σ.db with jobs := jobs }) actions
  := by
  obtain ⟨counter, hordered⟩ := ordered_of_reaches hlog
  apply Transition.along_of_invariant (I := AttemptInvariant job) (P := fun _ _ _ => True)
  · intro s action t hs _ hstep
    have ht := hs.step hstep
    exact ⟨ht, ht.kept.causal⟩
  · apply attemptInvariant_start hordered
    exact earlierRuns_of_claim hσ hclaim hjob
  · apply Transition.along_true

/-- The state in which one job has been submitted. -/
def submittedOne : System :=
  { System.init with
    db := { System.init.db with
      jobs := (Table.empty.insert? { id := "a", kind := "report", createdAt := 50 }).getD .empty } }

/-- The job as the first scheduler has claimed it. -/
def claimedOne : JobRecord :=
  { id := "a", kind := "report", createdAt := 50, status := .leased, leaseOwner := some "s1"
    leasedUntil := some 100 }

/-- An attempt whose clocks run backwards, while an event of another job is persisted; the
runtime raises, and the failure is recorded in the running run. -/
def backwards : List AttemptAction :=
  [.emit "e1" 90, .tick, .persist { id := "e2", createdAt := 80, eventType := "job.created" },
    .emit "e3" 70, .start "r1",
    .persist { id := "e4", createdAt := 60, eventType := "worker.started", jobId := some "a" },
    .raise "RuntimeError: no container", .tick, .tick, .tick, .stamp "r2" 30, .tick,
    .emit "e5" 20]

/-- The timestamps of an attempt whose clocks run backwards are in causal order. -/
theorem attempt_causally_ordered_backwards :
  Transition.Along (attemptStep Environment.sample "s1" claimedOne 10)
      (fun _ _ t => CausallyOrdered t.evidence)
      (Attempt.start EventDb.init { submittedOne.db with
        jobs := (claimDueJobs submittedOne.db.jobs "s1" 60 100 10).2 }) backwards
    ∧ (Transition.run (attemptStep Environment.sample "s1" claimedOne 10)
      (Attempt.start EventDb.init { submittedOne.db with
        jobs := (claimDueJobs submittedOne.db.jobs "s1" 60 100 10).2 }) backwards).map
        (fun t => (t.evidence.length, t.phase)) = some (5, .done none)
  := by
  have hσ : Transition.Path (step Environment.sample sampleConfig)
      (DrawsUnused Environment.sample sampleConfig) System.init submittedOne := by
    apply Transition.Path.tail (Transition.Path.refl System.init)
      (a := .submit { id := "a", kind := "report", createdAt := 50 })
    · intro τ j _ _ _
      apply unused_init
    · rfl
  have hclaim : claimDueJobs submittedOne.db.jobs "s1" 60 100 10
      = ([claimedOne], (claimDueJobs submittedOne.db.jobs "s1" 60 100 10).2) := by
    decide +kernel
  constructor
  · exact attempt_causally_ordered _ _ hσ hclaim (List.mem_singleton_self claimedOne)
      (Transition.Path.refl EventDb.init) 10 backwards
  · decide +kernel

end GoblinKing
