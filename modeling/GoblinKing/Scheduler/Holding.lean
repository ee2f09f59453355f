import GoblinKing.Scheduler.Rows

/-!
# The jobs that a scheduler holds

The jobs that a scheduler carries through its pass: those it has claimed and not attempted
yet, and the one whose attempt is under way. It carries no job twice, and what the recovery
has read is the row of the job it recovers.
-/

namespace GoblinKing

/-- The claimed jobs whose attempt has not begun, in the order of the pass. -/
def Phase.pending : Phase → List JobRecord
  | .idle _ | .due _ _ | .saved _ _ _ => []
  | .check _ claimed runnable => runnable ++ claimed
  | .checkKind _ job _ claimed runnable => runnable ++ job :: claimed
  | .defer _ job _ claimed runnable => runnable ++ job :: claimed
  | .attempt _ jobs => jobs
  | .marked _ _ _ jobs | .started _ _ _ _ jobs | .finalized _ _ jobs => jobs
  | .recover _ _ _ jobs | .inspect _ _ _ _ jobs | .reconcile _ _ _ _ jobs => jobs
  | .fail _ _ _ _ _ jobs => jobs

/-- The job whose attempt is under way. -/
def Phase.current : Phase → Option JobRecord
  | .marked _ job _ _ | .started _ job _ _ _ | .finalized _ job _ => some job
  | .recover _ job _ _ | .inspect _ job _ _ _ | .reconcile _ job _ _ _ => some job
  | .fail _ job _ _ _ _ => some job
  | _ => none

/-- The row that the recovery has read. -/
def Phase.inspected : Phase → Option JobRecord
  | .inspect _ _ _ current _ | .reconcile _ _ current _ _ | .fail _ _ _ current _ _ => some current
  | _ => none

/-- All jobs that a scheduler holds. -/
def Phase.held (phase : Phase) : List JobRecord :=
  phase.current.toList ++ phase.pending

/-- A scheduler holds no job twice, and has read the row of the job it recovers. -/
structure Phase.Sound (phase : Phase) : Prop where
  nodup : (phase.held.map JobRecord.id).Nodup
  inspected : ∀ job row, phase.current = some job → phase.inspected = some row → row.id = job.id

/-- A scheduler that holds at most what another does, and has read no row, is sound when
the other one is. -/
theorem Phase.Sound.of_sublist {phase phase' : Phase} (h : phase.Sound)
    (hheld : phase'.held.Sublist phase.held) (hinspected : phase'.inspected = none) :
  phase'.Sound
  := by
  constructor
  · apply h.nodup.sublist (hheld.map JobRecord.id)
  · intro job row hjob hrow
    rw [hinspected] at hrow
    cases hrow

/-- A scheduler that holds what another one does is sound when it has read the row of the
same job. -/
theorem Phase.Sound.of_held_eq {phase phase' : Phase} (h : phase.Sound)
    (hheld : phase'.held = phase.held)
    (hinspected : ∀ job row, phase'.current = some job → phase'.inspected = some row →
      row.id = job.id) :
  phase'.Sound
  := by
  constructor
  · rw [hheld]
    apply h.nodup
  · apply hinspected

/-- A scheduler without jobs is sound. -/
theorem Phase.Sound.of_held_nil {phase : Phase} (hheld : phase.held = [])
    (hinspected : phase.inspected = none) :
  phase.Sound
  := by
  constructor
  · rw [hheld]
    apply List.nodup_nil
  · intro job row hjob hrow
    rw [hinspected] at hrow
    cases hrow

/-- The jobs that a claim returns have distinct identifiers. -/
theorem nodup_claimDueJobs {jobs jobs' : Jobs} {w : WorkerId} {now leaseUntil : Instant}
    {limit : ℕ} {claimed : List JobRecord}
    (h : claimDueJobs jobs w now leaseUntil limit = (claimed, jobs')) :
  (claimed.map JobRecord.id).Nodup
  := by
  obtain rfl := congrArg Prod.fst h
  simp only [claimDueJobs_fst, List.map_map]
  apply nodup_claimSelection jobs now limit

/-- A step of a scheduler keeps it sound. -/
theorem WorkerStep.sound {env : Environment} {config : SchedulerConfig} {w : WorkerId}
    {db db' : Db} {phase phase' : Phase} {events : List Event}
    (h : WorkerStep env config w db phase db' phase' events) (hphase : phase.Sound) :
  phase'.Sound
  := by
  cases h
  case claim hclaim =>
    constructor
    · apply nodup_claimDueJobs hclaim
    · rintro job row ⟨⟩
  case defer =>
    apply hphase.of_sublist _ rfl
    simp [Phase.held, Phase.current, Phase.pending]
  case superseded =>
    apply hphase.of_sublist (List.sublist_cons_self _ _) rfl
  case returnJob =>
    apply hphase.of_sublist _ rfl
    simp [Phase.held, Phase.current, Phase.pending]
  case returnWithinKind =>
    apply hphase.of_sublist _ rfl
    simp [Phase.held, Phase.current, Phase.pending]
  case enterLeases =>
    apply hphase.of_sublist _ rfl
    simp [Phase.held, Phase.current, Phase.pending]
  case emitted =>
    apply hphase.of_sublist (List.sublist_cons_self _ _) rfl
  case finishLost =>
    apply hphase.of_sublist (List.sublist_cons_self _ _) rfl
  case settled =>
    apply hphase.of_sublist (List.sublist_cons_self _ _) rfl
  case reconcile =>
    apply hphase.of_sublist (List.sublist_cons_self _ _) rfl
  case fail =>
    apply hphase.of_sublist (List.sublist_cons_self _ _) rfl
  case recover hjob =>
    refine hphase.of_held_eq rfl ?_
    rintro _ _ ⟨⟩ ⟨⟩
    apply Table.key_of_find? hjob
  case unfinished hruns =>
    refine hphase.of_held_eq rfl ?_
    rintro _ _ ⟨⟩ ⟨⟩
    apply hphase.inspected _ _ rfl rfl
  case failed hruns hpolicy =>
    refine hphase.of_held_eq rfl ?_
    rintro _ _ ⟨⟩ ⟨⟩
    apply hphase.inspected _ _ rfl rfl
  case begin => apply Phase.Sound.of_held_nil rfl rfl
  case beginRaised => apply Phase.Sound.of_held_nil rfl rfl
  case materialize => apply Phase.Sound.of_held_nil rfl rfl
  case rejected => apply Phase.Sound.of_held_nil rfl rfl
  case unregistered => apply Phase.Sound.of_held_nil rfl rfl
  case advance => apply Phase.Sound.of_held_nil rfl rfl
  case advanceRaised => apply Phase.Sound.of_held_nil rfl rfl
  case badPolicy => apply Phase.Sound.of_held_nil rfl rfl
  case noLease => apply Phase.Sound.of_held_nil rfl rfl
  case finishPass => apply Phase.Sound.of_held_nil rfl rfl
  case disappeared => apply Phase.Sound.of_held_nil rfl rfl
  case failedPolicy => apply Phase.Sound.of_held_nil rfl rfl
  case failRaised => apply Phase.Sound.of_held_nil rfl rfl
  -- the other steps hold on to what was held
  all_goals
    refine hphase.of_sublist ?_ rfl
    apply List.Sublist.refl

/-- Every scheduler is sound. -/
def SoundPhases (σ : System) : Prop :=
  ∀ w, (σ.phase w).Sound

/-- Idle schedulers are sound. -/
theorem soundPhases_init : SoundPhases System.init
  := by
  intro w
  apply Phase.Sound.of_held_nil rfl rfl

/-- Every step keeps the schedulers sound. -/
theorem SoundPhases.step {env : Environment} {config : WorkerId → SchedulerConfig}
    {σ τ : System} {a : Action} (hσ : SoundPhases σ) (h : step env config σ a = some τ) :
  SoundPhases τ
  := by
  intro w
  rcases phaseStep_of_step h w with ⟨-, hsame⟩ | ⟨-, db, phase, events, hstep, rfl⟩
  · rw [hsame]
    apply hσ w
  · rw [System.after_phase_self]
    apply hstep.sound (hσ w)

end GoblinKing
