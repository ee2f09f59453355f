import GoblinKing.Scheduler.LeaseThreads

/-!
# Leases that are kept

A scheduler that carries a job keeps its lease as long as its thread starts and renews in time: every
renewal is made within a delay after it is due, few renewals in a row raise, and the length of the lease
leaves room for both. Then no other scheduler comes to hold the job, whatever all parties do in the meantime, and the
store accepts what the scheduler writes about its attempt.
-/

namespace GoblinKing

open Renewal (OnSchedule)

/-! ### Timely runs -/

section

variable (env : Environment) (config : WorkerId → SchedulerConfig) (w : WorkerId) (j : Id)
  (delay skew : ℚ) (allowed : ℕ)

/-- A step keeps to the time. Renewals are made within a delay, not too many of them raise in a row, the
clock of no scheduler is fast by more than a skew, and the job is not cancelled. -/
def timely (s : TimedSystem) : TimedAction → Bool
  | .elapse time => s.thread.due.all (fun due => decide ((time : ℚ) ≤ due + delay))
  | .transaction (.cancel jobId) => decide (jobId ≠ j)
  | .transaction (.scheduler _ (.begin now)) => decide ((now : ℚ) ≤ s.time + skew)
  | .renewRaises => decide (s.failures < allowed)
  | _ => true

/-- A step keeps to the time, and the scheduler carries the job after it. -/
def carriesOn (s : TimedSystem) (a : TimedAction) : Bool :=
  timely j delay skew allowed s a
    && (timedStep env config w j s a).all (fun t => decide ((t.system.phase w).Carries j))

/-- A scheduler has read a clock, has claimed a job with it, and enters the scope of its lease no later than
a first renewal would be made from that clock on. No other scheduler holds the job, and none is about to claim
jobs with a clock that is fast by more than the skew. -/
structure EntersLease (clock : Instant) (s : TimedSystem) : Prop where
  reachable : Transition.Reaches (step env config) System.init s.system
  phase : ∃ jobs, s.system.phase w = .attempt clock jobs ∧ ∃ job ∈ jobs, job.id = j
  row : ∃ row, s.system.db.jobs.find? j = some row ∧ row.status = .leased ∧ row.leaseOwner = some w ∧
    row.leasedUntil = some (clock + seconds (config w).leaseSeconds)
  alone : ∀ v, v ≠ w → ∀ job ∈ (s.system.phase v).held, job.id ≠ j
  clocks : ∀ v now, (s.system.phase v).claimClock = some now → (now : ℚ) ≤ s.time + skew
  thread : s.thread = .ready s.time
  failures : s.failures = 0
  early : (s.time : ℚ) ≤ clock + (renewInterval (config w).leaseSeconds + delay)

/-- What a timely run keeps. -/
structure LeaseKept (s : TimedSystem) (row : JobRecord) (leasedUntil : Instant) (granted due : ℚ) :
    Prop where
  carries : (s.system.phase w).Carries j
  found : s.system.db.jobs.find? j = some row
  held : row.HeldBy w leasedUntil
  knows : (s.system.phase w).KnowsRow j row
  alone : ∀ v, v ≠ w → ∀ job ∈ (s.system.phase v).held, job.id ≠ j
  clocks : ∀ v now, (s.system.phase v).claimClock = some now → (now : ℚ) ≤ s.time + skew
  sound : SoundPhases s.system
  thread_due : s.thread.due = some due
  ready : s.thread = .ready due → due ≤ s.time
  read : ∀ clock, s.thread = .renewing due clock → due ≤ clock
  granted_le : granted + (seconds (config w).leaseSeconds : ℤ) ≤ leasedUntil
  onSchedule : OnSchedule (renewInterval (config w).leaseSeconds) delay ⟨granted, due, s.failures, s.time⟩
  failures : s.failures ≤ allowed

end

/-- The interval is positive. -/
theorem renewInterval_pos (leaseSeconds : ℤ) :
  0 < renewInterval leaseSeconds
  := by
  unfold renewInterval
  apply mul_pos (lt_min (lt_max_of_lt_right _) _) <;> norm_num

section

variable {env : Environment} {config : WorkerId → SchedulerConfig} {w : WorkerId} {j : Id}
  {σ τ : System} {a : Action} {row : JobRecord} {leasedUntil : Instant}

/-! ### Transactions -/

/-- A transaction of any party leaves a job with the scheduler that carries it, unless it cancels the job. -/
theorem JobRecord.HeldBy.step (h : row.HeldBy w leasedUntil) (hstep : step env config σ a = some τ)
    (hsound : SoundPhases σ) (hrow : σ.db.jobs.find? j = some row) (hknows : (σ.phase w).KnowsRow j row)
    (hcarried : (σ.phase w).Carries j) (hcarries : (τ.phase w).Carries j)
    (halone : ∀ v, v ≠ w → ∀ job ∈ (σ.phase v).held, job.id ≠ j)
    (hclock : ∀ v now, (σ.phase v).claimClock = some now → now < leasedUntil)
    (hcancel : a ≠ .cancel j) :
  ∃ next until', τ.db.jobs.find? j = some next ∧ next.HeldBy w until' ∧ leasedUntil ≤ until' ∧
    (τ.phase w).KnowsRow j next ∧ ∀ v, v ≠ w → ∀ job ∈ (τ.phase v).held, job.id ≠ j
  := by
  cases a with
  | submit job =>
      simp only [GoblinKing.step] at hstep
      split_ifs at hstep with hsubmitted
      obtain ⟨jobs, hsave, rfl⟩ := Option.map_eq_some_iff.mp hstep
      refine ⟨row, leasedUntil, ?_, h, le_rfl, hknows, halone⟩
      rw [Table.find?_insert? hsave, if_neg]
      · apply hrow
      · rintro rfl
        rw [Table.find?_of_insert? hsave] at hrow
        cases hrow
  | cancel jobId =>
      cases hstep
      refine ⟨row, leasedUntil, ?_, h, le_rfl, hknows, halone⟩
      simp only [find?_tryCancelJob, hrow, Option.map_some]
      rw [if_neg]
      rintro ⟨hid, -⟩
      apply hcancel
      rw [← hid, Table.key_of_find? hrow]
  | renew v jobId leaseUntil =>
      cases hstep
      by_cases hhit : row.id = jobId ∧ row.status.isActive = true ∧ row.leaseOwner = some v
      · refine ⟨row.renew leaseUntil, _, ?_, h.renew leaseUntil, le_max_left _ _,
          ⟨hknows.pending, hknows.working⟩, halone⟩
        simp only [find?_tryRenewJobLease, hrow, Option.map_some]
        rw [if_pos hhit]
      · refine ⟨row, leasedUntil, ?_, h, le_rfl, hknows, halone⟩
        simp only [find?_tryRenewJobLease, hrow, Option.map_some]
        rw [if_neg hhit]
  | cleanup projectId =>
      cases hstep
      refine ⟨row, leasedUntil, ?_, h, le_rfl, hknows, halone⟩
      have hlive : row.status.isTerminal = false := by
        by_contra hterminal
        have hactive := h.active
        rw [JobStatus.not_isActive (Bool.not_eq_false _ ▸ hterminal)] at hactive
        cases hactive
      simp only [Table.find?_delete, hrow]
      simp [Option.filter, hlive]
  | create kinds request projectId scheduleId createdAt =>
      simp only [GoblinKing.step] at hstep
      split at hstep
      · cases hstep
      · cases hstep
        exact ⟨row, leasedUntil, hrow, h, le_rfl, hknows, halone⟩
  | readPatch requestId scheduleId request =>
      obtain ⟨hdb, hphase, -⟩ := readPatch_frame hstep
      rw [hdb, hphase]
      exact ⟨row, leasedUntil, hrow, h, le_rfl, hknows, halone⟩
  | writePatch requestId now =>
      obtain ⟨hjobs, -, hphase, -⟩ := writePatch_frame hstep
      rw [hjobs, hphase]
      exact ⟨row, leasedUntil, hrow, h, le_rfl, hknows, halone⟩
  | scheduler v action =>
      obtain ⟨db, phase, events, hworker, rfl⟩ := workerStep_of_step hstep
      by_cases hv : v = w
      · subst hv
        rw [System.after_phase_self] at hcarries ⊢
        obtain ⟨next, hnext, hheld, hnextKnows⟩ :=
          hworker.keepsRow (hsound v) hrow h hknows hcarried hcarries
        refine ⟨next, leasedUntil, hnext, hheld, le_rfl, hnextKnows, ?_⟩
        intro u hu
        rw [System.after_phase_of_ne σ hu]
        apply halone u hu
      · refine ⟨row, leasedUntil, ?_, h, le_rfl, ?_, ?_⟩
        · apply hworker.find?_of_heldBy (hsound v) hrow h (hclock v)
          intro job hjob
          apply halone v hv job (Phase.mem_held_of_subject hjob)
        · rw [System.after_phase_of_ne σ (Ne.symm hv)]
          apply hknows
        · intro u hu
          by_cases huv : u = v
          · subst huv
            rw [System.after_phase_self]
            apply hworker.held_ne hrow h (hclock u) (halone u hu)
          · rw [System.after_phase_of_ne σ huv]
            apply halone u hu

/-- The clocks of the schedulers stay below a bound when passes begin below it. -/
theorem claimClock_of_step (hstep : step env config σ a = some τ) {bound : ℚ}
    (hbegin : ∀ v now, a = .scheduler v (.begin now) → (now : ℚ) ≤ bound)
    (hclocks : ∀ v now, (σ.phase v).claimClock = some now → (now : ℚ) ≤ bound) (v : WorkerId)
    (now : Instant) (hnow : (τ.phase v).claimClock = some now) :
  (now : ℚ) ≤ bound
  := by
  cases a with
  | scheduler u action =>
      simp only [step, Option.map_eq_some_iff] at hstep
      obtain ⟨⟨db, phase, events⟩, hscheduler, rfl⟩ := hstep
      by_cases hv : v = u
      · subst hv
        rw [System.after_phase_self] at hnow
        rcases claimClock_of_schedulerStep hscheduler hnow with hbefore | rfl
        · apply hclocks v now hbefore
        · apply hbegin v now rfl
      · rw [System.after_phase_of_ne σ hv] at hnow
        apply hclocks v now hnow
  | _ =>
      rcases phaseStep_of_step hstep v with ⟨-, hsame⟩ | ⟨hworker, -⟩
      · rw [hsame] at hnow
        apply hclocks v now hnow
      · cases hworker

/-! ### Steps in time -/

variable {delay skew : ℚ} {allowed : ℕ} {s t : TimedSystem} {granted due : ℚ}

/-- A lease that is kept has not run out on any clock. -/
theorem LeaseKept.lt_leasedUntil (h : LeaseKept config w j delay skew allowed s row leasedUntil granted due)
    (hdelay : 0 ≤ delay)
    (hmargin : (allowed + 1) * (renewInterval (config w).leaseSeconds + delay) + delay + skew
      < (seconds (config w).leaseSeconds : ℤ)) :
  (s.time : ℚ) + skew < leasedUntil
  := by
  have hnonneg : 0 ≤ renewInterval (config w).leaseSeconds + delay :=
    add_nonneg (renewInterval_pos _).le hdelay
  exact (h.onSchedule.lt_of_margin hnonneg h.failures hmargin).trans_le h.granted_le

/-- A transaction keeps the lease. -/
theorem LeaseKept.transaction
    (h : LeaseKept config w j delay skew allowed s row leasedUntil granted due) (hdelay : 0 ≤ delay)
    (hmargin : (allowed + 1) * (renewInterval (config w).leaseSeconds + delay) + delay + skew
      < (seconds (config w).leaseSeconds : ℤ))
    (htimely : timely j delay skew allowed s (.transaction a) = true)
    (hcarries : (τ.phase w).Carries j) (hstep : step env config s.system a = some τ) :
  ∃ next until', LeaseKept config w j delay skew allowed { s with system := τ } next until' granted due
  := by
  have hlt := h.lt_leasedUntil hdelay hmargin
  have hclock : ∀ v now, (s.system.phase v).claimClock = some now → now < leasedUntil := by
    intro v now hnow
    exact_mod_cast (h.clocks v now hnow).trans_lt hlt
  have hcancel : a ≠ .cancel j := by
    rintro rfl
    simp [timely] at htimely
  have hbegin : ∀ v now, a = .scheduler v (.begin now) → (now : ℚ) ≤ s.time + skew := by
    rintro v now rfl
    simpa [timely] using htimely
  obtain ⟨next, until', hnext, hheld, hle, hknows, halone⟩ :=
    h.held.step hstep h.sound h.found h.knows h.carries hcarries h.alone hclock hcancel
  use next, until'
  exact { h with
    carries := hcarries
    found := hnext
    held := hheld
    knows := hknows
    alone := halone
    clocks := claimClock_of_step hstep hbegin h.clocks
    sound := h.sound.step hstep
    granted_le := h.granted_le.trans (by exact_mod_cast hle) }

/-- The renewal of a lease that is kept finds the job. -/
theorem LeaseKept.tryRenew (h : LeaseKept config w j delay skew allowed s row leasedUntil granted due)
    (leaseUntil : Instant) :
  (tryRenewJobLease s.system.db.jobs j w leaseUntil).1 = true ∧
    (tryRenewJobLease s.system.db.jobs j w leaseUntil).2.find? j = some (row.renew leaseUntil)
  := by
  constructor
  · rw [tryRenewJobLease, beq_iff_eq]
    apply Table.count_key_eq_one.mpr
    use row, h.found
    simp [h.held.active, h.held.owner]
  · rw [find?_tryRenewJobLease, h.found, Option.map_some,
      if_pos ⟨Table.key_of_find? h.found, h.held.active, h.held.owner⟩]

/-- Time may pass until the next renewal is late. -/
theorem LeaseKept.elapse (h : LeaseKept config w j delay skew allowed s row leasedUntil granted due)
    {time : Instant} (hle : s.time ≤ time) (htime : (time : ℚ) ≤ due + delay) :
  LeaseKept config w j delay skew allowed { s with time := time } row leasedUntil granted due
  := by
  have hle' : (s.time : ℚ) ≤ time := by exact_mod_cast hle
  refine { h with clocks := ?_, ready := ?_, onSchedule := h.onSchedule.elapse htime }
  · intro v now hnow
    have hclock := h.clocks v now hnow
    simp only
    linarith
  · intro hready
    apply (h.ready hready).trans hle'

/-- A renewal keeps the lease. -/
theorem LeaseKept.renewLease (h : LeaseKept config w j delay skew allowed s row leasedUntil granted due)
    (hnonneg : 0 ≤ renewInterval (config w).leaseSeconds + delay) {clock : Instant} (hclock : due ≤ clock) :
  LeaseKept config w j delay skew allowed (s.renewLease config w j clock)
    (row.renew (clock + seconds (config w).leaseSeconds))
    (max leasedUntil (clock + seconds (config w).leaseSeconds)) clock
    (s.time + renewInterval (config w).leaseSeconds)
  := by
  obtain ⟨hrenewed, hfind⟩ := h.tryRenew (clock + seconds (config w).leaseSeconds)
  simp only [TimedSystem.renewLease, hrenewed, if_true]
  refine { h with
    found := hfind
    held := h.held.renew _
    knows := ⟨h.knows.pending, h.knows.working⟩
    thread_due := rfl
    ready := ?_
    read := ?_
    granted_le := ?_
    onSchedule := h.onSchedule.renew hnonneg hclock
    failures := Nat.zero_le _ }
  · rintro ⟨⟩
  · rintro _ ⟨⟩
  · exact_mod_cast le_max_right _ _

/-- The thread is where the next renewal is due. -/
theorem LeaseKept.due_eq (h : LeaseKept config w j delay skew allowed s row leasedUntil granted due)
    {thread : LeaseThread} {due' : ℚ} (hthread : s.thread = thread) (hdue : thread.due = some due') :
  due' = due
  := by
  have hsame := h.thread_due
  rw [hthread, hdue] at hsame
  apply Option.some.inj hsame

/-- A timely step keeps the lease. -/
theorem LeaseKept.step (h : LeaseKept config w j delay skew allowed s row leasedUntil granted due)
    (hdelay : 0 ≤ delay)
    (hmargin : (allowed + 1) * (renewInterval (config w).leaseSeconds + delay) + delay + skew
      < (seconds (config w).leaseSeconds : ℤ))
    {action : TimedAction} (hcarriesOn : carriesOn env config w j delay skew allowed s action = true)
    (hstep : timedStep env config w j s action = some t) :
  ∃ row leasedUntil granted due, LeaseKept config w j delay skew allowed t row leasedUntil granted due
  := by
  have hnonneg : 0 ≤ renewInterval (config w).leaseSeconds + delay :=
    add_nonneg (renewInterval_pos _).le hdelay
  rw [carriesOn, hstep, Bool.and_eq_true, Option.all_some, decide_eq_true_eq] at hcarriesOn
  obtain ⟨htimely, hcarries⟩ := hcarriesOn
  cases action with
  | elapse time =>
      simp only [timedStep] at hstep
      split at hstep
      case isFalse => cases hstep
      case isTrue hle =>
        cases hstep
        have htime : (time : ℚ) ≤ due + delay := by simpa [timely, h.thread_due] using htimely
        exact ⟨row, leasedUntil, granted, due, h.elapse hle htime⟩
  | transaction action =>
      simp only [timedStep, Option.map_eq_some_iff] at hstep
      obtain ⟨τ, hstep, rfl⟩ := hstep
      obtain ⟨next, until', hnext⟩ := h.transaction hdelay hmargin htimely hcarries hstep
      exact ⟨next, until', granted, due, hnext⟩
  | readClock =>
      simp only [timedStep] at hstep
      split at hstep
      case h_2 => cases hstep
      case h_1 due' hthread =>
        cases hstep
        obtain rfl := h.due_eq hthread rfl
        use row, leasedUntil, granted, due'
        refine { h with thread_due := rfl, ready := ?_, read := ?_ }
        · rintro ⟨⟩
        · rintro clock ⟨⟩
          apply h.ready hthread
  | renew =>
      simp only [timedStep] at hstep
      split at hstep
      case h_2 => cases hstep
      case h_1 due' clock hthread =>
        obtain rfl := h.due_eq hthread rfl
        cases hstep
        exact ⟨_, _, _, _, h.renewLease hnonneg (h.read clock hthread)⟩
  | renewRaises =>
      simp only [timedStep] at hstep
      split at hstep
      case h_2 => cases hstep
      case h_1 due' clock hthread =>
        cases hstep
        obtain rfl := h.due_eq hthread rfl
        have hfailures : s.failures < allowed := by simpa [timely] using htimely
        use row, leasedUntil, granted, s.time + renewInterval (config w).leaseSeconds
        refine { h with
          thread_due := rfl
          ready := ?_
          read := ?_
          onSchedule := h.onSchedule.fail hnonneg
          failures := hfailures }
        · rintro ⟨⟩
        · rintro _ ⟨⟩
  | wake =>
      simp only [timedStep] at hstep
      split at hstep
      case h_2 => cases hstep
      case h_1 due' hthread =>
        split at hstep
        case isFalse => cases hstep
        case isTrue hwake =>
          cases hstep
          obtain rfl := h.due_eq hthread rfl
          use row, leasedUntil, granted, due'
          refine { h with thread_due := rfl, ready := fun _ => hwake, read := ?_ }
          rintro _ ⟨⟩
  | exit =>
      simp only [timedStep] at hstep
      split at hstep
      case h_2 => cases hstep
      case h_1 hidle =>
        obtain ⟨job, hjob, -⟩ := h.carries
        rw [hidle] at hjob
        cases hjob

/-- The scope of a lease begins with a lease that is kept. -/
theorem EntersLease.kept {clock : Instant} (h : EntersLease env config w j delay skew clock s)
    (hdelay : 0 ≤ delay) :
  ∃ row leasedUntil granted due, LeaseKept config w j delay skew allowed s row leasedUntil granted due
  := by
  obtain ⟨jobs, hphase, hcarries⟩ := h.phase
  obtain ⟨row, hrow, hleased, howner, hleasedUntil⟩ := h.row
  use row, clock + seconds (config w).leaseSeconds, clock, s.time
  constructor
  case carries =>
    rw [hphase]
    apply hcarries
  case found => apply hrow
  case held =>
    refine ⟨?_, howner, hleasedUntil⟩
    rw [hleased]
    rfl
  case knows =>
    rw [hphase]
    refine ⟨fun _ _ _ => hleased, ?_⟩
    rintro job ⟨⟩
  case alone => apply h.alone
  case clocks => apply h.clocks
  case sound => apply h.reachable.invariant (fun _ _ _ hσ _ hstep => hσ.step hstep) soundPhases_init
  case thread_due =>
    rw [h.thread]
    rfl
  case ready => exact fun _ => le_rfl
  case read =>
    rw [h.thread]
    rintro clock ⟨⟩
  case granted_le =>
    push_cast
    apply le_rfl
  case onSchedule =>
    have hearly := h.early
    rw [h.failures]
    constructor
    · simpa using hearly
    · simpa using hdelay
  case failures =>
    rw [h.failures]
    apply Nat.zero_le

/-- While a scheduler carries a job that it has claimed, and its thread has started and renews the lease in
time, the job stays with it: its lease has not run out on the clock of any scheduler, and no other one holds the job. The
store lets it begin the attempt, and finds the attempt to be its own when it ends. -/
theorem lease_kept (env : Environment) (config : WorkerId → SchedulerConfig) (w : WorkerId) (j : Id)
    (delay skew : ℚ) (allowed : ℕ) (clock : Instant) (s t : TimedSystem) (hdelay : 0 ≤ delay)
    (hmargin : (allowed + 1) * (renewInterval (config w).leaseSeconds + delay) + delay + skew
      < (seconds (config w).leaseSeconds : ℤ))
    (hstart : EntersLease env config w j delay skew clock s)
    (hpath : Transition.Path (timedStep env config w j)
      (fun s a => carriesOn env config w j delay skew allowed s a = true) s t) :
  ∃ row leasedUntil, t.system.db.jobs.find? j = some row ∧ row.HeldBy w leasedUntil ∧
    (t.time : ℚ) + skew < leasedUntil ∧
    (∀ v, v ≠ w → ∀ job ∈ (t.system.phase v).held, job.id ≠ j) ∧
    (∀ now job jobs, t.system.phase w = .attempt now (job :: jobs) → job.id = j →
      (tryMarkJobRunning t.system.db.jobs j job.nextAttempt w).1 = true) ∧
    ∀ now job startedAt runId jobs, t.system.phase w = .started now job startedAt runId jobs →
      job.id = j → row.ownsAttempt w job.nextAttempt = true
  := by
  have hkept : ∃ row leasedUntil granted due,
      LeaseKept config w j delay skew allowed t row leasedUntil granted due := by
    apply hpath.invariant _ (hstart.kept hdelay)
    rintro s action t ⟨row, leasedUntil, granted, due, h⟩ hcarriesOn hstep
    apply h.step hdelay hmargin hcarriesOn hstep
  obtain ⟨row, leasedUntil, granted, due, h⟩ := hkept
  refine ⟨row, leasedUntil, h.found, h.held, h.lt_leasedUntil hdelay hmargin, h.alone, ?_, ?_⟩
  · intro now job jobs hphase hid
    rw [tryMarkJobRunning_fst]
    have hleased := h.knows.pending job (by rw [hphase]; exact List.mem_cons_self) hid
    exact ⟨row, h.found, hleased, h.held.owner⟩
  · intro now job startedAt runId jobs hphase hid
    obtain ⟨hrunning, hattempt⟩ := h.knows.working job (by rw [hphase]; rfl) hid
    simp [JobRecord.ownsAttempt, h.held.owner, hrunning, hattempt]

end

/-! ### An attempt that outlasts its lease -/

/-- Only the scheduler takes steps. -/
def runsAlone (w : WorkerId) (_ : System) (a : Action) : Bool :=
  a.worker.all (fun v => decide (v = w))

/-- The other schedulers are idle when one runs alone. -/
theorem phase_of_runsAlone {env : Environment} {config : WorkerId → SchedulerConfig} {v w : WorkerId}
    {σ : System}
    (h : Transition.Path (step env config) (fun σ a => runsAlone w σ a = true) System.init σ)
    (hv : v ≠ w) :
  σ.phase v = .idle none
  := by
  apply h.invariant (I := fun σ => σ.phase v = .idle none) _ rfl
  intro σ a τ hσ halone hstep
  rcases phaseStep_of_step hstep v with ⟨-, hsame⟩ | ⟨hworker, -⟩
  · rw [hsame, hσ]
  · rw [runsAlone, hworker, Option.all_some, decide_eq_true_eq] at halone
    exact absurd halone hv

/-- A job is claimed, and its attempt is to begin. -/
def claimedOnce : List Action :=
  [.submit { id := "a", kind := "report", createdAt := 0 }, .scheduler "s1" (.begin 10),
    .scheduler "s1" .tick, .scheduler "s1" .tick, .scheduler "s1" .tick]

/-- The job of that attempt as its scheduler holds it. -/
def claimedJob : JobRecord where
  id := "a"
  kind := "report"
  createdAt := 0
  status := .leased
  leaseOwner := some "s1"
  leasedUntil := some 60000010

/-- The thread of the job starts. -/
def leaseStart (σ : System) : TimedSystem :=
  ⟨σ, 20, .ready 20, 0⟩

/-- The attempt begins. It takes longer than the lease: the second renewal raises, the third one goes through,
and after that another scheduler makes a pass. -/
def slowAttempt : List TimedAction :=
  [.readClock, .renew, .transaction (.scheduler "s1" (.mark 21)),
    .transaction (.scheduler "s1" (.start "r1")), .elapse 20000025, .wake, .readClock, .renewRaises,
    .elapse 40000030, .wake, .readClock, .renew, .elapse 60000032,
    .transaction (.scheduler "s2" (.begin 60000031)), .transaction (.scheduler "s2" .tick),
    .transaction (.scheduler "s2" .tick), .transaction (.scheduler "s2" .tick)]

/-- The scope of the lease begins, and what happens then keeps to the time. -/
theorem exists_slowAttempt :
  ∃ σ t, EntersLease Environment.sample sampleConfig "s1" "a" 5000000 1000000 10 (leaseStart σ)
    ∧ Transition.Path (timedStep Environment.sample sampleConfig "s1" "a") (fun s a =>
        carriesOn Environment.sample sampleConfig "s1" "a" 5000000 1000000 1 s a = true) (leaseStart σ) t
    ∧ t.time = 60000032
  := by
  have hseen : (sampleRunUnder (runsAlone "s1") claimedOnce).map
      (fun σ => (σ.phase "s1", σ.db.jobs.find? "a",
        (Transition.runUnder (timedStep Environment.sample sampleConfig "s1" "a")
          (carriesOn Environment.sample sampleConfig "s1" "a" 5000000 1000000 1)
          (leaseStart σ) slowAttempt).map TimedSystem.time))
      = some (.attempt 10 [claimedJob], some claimedJob, some 60000032) := by
    decide +kernel
  obtain ⟨σ, hrun, hseen⟩ := Option.map_eq_some_iff.mp hseen
  simp only [Prod.mk.injEq] at hseen
  obtain ⟨hphase, hrow, hslow⟩ := hseen
  obtain ⟨t, ht, htime⟩ := Option.map_eq_some_iff.mp hslow
  have hpath := Transition.path_of_runUnder hrun
  have hothers : ∀ v, v ≠ "s1" → σ.phase v = .idle none := fun v hv => phase_of_runsAlone hpath hv
  use σ, t
  refine ⟨?_, Transition.path_of_runUnder ht, htime⟩
  constructor
  case reachable => apply hpath.mono (fun _ _ _ => trivial)
  case phase => exact ⟨[claimedJob], hphase, claimedJob, List.mem_cons_self, rfl⟩
  case row => exact ⟨claimedJob, hrow, rfl, rfl, rfl⟩
  case alone =>
    intro v hv job hjob
    rw [leaseStart, hothers v hv] at hjob
    cases hjob
  case clocks =>
    intro v now hnow
    by_cases hv : v = "s1"
    · rw [hv, leaseStart, hphase] at hnow
      cases hnow
    · rw [leaseStart, hothers v hv] at hnow
      cases hnow
  case thread => rfl
  case failures => rfl
  case early =>
    have hearly : ((20 : ℤ) : ℚ) ≤ (10 : ℤ) + (renewInterval 60 + 5000000) := by
      decide +kernel
    apply hearly

/-- The attempt goes on after the instant until which its job was claimed, and the lease is kept. -/
theorem lease_kept_slowAttempt :
  ∃ (t : TimedSystem) (row : JobRecord) (leasedUntil : Instant), t.time = 60000032 ∧
    t.system.db.jobs.find? "a" = some row ∧ row.HeldBy "s1" leasedUntil ∧
    (t.time : ℚ) + 1000000 < leasedUntil
  := by
  obtain ⟨σ, t, hstart, hpath, htime⟩ := exists_slowAttempt
  have hmargin : (((1 : ℕ) : ℚ) + 1) * (renewInterval 60 + 5000000) + 5000000 + 1000000
      < ((seconds 60 : ℤ) : ℚ) := by
    decide +kernel
  obtain ⟨row, leasedUntil, hrow, hheld, hlt, -⟩ := lease_kept Environment.sample sampleConfig "s1" "a"
    5000000 1000000 1 10 (leaseStart σ) t (by norm_num) hmargin hstart hpath
  use t, row, leasedUntil, htime, hrow, hheld

end GoblinKing
