import GoblinKing.Scheduler.ScheduleRows
import GoblinKing.Scheduler.Passes

/-!
# Occurrences of schedules

An occurrence of a schedule is a value of its next run. It should be queued once, and a
schedule that a request has disabled should stay as the request has left it. But listing the
due schedules, saving the job of one and advancing it are three transactions, and none of
them looks at what the row has become since; a patch request writes back every column of the
record it has read. The occurrences are queued once as long as every write finds its row as
it relies on it.
-/

namespace GoblinKing

/-- The occurrences of a schedule for which a job was saved, the last one first. -/
def queued (scheduleId : Id) (log : List Event) : List Instant :=
  log.filterMap (fun event => match event with
    | .materialized _ schedule => if schedule.id = scheduleId then some schedule.nextRunAt else none
    | _ => none)

/-- The event advances the schedule. -/
def Event.advances (scheduleId : Id) : Event → Bool
  | .advanced _ schedule => decide (schedule.id = scheduleId)
  | _ => false

/-- The occurrences for which a job was saved since the schedule was last advanced. -/
def unadvanced (scheduleId : Id) (log : List Event) : List Instant :=
  queued scheduleId (log.takeWhile (fun event => !event.advances scheduleId))

/-- A completed patch has left the schedule disabled, among the events. -/
def disabledIn (scheduleId : Id) (events : List Event) : Bool :=
  events.any (fun event => match event with
    | .patched _ copy => decide (copy.id = scheduleId) && decide (copy.enabled ≠ some true)
    | _ => false)

/-- The event is the read of the request. -/
def Event.readsFor (requestId : Id) : Event → Bool
  | .patchRead r _ => decide (r = requestId)
  | _ => false

/-- The events since the step of an action has started: since the pass of a scheduler has
listed the due schedules, or since the patch request has read its schedule. -/
def sinceStart (log : List Event) : Action → List Event
  | .scheduler w _ => lastPass w log
  | .writePatch requestId _ => log.takeWhile (fun event => !event.readsFor requestId)
  | _ => []

/-- No occurrence of a schedule has been queued twice. -/
def QueuedOnce (σ : System) : Prop :=
  ∀ scheduleId, (queued scheduleId σ.log).Nodup

/-- A step that has started before a completed patch disabled a schedule neither enables nor
rewinds the schedule. -/
def KeepsDisabled (σ : System) (a : Action) (τ : System) : Prop :=
  ∀ scheduleId row row', disabledIn scheduleId (sinceStart σ.log a) = true →
    σ.db.schedules.find? scheduleId = some row → τ.db.schedules.find? scheduleId = some row' →
    (row'.enabled = 1 → row.enabled = 1) ∧ row.nextRunAt ≤ row'.nextRunAt

/-- The row is as a patch request relies on it. No completed patch has disabled the schedule
since the request has read it, and it was not advanced; and when the request sets a new next
run, its clock is not behind the occurrences that were queued. -/
def patchesCurrentRow (log : List Event) (pending : PendingPatch) (requestId : Id)
    (now : Instant) (row : ScheduleRow) : Bool :=
  !disabledIn row.id (sinceStart log (.writePatch requestId now))
    && decide (row.lastMaterializedAt = pending.schedule.lastMaterializedAt)
    && (if pending.request.changedTiming then
        row.lastMaterializedAt.all (fun t => decide (t ≤ now))
          && (unadvanced row.id log).all (fun t => decide (t ≤ now))
      else
        decide (row.nextRunAt = pending.schedule.nextRunAt))

/-- A step that writes for a schedule finds its row as it relies on it. A job is saved for
the occurrence that is the next one of the row, and for which no job has been saved yet; a
row is advanced that is due at the instant of the pass; and a patch is written to a row that
is as the request relies on it. -/
def actsOnCurrentRow (env : Environment) (config : WorkerId → SchedulerConfig) (σ : System)
    (a : Action) : Bool :=
  match a with
  | .scheduler w action =>
      match σ.phase w, action with
      | .due now (schedule :: _), .save jobId =>
          !((config w).kinds.contains schedule.kind
            && (materializedJob (config w) schedule jobId now).isOk)
          || (σ.db.schedules.find? schedule.id).any (fun row =>
            decide (row.nextRunAt = schedule.nextRunAt)
              && decide (schedule.nextRunAt ∉ unadvanced schedule.id σ.log))
      | .saved now schedule _, _ =>
          (σ.db.schedules.find? schedule.id).all (fun row => decide (row.nextRunAt ≤ now))
      | _, _ => true
  | .writePatch requestId now =>
      match σ.patch requestId with
      | none => true
      | some pending =>
          !(patched env pending.request pending.schedule now).isOk
            || (σ.db.schedules.find? pending.schedule.id).all
              (patchesCurrentRow σ.log pending requestId now)
  | _ => true

/-- The occurrences that were queued are behind the row. An occurrence since which the row
was not advanced is not beyond the next run; any other one is before it, and not later than
the last materialization. -/
structure QueuedBehind (σ : System) : Prop where
  once : QueuedOnce σ
  behind : ∀ scheduleId, ∀ t ∈ queued scheduleId σ.log,
    ∃ row, σ.db.schedules.find? scheduleId = some row
      ∧ ((t ∈ unadvanced scheduleId σ.log ∧ t ≤ row.nextRunAt)
        ∨ ((∃ last, row.lastMaterializedAt = some last ∧ t ≤ last) ∧ t < row.nextRunAt))

/-! ### Events -/

section

variable {scheduleId : Id} {log : List Event}

/-- What events queue comes before what was queued. -/
theorem queued_append (events : List Event) :
  queued scheduleId (events ++ log) = queued scheduleId events ++ queued scheduleId log
  := List.filterMap_append

/-- Events that concern no schedule queue nothing. -/
theorem queued_quiet {events : List Event} (h : ∀ event ∈ events, event.ofSchedule = false) :
  queued scheduleId events = []
  := by
  rw [queued, List.filterMap_eq_nil_iff]
  intro event hevent
  have hschedule := h event hevent
  cases event <;> first | rfl | cases hschedule

/-- Events that do not advance a schedule stand before those since it was advanced. -/
theorem unadvanced_append {events : List Event}
    (h : ∀ event ∈ events, event.advances scheduleId = false) :
  unadvanced scheduleId (events ++ log)
    = queued scheduleId events ++ unadvanced scheduleId log
  := by
  have htake : (events ++ log).takeWhile (fun event => !event.advances scheduleId)
      = events ++ log.takeWhile (fun event => !event.advances scheduleId) := by
    apply List.takeWhile_append_of_pos
    intro event hevent
    simp [h event hevent]
  rw [unadvanced, htake, queued_append]
  rfl

/-- An event that concerns no schedule advances none. -/
theorem not_advances {event : Event} (h : event.ofSchedule = false) :
  event.advances scheduleId = false
  := by
  cases event <;> first | rfl | cases h

/-- The occurrences that are queued when a job is saved. -/
theorem queued_materialized (w : WorkerId) (schedule : ScheduleRecord) :
  queued scheduleId (.materialized w schedule :: log)
    = if schedule.id = scheduleId then schedule.nextRunAt :: queued scheduleId log
      else queued scheduleId log
  := by
  simp only [queued, List.filterMap_cons]
  split <;> simp_all

/-- The occurrences since the last advance when a job is saved. -/
theorem unadvanced_materialized (w : WorkerId) (schedule : ScheduleRecord) :
  unadvanced scheduleId (.materialized w schedule :: log)
    = if schedule.id = scheduleId then schedule.nextRunAt :: unadvanced scheduleId log
      else unadvanced scheduleId log
  := by
  have happend : unadvanced scheduleId ([.materialized w schedule] ++ log)
      = queued scheduleId [.materialized w schedule] ++ unadvanced scheduleId log :=
    unadvanced_append (by simp [Event.advances])
  rw [← List.singleton_append, happend]
  simp only [queued, List.filterMap_cons, List.filterMap_nil]
  split <;> simp_all

end

section

variable {env : Environment} {config : WorkerId → SchedulerConfig} {σ τ : System} {a : Action}

/-- Before the first step nothing is queued. -/
theorem queuedBehind_init : QueuedBehind System.init
  := by
  constructor
  · intro scheduleId
    apply List.nodup_nil
  · intro scheduleId t ht
    cases ht

/-- An occurrence that was queued is not beyond the next run of its schedule. -/
theorem QueuedBehind.le (hσ : QueuedBehind σ) {scheduleId : Id} {t : Instant}
    (ht : t ∈ queued scheduleId σ.log) {row : ScheduleRow}
    (hrow : σ.db.schedules.find? scheduleId = some row) :
  t ≤ row.nextRunAt
  := by
  obtain ⟨r, hr, hbehind⟩ := hσ.behind scheduleId t ht
  rw [hrow] at hr
  obtain rfl := Option.some.inj hr
  rcases hbehind with ⟨-, hle⟩ | ⟨-, hlt⟩
  · apply hle
  · apply hlt.le

/-- Events that queue nothing and advance nothing leave the occurrences behind the rows,
when these stay. -/
theorem QueuedBehind.of_quiet (hσ : QueuedBehind σ) {events : List Event}
    (hlog : τ.log = events ++ σ.log)
    (hevents : ∀ event ∈ events, event.ofSchedule = false)
    (hrows : ∀ scheduleId row, σ.db.schedules.find? scheduleId = some row →
      τ.db.schedules.find? scheduleId = some row) :
  QueuedBehind τ
  := by
  have hqueued : ∀ scheduleId, queued scheduleId τ.log = queued scheduleId σ.log := by
    intro scheduleId
    rw [hlog, queued_append, queued_quiet hevents, List.nil_append]
  have hunadvanced : ∀ scheduleId, unadvanced scheduleId τ.log = unadvanced scheduleId σ.log := by
    intro scheduleId
    rw [hlog, unadvanced_append (fun event hevent => not_advances (hevents event hevent)),
      queued_quiet hevents, List.nil_append]
  constructor
  · intro scheduleId
    rw [hqueued]
    apply hσ.once
  · intro scheduleId t ht
    rw [hqueued] at ht
    rw [hunadvanced]
    obtain ⟨row, hrow, hbehind⟩ := hσ.behind scheduleId t ht
    use row, hrows scheduleId row hrow

/-- Saving a job for the next occurrence of a row, for which no job has been saved, queues an
occurrence that was not queued before. -/
theorem QueuedBehind.of_save (hσ : QueuedBehind σ) {w : WorkerId} {schedule : ScheduleRecord}
    {row : ScheduleRow} (hlog : τ.log = .materialized w schedule :: σ.log)
    (hschedules : τ.db.schedules = σ.db.schedules)
    (hrow : σ.db.schedules.find? schedule.id = some row)
    (hnext : row.nextRunAt = schedule.nextRunAt)
    (hnew : schedule.nextRunAt ∉ unadvanced schedule.id σ.log) :
  QueuedBehind τ
  := by
  have hnot : schedule.nextRunAt ∉ queued schedule.id σ.log := by
    intro hqueued
    obtain ⟨r, hr, ⟨hmem, -⟩ | ⟨-, hlt⟩⟩ := hσ.behind _ _ hqueued
    · apply hnew hmem
    · rw [hrow] at hr
      obtain rfl := Option.some.inj hr
      apply hlt.ne hnext.symm
  constructor
  · intro scheduleId
    rw [hlog, queued_materialized]
    split
    case isTrue hid =>
      subst hid
      apply List.nodup_cons.mpr ⟨hnot, hσ.once _⟩
    case isFalse => apply hσ.once
  · intro scheduleId t ht
    rw [hlog, queued_materialized] at ht
    rw [hlog, hschedules, unadvanced_materialized]
    split at ht
    case isTrue hid =>
      subst hid
      rw [if_pos rfl]
      rcases List.mem_cons.mp ht with rfl | ht
      · use row, hrow
        left
        use List.mem_cons_self
        apply hnext.ge
      · obtain ⟨r, hr, hbehind⟩ := hσ.behind _ t ht
        use r, hr
        apply hbehind.imp_left
        rintro ⟨hmem, hle⟩
        use List.mem_cons_of_mem _ hmem
    case isFalse hid =>
      rw [if_neg hid]
      apply hσ.behind _ t ht

/-- Advancing a row that is due at the instant of the pass leaves all that was queued behind
it. -/
theorem QueuedBehind.of_advance (hσ : QueuedBehind σ) {w : WorkerId}
    {schedule : ScheduleRecord} {now nextRunAt : Instant}
    (hlog : τ.log = .advanced w schedule :: σ.log)
    (hschedules : τ.db.schedules
      = updateScheduleAfterMaterialize σ.db.schedules schedule.id now nextRunAt)
    (hlater : now < nextRunAt)
    (hdue : ∀ row, σ.db.schedules.find? schedule.id = some row → row.nextRunAt ≤ now) :
  QueuedBehind τ
  := by
  have hqueued : ∀ scheduleId, queued scheduleId τ.log = queued scheduleId σ.log := by
    intro scheduleId
    rw [hlog]
    rfl
  constructor
  · intro scheduleId
    rw [hqueued]
    apply hσ.once
  · intro scheduleId t ht
    rw [hqueued] at ht
    rw [hschedules]
    obtain ⟨row, hrow, hbehind⟩ := hσ.behind scheduleId t ht
    have hfind := find?_updateScheduleAfterMaterialize σ.db.schedules schedule.id now nextRunAt
      scheduleId
    rw [hrow, Option.map_some] at hfind
    rw [hfind]
    refine ⟨_, rfl, ?_⟩
    have hid := Table.key_of_find? hrow
    split
    case isTrue hrowId =>
      have hle := hσ.le ht hrow
      rw [← hid, hrowId] at hrow
      have hrowDue := hdue row hrow
      right
      constructor
      · use now, rfl
        apply hle.trans hrowDue
      · apply lt_of_le_of_lt (hle.trans hrowDue) hlater
    case isFalse hrowId =>
      have hsame : unadvanced scheduleId τ.log = unadvanced scheduleId σ.log := by
        have hne : schedule.id ≠ scheduleId := fun h => hrowId (hid.trans h.symm)
        rw [hlog, ← List.singleton_append, unadvanced_append]
        · rfl
        · simp [Event.advances, hne]
      rw [hsame]
      apply hbehind

/-- Writing a patch to a row that is as the request relies on it leaves all that was queued
behind it. -/
theorem QueuedBehind.of_patch (hσ : QueuedBehind σ) (henv : env.LaterRuns) {requestId : Id}
    {now : Instant} {pending : PendingPatch} {copy : PatchedSchedule}
    (hlog : τ.log = .patched requestId copy :: σ.log)
    (hcopy : patched env pending.request pending.schedule now = .ok copy)
    (hupdate : updateSchedule σ.db.schedules copy = .ok τ.db.schedules)
    (hcurrent : ∀ row, σ.db.schedules.find? pending.schedule.id = some row →
      patchesCurrentRow σ.log pending requestId now row = true) :
  QueuedBehind τ
  := by
  have hqueued : ∀ scheduleId, queued scheduleId τ.log = queued scheduleId σ.log := by
    intro scheduleId
    rw [hlog]
    rfl
  have hunadvanced : ∀ scheduleId, unadvanced scheduleId τ.log = unadvanced scheduleId σ.log := by
    intro scheduleId
    rw [hlog, ← List.singleton_append, unadvanced_append]
    · rfl
    · simp [Event.advances]
  obtain ⟨values, hvalues, hfind⟩ := updateSchedule_ok hupdate
  obtain ⟨nextRunAt, rfl, htiming⟩ := patched_ok hcopy
  obtain ⟨-, -, -, -, -, -, -, -, -, hnext, hlast, -, -⟩ := scheduleValues_ok hvalues
  constructor
  · intro scheduleId
    rw [hqueued]
    apply hσ.once
  · intro scheduleId t ht
    rw [hqueued] at ht
    rw [hunadvanced]
    obtain ⟨row, hrow, hbehind⟩ := hσ.behind scheduleId t ht
    have hid := Table.key_of_find? hrow
    have hle := hσ.le ht hrow
    rw [hfind, hrow, Option.map_some]
    refine ⟨_, rfl, ?_⟩
    split
    case isTrue hrowId =>
      have hrowId' : row.id = pending.schedule.id := hrowId
      have hrow' : σ.db.schedules.find? pending.schedule.id = some row := by
        rw [← hrowId', hid, hrow]
      have hrelies := hcurrent row hrow'
      simp only [patchesCurrentRow, Bool.and_eq_true, decide_eq_true_eq] at hrelies
      obtain ⟨⟨-, hsameLast⟩, hclock⟩ := hrelies
      have hlast' : (values.replace row).lastMaterializedAt = row.lastMaterializedAt := by
        rw [hsameLast]
        apply hlast
      have hnext' : (values.replace row).nextRunAt = nextRunAt := hnext
      rw [hlast', hnext']
      rcases htiming with ⟨hchanged, cron, timezone, -, -, hrun⟩ | ⟨hchanged, rfl⟩
      · -- the new next run is after the clock of the request, and that is not behind
        rw [if_pos hchanged, hid] at hclock
        simp only [Bool.and_eq_true, List.all_eq_true, decide_eq_true_eq] at hclock
        obtain ⟨hclockLast, hclockQueued⟩ := hclock
        have hlater : now < nextRunAt := henv cron timezone now nextRunAt hrun
        rcases hbehind with ⟨hmem, -⟩ | ⟨⟨last, hrowLast, htLast⟩, -⟩
        · left
          use hmem
          apply ((hclockQueued t hmem).trans_lt hlater).le
        · right
          rw [hrowLast, Option.all_some, decide_eq_true_eq] at hclockLast
          use ⟨last, hrowLast, htLast⟩
          apply (htLast.trans hclockLast).trans_lt hlater
      · rw [if_neg (by rw [hchanged]; nofun)] at hclock
        rw [← of_decide_eq_true hclock]
        apply hbehind
    case isFalse => apply hbehind

/-- A step that finds its row as it relies on it leaves all that was queued behind the
rows. -/
theorem QueuedBehind.step (hσ : QueuedBehind σ) (henv : env.LaterRuns)
    (hcurrent : actsOnCurrentRow env config σ a = true) (h : step env config σ a = some τ) :
  QueuedBehind τ
  := by
  obtain ⟨events, hlog, hstep⟩ := scheduleStep_of_step h
  generalize hschedules : τ.db.schedules = schedules at hstep
  cases hstep with
  | keep hevents =>
      apply hσ.of_quiet hlog hevents
      intro scheduleId row hrow
      rw [hschedules, hrow]
  | create hvalues hinsert =>
      apply hσ.of_quiet hlog (by simp)
      intro scheduleId row hrow
      rw [hschedules, Table.find?_insert? hinsert, if_neg]
      · apply hrow
      · rintro rfl
        rw [Table.find?_of_insert? hinsert] at hrow
        cases hrow
  | save haction hphase hkind hjob =>
      subst haction
      simp only [actsOnCurrentRow, hphase, Bool.or_eq_true, Bool.not_eq_true', Bool.and_eq_false_iff,
        Option.any_eq_true, Bool.and_eq_true, decide_eq_true_eq] at hcurrent
      rcases hcurrent with (hkind' | hjob') | ⟨row, hrow, hnext, hnew⟩
      · simp [hkind] at hkind'
      · rw [hjob] at hjob'
        cases hjob'
      · apply hσ.of_save hlog hschedules hrow hnext hnew
  | @advance w now nextRunAt schedule schedules hworker hphase hnext =>
      apply hσ.of_advance hlog hschedules (henv _ _ _ _ hnext)
      intro row hrow
      cases a with
      | scheduler v action =>
          obtain rfl := Option.some.inj hworker
          simp only [actsOnCurrentRow, hphase, hrow, Option.all_some] at hcurrent
          apply of_decide_eq_true hcurrent
      | _ => cases hworker
  | patch haction hpending hcopy hupdate =>
      subst haction hschedules
      apply hσ.of_patch henv hlog hcopy hupdate
      intro row hrow
      simp only [actsOnCurrentRow, hpending, hcopy, hrow, Option.all_some] at hcurrent
      simpa using hcurrent

/-- A step that finds its row as it relies on it neither enables nor rewinds a schedule that
was disabled after the step has started. -/
theorem keepsDisabled_of_current (henv : env.LaterRuns)
    (hcurrent : actsOnCurrentRow env config σ a = true) (h : step env config σ a = some τ) :
  KeepsDisabled σ a τ
  := by
  intro scheduleId row row' hdisabled hrow hrow'
  obtain ⟨events, -, hstep⟩ := scheduleStep_of_step h
  generalize τ.db.schedules = schedules at hstep hrow'
  cases hstep with
  | keep =>
      rw [hrow] at hrow'
      obtain rfl := Option.some.inj hrow'
      exact ⟨id, le_rfl⟩
  | create hvalues hinsert =>
      rw [Table.find?_insert? hinsert] at hrow'
      split at hrow'
      case isTrue hid =>
        rw [← hid, Table.find?_of_insert? hinsert] at hrow
        cases hrow
      case isFalse =>
        rw [hrow] at hrow'
        obtain rfl := Option.some.inj hrow'
        exact ⟨id, le_rfl⟩
  | save =>
      rw [hrow] at hrow'
      obtain rfl := Option.some.inj hrow'
      exact ⟨id, le_rfl⟩
  | @advance w now nextRunAt schedule schedules hworker hphase hnext =>
      rw [find?_updateScheduleAfterMaterialize, hrow, Option.map_some] at hrow'
      obtain rfl := Option.some.inj hrow'
      split
      case isTrue hid =>
        cases a with
        | scheduler v action =>
            obtain rfl := Option.some.inj hworker
            rw [← Table.key_of_find? hrow, hid] at hrow
            simp only [actsOnCurrentRow, hphase, hrow, Option.all_some] at hcurrent
            use id
            apply ((of_decide_eq_true hcurrent).trans_lt (henv _ _ _ _ hnext)).le
        | _ => cases hworker
      case isFalse => exact ⟨id, le_rfl⟩
  | @patch requestId now pending copy schedules haction hpending hcopy hupdate =>
      subst haction
      obtain ⟨values, hvalues, hfind⟩ := updateSchedule_ok hupdate
      obtain ⟨nextRunAt, rfl, -⟩ := patched_ok hcopy
      rw [hfind, hrow, Option.map_some] at hrow'
      obtain rfl := Option.some.inj hrow'
      split
      case isTrue hrowId =>
        -- such a request does not write
        have hrowId' : row.id = pending.schedule.id := hrowId
        have hid := Table.key_of_find? hrow
        rw [← hid, hrowId'] at hrow
        simp only [actsOnCurrentRow, hpending, hcopy, hrow, Option.all_some, patchesCurrentRow,
          hid, hdisabled] at hcurrent
        simp at hcurrent
      case isFalse => exact ⟨id, le_rfl⟩

/-- All that was queued is behind the rows in every state that is reached by steps that find
their rows as they rely on them. -/
theorem queuedBehind_of_path (henv : env.LaterRuns)
    (h : Transition.Path (step env config)
      (fun σ a => actsOnCurrentRow env config σ a = true) System.init σ) :
  QueuedBehind σ
  := h.invariant (fun _ _ _ hσ hcurrent hstep => hσ.step henv hcurrent hstep) queuedBehind_init

end

/-- In every state of a run in which every write finds its row as it relies on it, no
occurrence of a schedule has been queued twice, and no such step that has started before a
completed patch disabled a schedule enables or rewinds that schedule. -/
theorem occurrences_queued_once (env : Environment) (config : WorkerId → SchedulerConfig)
    (henv : env.LaterRuns) (σ : System) (h : Transition.Path (step env config)
      (fun σ a => actsOnCurrentRow env config σ a = true) System.init σ) :
  QueuedOnce σ
    ∧ ∀ a τ, actsOnCurrentRow env config σ a = true → step env config σ a = some τ →
      KeepsDisabled σ a τ
  := by
  constructor
  · apply (queuedBehind_of_path henv h).once
  · intro a τ hcurrent hstep
    apply keepsDisabled_of_current henv hcurrent hstep

/-- A schedule is created that is due at once. -/
def createdDue : Action :=
  .create ["report"] { kind := "report", cron := "* * * * *", input := ⟨"\x7b\x7d"⟩, dueNow := true }
    none "x" 0

/-- A scheduler lists the schedule, saves its job and advances it; then a request changes the
schedule. -/
def queuedByOne : List Action :=
  [createdDue, .scheduler "s1" (.begin 10), .scheduler "s1" (.save "j1"), .scheduler "s1" .tick,
    .readPatch "r1" "x" { enabled := .value false }, .writePatch "r1" 20]

/-- One occurrence is queued by one scheduler, and the schedule is disabled. -/
theorem occurrences_queued_once_byOne :
  ∃ σ, sampleRunUnder (actsOnCurrentRow Environment.sample sampleConfig) queuedByOne = some σ
    ∧ queued "x" σ.log = [0] ∧ QueuedOnce σ
  := by
  have hqueued : (sampleRunUnder (actsOnCurrentRow Environment.sample sampleConfig)
      queuedByOne).map (fun σ => queued "x" σ.log) = some [0] := by decide +kernel
  obtain ⟨σ, hrun, hqueued⟩ := Option.map_eq_some_iff.mp hqueued
  use σ, hrun, hqueued
  apply (occurrences_queued_once Environment.sample sampleConfig Environment.laterRuns_sample σ
    (Transition.path_of_runUnder hrun)).1

/-- Two schedulers list the schedule before either of them has advanced it. -/
def listedByTwo : List Action :=
  [createdDue, .scheduler "s1" (.begin 10), .scheduler "s2" (.begin 10),
    .scheduler "s1" (.save "j1"), .scheduler "s2" (.save "j2")]

/-- Two schedulers queue one occurrence of a schedule. -/
theorem occurrence_queued_twice :
  ¬ ∀ σ, Transition.Reaches (step Environment.sample sampleConfig) System.init σ →
    QueuedOnce σ ∧ ∀ a τ, step Environment.sample sampleConfig σ a = some τ → KeepsDisabled σ a τ
  := by
  intro h
  have hqueued : (sampleRun listedByTwo).map (fun σ => queued "x" σ.log) = some [0, 0] := by
    decide +kernel
  obtain ⟨σ, hrun, hqueued⟩ := Option.map_eq_some_iff.mp hqueued
  have hreaches : Transition.Reaches (step Environment.sample sampleConfig) System.init σ :=
    Transition.path_of_run_forall (G := fun _ => True) hrun (by simp)
  have honce := (h σ hreaches).1 "x"
  rw [hqueued] at honce
  simp at honce

end GoblinKing
