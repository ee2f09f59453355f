import GoblinKing.Scheduler.Rows

/-!
# What a step does to the table of schedules

A step creates a schedule, advances one, writes a patch, or leaves the schedules alone; and
it saves at most one job for an occurrence of a schedule. No schedule is ever deleted.
-/

namespace GoblinKing

/-- The event says that a job was saved for a schedule, or that a schedule was written. -/
def Event.ofSchedule : Event → Bool
  | .materialized _ _ | .advanced _ _ | .patched _ _ => true
  | _ => false

/-- A change of the table of schedules in a step from `σ`, with the new events. -/
inductive ScheduleStep (env : Environment) (config : WorkerId → SchedulerConfig) (σ : System)
    (a : Action) : Schedules → List Event → Prop where
  | keep {events : List Event} (hevents : ∀ event ∈ events, event.ofSchedule = false) :
      ScheduleStep env config σ a σ.db.schedules events
  | create {schedule : ScheduleRecord} {row : ScheduleRow} {schedules : Schedules}
      (hvalues : scheduleValues schedule.copy = .ok row)
      (hinsert : σ.db.schedules.insert? row = some schedules) :
      ScheduleStep env config σ a schedules []
  | save {w : WorkerId} {now : Instant} {schedule : ScheduleRecord}
      {schedules : List ScheduleRecord} {jobId : Id} {job : JobRecord}
      (haction : a = .scheduler w (.save jobId))
      (hphase : σ.phase w = .due now (schedule :: schedules))
      (hkind : schedule.kind ∈ (config w).kinds)
      (hjob : materializedJob (config w) schedule jobId now = .ok job) :
      ScheduleStep env config σ a σ.db.schedules [.materialized w schedule]
  | advance {w : WorkerId} {now nextRunAt : Instant} {schedule : ScheduleRecord}
      {schedules : List ScheduleRecord} (hworker : a.worker = some w)
      (hphase : σ.phase w = .saved now schedule schedules)
      (hnext : env.nextRunAfter schedule.cron schedule.timezone now = .ok nextRunAt) :
      ScheduleStep env config σ a
        (updateScheduleAfterMaterialize σ.db.schedules schedule.id now nextRunAt)
        [.advanced w schedule]
  | patch {requestId : Id} {now : Instant} {pending : PendingPatch} {copy : PatchedSchedule}
      {schedules : Schedules} (haction : a = .writePatch requestId now)
      (hpending : σ.patch requestId = some pending)
      (hcopy : patched env pending.request pending.schedule now = .ok copy)
      (hupdate : updateSchedule σ.db.schedules copy = .ok schedules) :
      ScheduleStep env config σ a schedules [.patched requestId copy]

section

variable {env : Environment} {config : WorkerId → SchedulerConfig} {σ τ : System} {a : Action}

/-- An event of a finalization is of no schedule. -/
theorem ofSchedule_finalizationEvents {run : RunRecord} {outcome : AttemptOutcome}
    {event : Event} (h : event ∈ finalizationEvents run outcome) :
  event.ofSchedule = false
  := by
  cases outcome with
  | finalized =>
      obtain rfl := List.mem_singleton.mp h
      rfl
  | cancelled => cases h
  | stale => cases h

/-- What a step of a scheduler does to the schedules. -/
theorem scheduleStep_of_schedulerStep {w : WorkerId} {action : SchedulerAction} {db : Db}
    {phase : Phase} {events : List Event}
    (h : schedulerStep env (config w) w σ.db (σ.phase w) action = some (db, phase, events)) :
  ScheduleStep env config σ (.scheduler w action) db.schedules events
  := by
  have hstep := workerStep_of_schedulerStep h
  generalize hphase : σ.phase w = before at h hstep
  cases hstep
  case materialize now schedule schedules jobId job jobs hkind hjob hsave =>
    cases action <;> simp only [schedulerStep, reduceCtorEq] at h
    case save jobId' =>
      have hjob' : ∃ job', materializedJob (config w) schedule jobId' now = .ok job' := by
        simp only [materialize, registryGet, if_pos hkind] at h
        cases hrejected : materializedJob (config w) schedule jobId' now with
        | ok job' => use job'
        | error error =>
            simp [hrejected] at h
      obtain ⟨job', hjob'⟩ := hjob'
      apply ScheduleStep.save rfl hphase hkind hjob'
  case advance hnext => apply ScheduleStep.advance rfl hphase hnext
  case reject =>
    apply ScheduleStep.keep
    apply ofSchedule_finalizationEvents
  case fail =>
    apply ScheduleStep.keep
    apply ofSchedule_finalizationEvents
  all_goals
    apply ScheduleStep.keep
    simp [Event.ofSchedule]

/-- What a step of the system does to the schedules. -/
theorem scheduleStep_of_step (h : step env config σ a = some τ) :
  ∃ events, τ.log = events ++ σ.log ∧ ScheduleStep env config σ a τ.db.schedules events
  := by
  have hquiet : τ.db.schedules = σ.db.schedules → τ.log = σ.log →
      ∃ events, τ.log = events ++ σ.log ∧ ScheduleStep env config σ a τ.db.schedules events := by
    intro hschedules hlog
    use [], hlog
    rw [hschedules]
    apply ScheduleStep.keep
    simp
  cases a with
  | submit job =>
      simp only [step] at h
      split_ifs at h
      obtain ⟨jobs, -, rfl⟩ := Option.map_eq_some_iff.mp h
      apply hquiet rfl rfl
  | cancel jobId =>
      cases h
      apply hquiet rfl rfl
  | renew w jobId leaseUntil =>
      cases h
      apply hquiet rfl rfl
  | cleanup projectId =>
      cases h
      apply hquiet rfl rfl
  | create kinds request projectId scheduleId createdAt =>
      simp only [step, createSchedule] at h
      split at h
      case h_1 => cases h
      case h_2 result schedules hcreate =>
        cases h
        obtain ⟨schedule, -, hcreate⟩ := Except.bind_eq_ok.mp hcreate
        obtain ⟨schedules', hsave, hcreate⟩ := Except.bind_eq_ok.mp hcreate
        cases hcreate
        obtain ⟨row, hvalues, hinsert⟩ := Except.bind_eq_ok.mp hsave
        use [], rfl
        apply ScheduleStep.create hvalues
        split at hinsert
        case h_1 schedules'' hrow =>
          cases hinsert
          apply hrow
        case h_2 => cases hinsert
  | readPatch requestId scheduleId request =>
      simp only [step, System.readPatch] at h
      split_ifs at h
      split at h
      · cases h
        use [.patchRead requestId scheduleId], rfl
        apply ScheduleStep.keep
        simp [Event.ofSchedule]
      · cases h
        apply hquiet rfl rfl
      · cases h
        apply hquiet rfl rfl
  | writePatch requestId now =>
      simp only [step, System.writePatch] at h
      split at h
      case h_1 => cases h
      case h_2 pending hpending =>
        split at h
        case h_1 =>
          cases h
          apply hquiet rfl rfl
        case h_2 copy hcopy =>
          split at h
          case h_1 =>
            cases h
            apply hquiet rfl rfl
          case h_2 schedules hupdate =>
            cases h
            use [.patched requestId copy], rfl
            apply ScheduleStep.patch rfl hpending hcopy hupdate
  | scheduler w action =>
      simp only [step, Option.map_eq_some_iff] at h
      obtain ⟨⟨db, phase, events⟩, hstep, rfl⟩ := h
      use events, rfl
      apply scheduleStep_of_schedulerStep hstep

end

end GoblinKing
