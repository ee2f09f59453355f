import GoblinKing.Scheduler.Occurrences

/-!
# Stored schedules

What is stored of a schedule should load, in every list it is in, and as the record that the
last patch has returned. A patch is written without validation, and two of its fields may be
null there: a null input is stored as a text that does not load, and a null flag as
disabled. All other rows load as they were returned, up to the columns that a
materialization advances.
-/

namespace GoblinKing

/-- The event is a patch of the schedule. -/
def Event.patches (scheduleId : Id) : Event → Bool
  | .patched _ copy => decide (copy.id = scheduleId)
  | _ => false

/-- What the last patch of a schedule has returned, if there was one. -/
def lastPatch (scheduleId : Id) (log : List Event) : Option PatchedSchedule :=
  match log.find? (Event.patches scheduleId) with
  | some (.patched _ copy) => some copy
  | _ => none

/-- The schedule was advanced since its last patch. -/
def advancedSince (scheduleId : Id) (log : List Event) : Bool :=
  (log.takeWhile (fun event => !event.patches scheduleId)).any (Event.advances scheduleId)

/-- The row loads as the record that the last patch has returned; with other columns of its
runs only when it was advanced since. -/
def LoadsAsReturned (log : List Event) (row : ScheduleRow) : Prop :=
  ∃ schedule, rowToSchedule row = .ok schedule ∧ ∀ copy, lastPatch row.id log = some copy →
    schedule.copy = copy
      ∨ (advancedSince row.id log = true
        ∧ schedule.copy = { copy with
            nextRunAt := row.nextRunAt
            lastMaterializedAt := row.lastMaterializedAt })

/-- All stored schedules load: one by one as they were returned, in the list of all, and in
the lists of those that are due. -/
structure SchedulesLoad (σ : System) : Prop where
  rows : ∀ scheduleId row, σ.db.schedules.find? scheduleId = some row →
    LoadsAsReturned σ.log row
  get : ∀ scheduleId row, σ.db.schedules.find? scheduleId = some row →
    ∃ schedule, getSchedule σ.db.schedules scheduleId = .ok (some schedule)
  list : ∃ schedules, listSchedules σ.db.schedules = .ok schedules
  listDue : ∀ now, ∃ schedules, listDueSchedules σ.db.schedules now = .ok schedules

/-- A patch that is accepted has no null for the input or for the flag. -/
def patchesNoNull (env : Environment) (σ : System) (a : Action) : Bool :=
  match a with
  | .writePatch requestId now =>
      match σ.patch requestId with
      | none => true
      | some pending =>
          match patched env pending.request pending.schedule now with
          | .error _ => true
          | .ok copy =>
              !(updateSchedule σ.db.schedules copy).isOk
                || (decide (pending.request.input ≠ .null)
                  && decide (pending.request.enabled ≠ .null))
  | _ => true

/-- The schedules that requests have read, or written, are there; and a row that was read
still has its creation. -/
structure PatchesRows (σ : System) : Prop where
  pending : ∀ requestId pending, σ.patch requestId = some pending →
    ∃ row, σ.db.schedules.find? pending.schedule.id = some row
      ∧ row.createdAt = pending.schedule.createdAt
  written : ∀ scheduleId copy, lastPatch scheduleId σ.log = some copy →
    ∃ row, σ.db.schedules.find? scheduleId = some row

section

variable {env : Environment} {config : WorkerId → SchedulerConfig} {σ τ : System} {a : Action}
  {scheduleId : Id} {log : List Event}

/-! ### The last patch -/

/-- Events that are no patch of a schedule come after its last patch. -/
theorem lastPatch_append {events : List Event}
    (h : ∀ event ∈ events, event.patches scheduleId = false) :
  lastPatch scheduleId (events ++ log) = lastPatch scheduleId log
  := by
  have hnone : events.find? (Event.patches scheduleId) = none := by
    rw [List.find?_eq_none]
    intro event hevent
    rw [h event hevent]
    nofun
  rw [lastPatch, List.find?_append, hnone, Option.none_or]
  rfl

/-- A schedule is advanced since its last patch when it was before, or is by the events that
are added. -/
theorem advancedSince_append {events : List Event}
    (h : ∀ event ∈ events, event.patches scheduleId = false) :
  advancedSince scheduleId (events ++ log)
    = (events.any (Event.advances scheduleId) || advancedSince scheduleId log)
  := by
  have htake : (events ++ log).takeWhile (fun event => !event.patches scheduleId)
      = events ++ log.takeWhile (fun event => !event.patches scheduleId) := by
    apply List.takeWhile_append_of_pos
    intro event hevent
    simp [h event hevent]
  rw [advancedSince, htake, List.any_append]
  rfl

/-- The last patch when a schedule is patched. -/
theorem lastPatch_patched (requestId : Id) (copy : PatchedSchedule) :
  lastPatch scheduleId (.patched requestId copy :: log)
    = if copy.id = scheduleId then some copy else lastPatch scheduleId log
  := by
  simp only [lastPatch, List.find?_cons, Event.patches]
  by_cases h : copy.id = scheduleId <;> simp [h]

/-- An event that concerns no schedule is no patch. -/
theorem not_patches {event : Event} (h : event.ofSchedule = false) :
  event.patches scheduleId = false
  := by
  cases event <;> first | rfl | cases h

/-- A row that loads as it was returned does so after events that neither patch nor advance
its schedule. -/
theorem LoadsAsReturned.append {row : ScheduleRow} (h : LoadsAsReturned log row)
    {events : List Event} (hpatches : ∀ event ∈ events, event.patches row.id = false) :
  LoadsAsReturned (events ++ log) row
  := by
  obtain ⟨schedule, hload, hreturned⟩ := h
  use schedule, hload
  intro copy hcopy
  rw [lastPatch_append hpatches] at hcopy
  apply (hreturned copy hcopy).imp_right
  rintro ⟨hadvanced, hsame⟩
  rw [advancedSince_append hpatches, hadvanced, Bool.or_true]
  use rfl

/-! ### Rows -/

/-- No step deletes a schedule, or changes its creation. -/
theorem ScheduleStep.row_kept {schedules : Schedules} {events : List Event}
    (h : ScheduleStep env config σ a schedules events) {row : ScheduleRow}
    (hrow : σ.db.schedules.find? scheduleId = some row) :
  ∃ row', schedules.find? scheduleId = some row' ∧ row'.createdAt = row.createdAt
  := by
  cases h with
  | keep => use row
  | create hvalues hinsert =>
      use row
      rw [Table.find?_insert? hinsert, if_neg]
      · use hrow
      · rintro rfl
        rw [Table.find?_of_insert? hinsert] at hrow
        cases hrow
  | save => use row
  | advance hworker hphase hnext =>
      rw [find?_updateScheduleAfterMaterialize, hrow, Option.map_some]
      refine ⟨_, rfl, ?_⟩
      split <;> rfl
  | patch haction hpending hcopy hupdate =>
      obtain ⟨values, -, hfind⟩ := updateSchedule_ok hupdate
      rw [hfind, hrow, Option.map_some]
      refine ⟨_, rfl, ?_⟩
      split <;> rfl

/-- A request that has read its schedule after a step had before, or reads in the step. -/
theorem patch_of_step (h : step env config σ a = some τ) {requestId : Id}
    {pending : PendingPatch} (hpending : τ.patch requestId = some pending) :
  σ.patch requestId = some pending
    ∨ (τ.db.schedules = σ.db.schedules
      ∧ ∃ scheduleId, getSchedule σ.db.schedules scheduleId = .ok (some pending.schedule))
  := by
  cases a with
  | submit job =>
      simp only [step] at h
      split_ifs at h
      obtain ⟨jobs, -, rfl⟩ := Option.map_eq_some_iff.mp h
      exact .inl hpending
  | cancel jobId =>
      cases h
      exact .inl hpending
  | renew w jobId leaseUntil =>
      cases h
      exact .inl hpending
  | cleanup projectId =>
      cases h
      exact .inl hpending
  | create kinds request projectId scheduleId createdAt =>
      simp only [step] at h
      split at h
      · cases h
      · cases h
        exact .inl hpending
  | readPatch r scheduleId request =>
      simp only [step, System.readPatch] at h
      split_ifs at h
      split at h
      case h_1 schedule hschedule =>
        cases h
        dsimp only at hpending
        rw [Function.update_apply] at hpending
        split at hpending
        · cases hpending
          exact .inr ⟨rfl, scheduleId, hschedule⟩
        · exact .inl hpending
      case h_2 =>
        cases h
        exact .inl hpending
      case h_3 =>
        cases h
        exact .inl hpending
  | writePatch r now =>
      have hanswered : Function.update σ.patch r none requestId = some pending →
          σ.patch requestId = some pending := by
        intro hupdate
        rw [Function.update_apply] at hupdate
        split at hupdate
        · cases hupdate
        · apply hupdate
      simp only [step, System.writePatch] at h
      split at h
      · cases h
      · split at h
        · cases h
          exact .inl (hanswered hpending)
        · split at h
          · cases h
            exact .inl (hanswered hpending)
          · cases h
            exact .inl (hanswered hpending)
  | scheduler w action =>
      obtain ⟨db, phase, events, -, rfl⟩ := workerStep_of_step h
      exact .inl hpending

/-- No request has read a schedule at first. -/
theorem patchesRows_init : PatchesRows System.init
  := by
  constructor
  · intro requestId pending hpending
    cases hpending
  · intro scheduleId copy hcopy
    cases hcopy

/-- The last patch after a step was the last one before, or is the one that the step
writes. -/
theorem lastPatch_of_step {schedules : Schedules} {events : List Event}
    (h : ScheduleStep env config σ a schedules events) {copy : PatchedSchedule}
    (hcopy : lastPatch scheduleId (events ++ σ.log) = some copy) :
  lastPatch scheduleId σ.log = some copy
    ∨ ∃ requestId pending now, σ.patch requestId = some pending
      ∧ patched env pending.request pending.schedule now = .ok copy ∧ copy.id = scheduleId
  := by
  cases h with
  | keep hevents =>
      rw [lastPatch_append (fun event hevent => not_patches (hevents event hevent))] at hcopy
      exact .inl hcopy
  | create => exact .inl hcopy
  | save =>
      rw [lastPatch_append (by simp [Event.patches])] at hcopy
      exact .inl hcopy
  | advance =>
      rw [lastPatch_append (by simp [Event.patches])] at hcopy
      exact .inl hcopy
  | @patch requestId now pending patch schedules haction hpending hpatched hupdate =>
      rw [List.singleton_append, lastPatch_patched] at hcopy
      split at hcopy
      case isTrue hid =>
        obtain rfl := Option.some.inj hcopy
        right
        exact ⟨requestId, pending, now, hpending, hpatched, hid⟩
      case isFalse => exact .inl hcopy

/-- What a request writes is a copy of the record it has read. -/
theorem patched_keeps {pending : PendingPatch} {now : Instant} {copy : PatchedSchedule}
    (h : patched env pending.request pending.schedule now = .ok copy) :
  copy.id = pending.schedule.id ∧ copy.createdAt = pending.schedule.createdAt
  := by
  obtain ⟨nextRunAt, rfl, -⟩ := patched_ok h
  exact ⟨rfl, rfl⟩

/-- The schedules that requests have read or written stay there. -/
theorem PatchesRows.step (hσ : PatchesRows σ) (h : step env config σ a = some τ) :
  PatchesRows τ
  := by
  obtain ⟨events, hlog, hstep⟩ := scheduleStep_of_step h
  constructor
  · intro requestId pending hpending
    rcases patch_of_step h hpending with hbefore | ⟨hsame, scheduleId, hread⟩
    · obtain ⟨row, hrow, hcreated⟩ := hσ.pending requestId pending hbefore
      obtain ⟨row', hrow', hkept⟩ := hstep.row_kept hrow
      use row', hrow', hkept.trans hcreated
    · rw [hsame]
      apply getSchedule_row hread
  · intro scheduleId copy hcopy
    rw [hlog] at hcopy
    rcases lastPatch_of_step hstep hcopy with hbefore | ⟨requestId, pending, now, hpending, hpatched, rfl⟩
    · obtain ⟨row, hrow⟩ := hσ.written scheduleId copy hbefore
      obtain ⟨row', hrow', -⟩ := hstep.row_kept hrow
      use row', hrow'
    · obtain ⟨row, hrow, -⟩ := hσ.pending requestId pending hpending
      obtain ⟨row', hrow', -⟩ := hstep.row_kept hrow
      rw [(patched_keeps hpatched).1]
      use row', hrow'

/-! ### Loading -/

/-- A patch that is accepted is written to the row that its request has read, which takes the
values of the copy. -/
theorem PatchesRows.find?_patch (hσ : PatchesRows σ) {requestId : Id} {pending : PendingPatch}
    {now : Instant} {copy : PatchedSchedule} {schedules : Schedules}
    (hpending : σ.patch requestId = some pending)
    (hcopy : patched env pending.request pending.schedule now = .ok copy)
    (hupdate : updateSchedule σ.db.schedules copy = .ok schedules) :
  ∃ values, scheduleValues copy = .ok values ∧ schedules.find? copy.id = some values
    ∧ ∀ s, s ≠ copy.id → schedules.find? s = σ.db.schedules.find? s
  := by
  obtain ⟨values, hvalues, hfind⟩ := updateSchedule_ok hupdate
  obtain ⟨hid, hcreated⟩ := patched_keeps hcopy
  obtain ⟨hvaluesId, -, -, -, -, -, -, -, hvaluesCreated, -⟩ := scheduleValues_ok hvalues
  use values, hvalues
  constructor
  · obtain ⟨row, hrow, hrowCreated⟩ := hσ.pending requestId pending hpending
    have hrowId : row.id = copy.id := (Table.key_of_find? hrow).trans hid.symm
    have hreplace : values.replace row = values := by
      rw [ScheduleRow.replace, hrowId, ← hvaluesId, hrowCreated, ← hcreated, ← hvaluesCreated]
    rw [hfind, hid, hrow, Option.map_some, ← hid, if_pos hrowId, hreplace]
  · intro s hs
    rw [hfind]
    cases hrow : σ.db.schedules.find? s with
    | none => rfl
    | some row =>
        rw [Option.map_some, if_neg]
        intro hrowId
        apply hs
        rw [← hrowId, Table.key_of_find? hrow]

/-- A row that was advanced loads as it was returned, if it did before. -/
theorem LoadsAsReturned.advance {row : ScheduleRow} (h : LoadsAsReturned log row) {w : WorkerId}
    {schedule : ScheduleRecord} (hid : row.id = schedule.id) (now nextRunAt : Instant) :
  LoadsAsReturned (.advanced w schedule :: log) (row.advance now nextRunAt)
  := by
  obtain ⟨loaded, hload, hreturned⟩ := h
  have hadvanced : rowToSchedule (row.advance now nextRunAt)
      = .ok { loaded with nextRunAt := nextRunAt, lastMaterializedAt := some now } := by
    simp only [rowToSchedule, ScheduleRow.advance] at hload ⊢
    split at hload
    · cases hload
    · cases hload
      rfl
  use { loaded with nextRunAt := nextRunAt, lastMaterializedAt := some now }, hadvanced
  intro copy hcopy
  have hbefore : lastPatch row.id log = some copy := by
    rw [← List.singleton_append, lastPatch_append (by simp [Event.patches])] at hcopy
    apply hcopy
  right
  constructor
  · rw [← List.singleton_append, advancedSince_append (by simp [Event.patches])]
    simp [Event.advances, ScheduleRow.advance, hid]
  · rcases hreturned copy hbefore with rfl | ⟨-, hsame⟩
    · rfl
    · have hcolumns : ({ loaded with nextRunAt := nextRunAt, lastMaterializedAt := some now }
          : ScheduleRecord).copy
          = { loaded.copy with nextRunAt := nextRunAt, lastMaterializedAt := some now } := rfl
      rw [hcolumns, hsame]
      rfl

/-- The values of a patch load as the patch has returned exactly when it has a null neither
for the input nor for the flag. -/
theorem loadsAsReturned_patched {copy : PatchedSchedule} {values : ScheduleRow}
    (hvalues : scheduleValues copy = .ok values) (requestId : Id) :
  LoadsAsReturned (.patched requestId copy :: log) values
    ↔ copy.input ≠ none ∧ copy.enabled ≠ none
  := by
  have hid : copy.id = values.id := (scheduleValues_ok hvalues).1.symm
  have hlast : lastPatch values.id (.patched requestId copy :: log) = some copy := by
    rw [lastPatch_patched, if_pos hid]
  have hadvanced : advancedSince values.id (.patched requestId copy :: log) = false := by
    simp [advancedSince, Event.patches, hid]
  rw [← roundTrip_iff hvalues, LoadsAsReturned]
  constructor
  · rintro ⟨loaded, hload, hreturned⟩
    use loaded, hload
    rcases hreturned copy hlast with hsame | ⟨hsince, -⟩
    · apply hsame
    · rw [hadvanced] at hsince
      cases hsince
  · rintro ⟨loaded, hload, hsame⟩
    use loaded, hload
    intro copy' hcopy'
    rw [hlast] at hcopy'
    obtain rfl := Option.some.inj hcopy'
    exact .inl hsame

/-- A new schedule loads. -/
theorem LoadsAsReturned.created {schedule : ScheduleRecord} {row : ScheduleRow}
    (hvalues : scheduleValues schedule.copy = .ok row) (hlast : lastPatch row.id log = none) :
  LoadsAsReturned log row
  := by
  have hinput : row.inputJson ≠ none := by
    rw [(scheduleValues_ok hvalues).2.2.2.1]
    nofun
  obtain ⟨loaded, hload⟩ := rowToSchedule_ok.mpr hinput
  use loaded, hload
  intro copy hcopy
  rw [hlast] at hcopy
  cases hcopy

/-- A request whose copy has a null neither for the input nor for the flag has none. -/
theorem patched_noNull {pending : PendingPatch} {now : Instant} {copy : PatchedSchedule}
    (h : patched env pending.request pending.schedule now = .ok copy) :
  (copy.input ≠ none ∧ copy.enabled ≠ none)
    ↔ pending.request.input ≠ .null ∧ pending.request.enabled ≠ .null
  := by
  obtain ⟨nextRunAt, rfl, -⟩ := patched_ok h
  simp only [SchedulePatchRequest.over]
  cases pending.request.input <;> cases pending.request.enabled <;> simp [PatchField.over]

/-- The guard, for a request that writes. -/
theorem patchesNoNull_iff {requestId : Id} {pending : PendingPatch} {now : Instant}
    {copy : PatchedSchedule} {schedules : Schedules}
    (hpending : σ.patch requestId = some pending)
    (hcopy : patched env pending.request pending.schedule now = .ok copy)
    (hupdate : updateSchedule σ.db.schedules copy = .ok schedules) :
  patchesNoNull env σ (.writePatch requestId now) = true
    ↔ copy.input ≠ none ∧ copy.enabled ≠ none
  := by
  rw [patched_noNull hcopy]
  simp [patchesNoNull, hpending, hcopy, hupdate]

/-- Every row loads as it was returned. -/
def RowsLoad (σ : System) : Prop :=
  ∀ scheduleId row, σ.db.schedules.find? scheduleId = some row → LoadsAsReturned σ.log row

/-- A step in which no accepted patch has a null keeps all rows loading as they were
returned. -/
theorem RowsLoad.step (hσ : RowsLoad σ) (hrows : PatchesRows σ)
    (hnull : patchesNoNull env σ a = true) (h : step env config σ a = some τ) :
  RowsLoad τ
  := by
  obtain ⟨events, hlog, hstep⟩ := scheduleStep_of_step h
  intro scheduleId row hrow
  rw [hlog]
  generalize τ.db.schedules = schedules at hstep hrow
  cases hstep with
  | keep hevents =>
      apply (hσ scheduleId row hrow).append
      intro event hevent
      apply not_patches (hevents event hevent)
  | save =>
      apply (hσ scheduleId row hrow).append
      simp [Event.patches]
  | @create schedule created schedules hvalues hinsert =>
      rw [Table.find?_insert? hinsert] at hrow
      split at hrow
      case isTrue =>
        obtain rfl := Option.some.inj hrow
        apply LoadsAsReturned.created hvalues
        -- a schedule that was patched has a row already
        cases hlast : lastPatch created.id ([] ++ σ.log) with
        | none => rfl
        | some copy =>
            obtain ⟨r, hr⟩ := hrows.written created.id copy hlast
            rw [Table.find?_of_insert? hinsert] at hr
            cases hr
      case isFalse => apply hσ scheduleId row hrow
  | @advance w now nextRunAt schedule schedules hworker hphase hnext =>
      rw [find?_updateScheduleAfterMaterialize] at hrow
      obtain ⟨r, hr, rfl⟩ := Option.map_eq_some_iff.mp hrow
      split
      case isTrue hid => apply (hσ scheduleId r hr).advance hid
      case isFalse hid =>
        apply (hσ scheduleId r hr).append
        simp [Event.patches]
  | @patch requestId now pending copy schedules haction hpending hcopy hupdate =>
      subst haction
      obtain ⟨values, hvalues, hwritten, hothers⟩ := hrows.find?_patch hpending hcopy hupdate
      by_cases hid : scheduleId = copy.id
      · rw [hid, hwritten] at hrow
        obtain rfl := Option.some.inj hrow
        apply (loadsAsReturned_patched hvalues requestId).mpr
        apply (patchesNoNull_iff hpending hcopy hupdate).mp hnull
      · rw [hothers scheduleId hid] at hrow
        apply (hσ scheduleId row hrow).append
        simp [Event.patches, Table.key_of_find? hrow, Ne.symm hid]

/-- When each row loads, so does every list. -/
theorem RowsLoad.schedulesLoad (hσ : RowsLoad σ) :
  SchedulesLoad σ
  := by
  have hinput : ∀ row ∈ σ.db.schedules.rows, row.inputJson ≠ none := by
    intro row hrow
    obtain ⟨schedule, hload, -⟩ := hσ row.id row (Table.find?_of_mem hrow)
    apply rowToSchedule_ok.mp ⟨schedule, hload⟩
  constructor
  · apply hσ
  · intro scheduleId row hrow
    obtain ⟨schedule, hload, -⟩ := hσ scheduleId row hrow
    use schedule
    simp [getSchedule, hrow, hload, bind, Except.bind]
  · apply rowsToSchedules_total
    intro row hrow
    apply hinput row ((List.perm_insertionSort _ _).mem_iff.mp hrow)
  · intro now
    apply rowsToSchedules_total
    intro row hrow
    apply hinput row
    apply (List.mem_filter.mp ((List.perm_insertionSort _ _).mem_iff.mp hrow)).1

/-- After a step that leaves all schedules loading, no accepted patch had a null. -/
theorem noNull_of_schedulesLoad (hrows : PatchesRows σ) (h : step env config σ a = some τ)
    (hload : SchedulesLoad τ) :
  patchesNoNull env σ a = true
  := by
  obtain ⟨events, hlog, hstep⟩ := scheduleStep_of_step h
  cases a with
  | writePatch requestId now =>
      cases hpending : σ.patch requestId with
      | none => simp [patchesNoNull, hpending]
      | some pending =>
          cases hcopy : patched env pending.request pending.schedule now with
          | error error => simp [patchesNoNull, hpending, hcopy]
          | ok copy =>
              cases hupdate : updateSchedule σ.db.schedules copy with
              | error error =>
                  simp [patchesNoNull, hpending, hcopy, hupdate]
              | ok schedules =>
                  obtain ⟨values, hvalues, hwritten, -⟩ :=
                    hrows.find?_patch hpending hcopy hupdate
                  simp only [GoblinKing.step, System.writePatch, hpending, hcopy, hupdate] at h
                  obtain rfl := Option.some.inj h
                  apply (patchesNoNull_iff hpending hcopy hupdate).mpr
                  apply (loadsAsReturned_patched hvalues requestId).mp
                  apply hload.rows copy.id values hwritten
  | _ => rfl

end

/-- The stored schedules load at every step of a run, and as they were returned, exactly when
no accepted patch of the run has a null for the input or for the flag. -/
theorem schedules_load_as_returned (env : Environment) (config : WorkerId → SchedulerConfig)
    (as : List Action) :
  Transition.Along (step env config) (fun _ _ τ => SchedulesLoad τ) System.init as
    ↔ Transition.Along (step env config) (fun σ a _ => patchesNoNull env σ a = true)
      System.init as
  := by
  constructor
  · apply Transition.along_of_invariant (I := PatchesRows)
    · intro σ a τ hrows hload hstep
      use hrows.step hstep
      apply noNull_of_schedulesLoad hrows hstep hload
    · apply patchesRows_init
  · apply Transition.along_of_invariant (I := fun σ => PatchesRows σ ∧ RowsLoad σ)
    · rintro σ a τ ⟨hrows, hload⟩ hnull hstep
      have hload' := hload.step hrows hnull hstep
      exact ⟨⟨hrows.step hstep, hload'⟩, hload'.schedulesLoad⟩
    · use patchesRows_init
      intro scheduleId row hrow
      cases hrow

/-- A field that is absent does not set a timeout of 0. -/
theorem absent_ne_zero :
  PatchField.absent ≠ PatchField.value 0
  := by
  simp

/-- A request sets the input of a schedule to null. -/
def patchedToNull : List Action :=
  [createdDue, .readPatch "r1" "x" { input := .null, timeoutPositive := absent_ne_zero }]

/-- A null input is accepted, and then the schedules cannot be listed. -/
theorem null_input_breaks_lists :
  ¬ ∀ as, Transition.Along (step Environment.sample sampleConfig) (fun _ _ τ => SchedulesLoad τ)
    System.init as
  := by
  intro h
  have hlist : (sampleRun (patchedToNull ++ [.writePatch "r1" 20])).map
      (fun σ => (listSchedules σ.db.schedules).isOk) = some false := by decide +kernel
  obtain ⟨σ, hrun, hlist⟩ := Option.map_eq_some_iff.mp hlist
  obtain ⟨_, -, -, hload⟩ := Transition.along_last (h _) hrun
  obtain ⟨schedules, hschedules⟩ := hload.list
  rw [hschedules] at hlist
  cases hlist

end GoblinKing
