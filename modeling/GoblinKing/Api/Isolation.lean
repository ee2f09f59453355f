import GoblinKing.Api.Ownership
import GoblinKing.Api.Reads

/-!
# Isolation of projects

What a caller is shown should not depend on the rows of other projects. A store is observed by
a caller through the rows that no other project owns; two stores that are observed alike should
answer every request alike, up to the difference between a row that is not there and one that
is forbidden.
-/

namespace GoblinKing

/-! ### What a caller observes -/

/-- The contents of a store. A run has the project of its job, and a job the project of its
fanout: that is how runs and jobs are created. -/
structure StoreContents extends ReadDb where
  runProjects : RunsFollowJobs runs jobs
  fanoutProjects : JobsFollowFanouts jobs fanouts

/-- A request is refused as not found or as forbidden. -/
def Refused {α : Type} (response : Except ReadError α) : Prop :=
  ∃ detail, response = .error (.notFound detail) ∨ response = .error (.forbidden detail)

section

variable {settings : ApiSettings} {principal : Principal} {db db' : StoreContents}

/-- What refuses a request refuses what comes after it. -/
theorem Refused.bind {α β : Type} {x : Except ReadError α} (h : Refused x)
    (f : α → Except ReadError β) :
  Refused (x >>= f)
  := by
  obtain ⟨detail, rfl | rfl⟩ := h
  · exact ⟨detail, .inl rfl⟩
  · exact ⟨detail, .inr rfl⟩

/-- A refusal stays one whatever is made of a response. -/
theorem Refused.map {α β : Type} {x : Except ReadError α} (h : Refused x) (f : α → β) :
  Refused (x.map f)
  := by
  obtain ⟨detail, rfl | rfl⟩ := h
  · exact ⟨detail, .inl rfl⟩
  · exact ⟨detail, .inr rfl⟩

instance : Std.Total ScheduleRow.RunsBefore :=
  ⟨fun a b => le_total a.nextRunAt b.nextRunAt⟩

instance : IsTrans ScheduleRow ScheduleRow.RunsBefore :=
  ⟨fun a b c => le_trans (a := a.nextRunAt) (b := b.nextRunAt) (c := c.nextRunAt)⟩

end

end GoblinKing
