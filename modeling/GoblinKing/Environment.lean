import GoblinKing.ResourcePolicies
import GoblinKing.Library.Except

/-!
# The environment

The third-party code on whose answers the store, the scheduler and the API act: the cron
parser and the time zone database, which say when a schedule runs next, and the validation
of policy documents. The development is parametric in it.
-/

namespace GoblinKing

/-- The answers of third-party code. -/
structure Environment where
  /-- whether `croniter` parses a cron expression -/
  validCron : String → Bool
  /-- whether `ZoneInfo` knows a time zone -/
  validTimezone : String → Bool
  /-- the first instant after `now` at which a cron expression fires in a time zone, or
  the error raised for the expression or the zone -/
  getNext : (cron timezone : String) → (now : Instant) → Except String Instant
  /-- the validation of a JSON document as a resource policy -/
  modelValidate : String → Except String ResourcePolicy

namespace Environment

variable (env : Environment)

/-- `next_run_after`, on the two columns of a schedule that it reads. -/
def nextRunAfter (cron timezone : String) (now : Instant) : Except String Instant :=
  env.getNext cron timezone now

/-- Reject invalid cron expressions. The parser raises on a null expression. -/
def validateCron (value : Option String) : Except String String :=
  match value with
  | none => .error "'NoneType' object has no attribute 'lower'"
  | some cron =>
      if env.validCron cron then .ok cron else .error ("invalid cron expression: " ++ cron)

/-- Reject unknown time zones. The lookup raises on a null name. -/
def validateTimezone (value : Option String) : Except String String :=
  match value with
  | none => .error "expected str, bytes or os.PathLike object, not NoneType"
  | some timezone =>
      if env.validTimezone timezone then .ok timezone else .error ("unknown timezone: " ++ timezone)

/-- A cron expression that is accepted is the one that was given. -/
theorem validateCron_ok {value : Option String} {cron : String}
    (h : env.validateCron value = .ok cron) :
  value = some cron ∧ env.validCron cron = true
  := by
  cases value with
  | none => cases h
  | some c =>
      simp only [validateCron] at h
      split at h
      case isTrue hvalid =>
        cases h
        use rfl
      case isFalse => cases h

/-- A time zone that is accepted is the one that was given. -/
theorem validateTimezone_ok {value : Option String} {timezone : String}
    (h : env.validateTimezone value = .ok timezone) :
  value = some timezone ∧ env.validTimezone timezone = true
  := by
  cases value with
  | none => cases h
  | some z =>
      simp only [validateTimezone] at h
      split at h
      case isTrue hvalid =>
        cases h
        use rfl
      case isFalse => cases h

/-- What the cron parser documents: the next run is later than the instant it is asked
for. -/
def LaterRuns : Prop :=
  ∀ cron timezone now next, env.nextRunAfter cron timezone now = .ok next → now < next

/-- The policy document with the single limit of one running job of a kind. -/
def oneRunning : String :=
  "\x7b\"concurrency\": \x7b\"max_running\": 1\x7d\x7d"

/-- An environment to replay runs in: it knows the cron expression that fires every minute,
the time zone UTC and the policy document `oneRunning`. -/
def sample : Environment where
  validCron := fun cron => cron = "* * * * *"
  validTimezone := fun timezone => timezone = "UTC"
  getNext := fun cron timezone now =>
    if cron = "* * * * *" ∧ timezone = "UTC" then
      .ok ((now / 60000000 + 1) * 60000000)
    else
      .error "bad cron expression or time zone"
  modelValidate := fun text =>
    if text = oneRunning then
      .ok { concurrency := { maxRunning := some 1 } }
    else
      .error "validation error for ResourcePolicy"

/-- The sample environment finds later runs. -/
theorem laterRuns_sample : sample.LaterRuns
  := by
  intro cron timezone now next h
  have hlater : ∀ n : ℤ, n < (n / 60000000 + 1) * 60000000 := by
    intro n
    omega
  simp only [nextRunAfter, sample] at h
  split at h
  case isTrue =>
    cases h
    apply hlater
  case isFalse => cases h

end Environment

end GoblinKing
