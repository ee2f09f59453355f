import GoblinKing.Store.Columns
import Mathlib.Algebra.Order.Ring.Rat

/-!
# Results of workers

The result that a worker leaves behind, with its artifacts and its metrics, and the exceptions that
can come up while it is read. The size of an artifact stands among the metrics, as a number of any
kind; a float is turned into an integer only when it is finite.
-/

namespace GoblinKing

/-- The exceptions that the runtimes tell apart. -/
inductive ErrorKind where
  | osError
  | typeError
  | valueError
  /-- a `ValueError` about the paths of the Docker runtime -/
  | dockerRuntimePathError
  /-- a `ValueError` about the retention of artifacts -/
  | artifactRetentionError
  | redisError
  | other
  deriving DecidableEq, Repr

/-- An exception with its message. -/
structure Raised where
  kind : ErrorKind
  message : String
  deriving DecidableEq, Repr

/-- The exceptions that are a `ValueError`. -/
def Raised.isValueError (error : Raised) : Bool :=
  match error.kind with
  | .valueError | .dockerRuntimePathError | .artifactRetentionError => true
  | .osError | .typeError | .redisError | .other => false

/-! ### Numbers -/

/-- A floating-point number. -/
inductive FloatValue where
  | finite (number : ℚ)
  | infinite (negative : Bool)
  | nan
  deriving DecidableEq, Repr

/-- A float is neither infinite nor not a number. -/
def FloatValue.IsFinite : FloatValue → Prop
  | .finite _ => True
  | .infinite _ | .nan => False

/-- `int` of a float, which drops the digits behind the point. -/
def FloatValue.toInt : FloatValue → Except Raised ℤ
  | .finite number => .ok (number.num.tdiv number.den)
  | .infinite _ => .error ⟨.other, "cannot convert float infinity to integer"⟩
  | .nan => .error ⟨.valueError, "cannot convert float NaN to integer"⟩

/-- A float can be turned into an integer exactly when it is finite. -/
theorem FloatValue.exists_toInt {float : FloatValue} :
  (∃ number, float.toInt = .ok number) ↔ float.IsFinite
  := by
  cases float with
  | finite number => simp [toInt, IsFinite]
  | infinite negative => simp [toInt, IsFinite]
  | nan => simp [toInt, IsFinite]

/-- The number of digits that an integer in a text can have. -/
def intMaxStrDigits : ℕ := 4300

/-- An integer does not have too many digits for a text. -/
def Printable (number : ℤ) : Prop :=
  number.natAbs < 10 ^ intMaxStrDigits

instance decidablePrintable (number : ℤ) : Decidable (Printable number) :=
  inferInstanceAs (Decidable (_ < _))

/-- `str` of an integer. -/
def strInt (number : ℤ) : Except Raised String :=
  if Printable number then
    .ok (toString number)
  else
    .error ⟨.valueError, "Exceeds the limit (4300 digits) for integer string conversion"⟩

/-- An integer is written down exactly when it does not have too many digits. -/
theorem exists_strInt {number : ℤ} :
  (∃ text, strInt number = .ok text) ↔ Printable number
  := by
  unfold strInt
  split
  case isTrue h => simp [h]
  case isFalse h => simp [h]

/-! ### Results -/

/-- A scalar of a JSON document. -/
inductive JsonScalar where
  | null
  | bool (value : Bool)
  | int (value : ℤ)
  | float (value : FloatValue)
  | text (value : String)
  deriving DecidableEq, Repr

/-- The metrics of a result by their names. -/
abbrev Metrics := String → Option JsonScalar

/-- The structured result envelope returned by every goblin execution. -/
structure WorkerResult where
  status : ResultStatus
  data : JsonDict := .empty
  artifacts : List ArtifactRecord := []
  metrics : Metrics := fun _ => none
  handoff : List HandoffRecord := []
  error : Option String := none

/-- Build a failed goblin result while preserving any partial metadata. -/
def WorkerResult.failure (error : String) (data : JsonDict := .empty)
    (metrics : Metrics := fun _ => none) (handoff : List HandoffRecord := []) : WorkerResult where
  status := .failed
  data := data
  metrics := metrics
  handoff := handoff
  error := some error

/-- The text of the status of a result. -/
def statusText : ResultStatus → String
  | .success => "success"
  | .failed => "failed"

/-- The metric with the size of an artifact. -/
def bytesMetric (name : String) : String :=
  "artifact." ++ name ++ ".bytes"

/-- The number that a metric holds, if it holds one, as an integer. -/
def JsonScalar.toInt? : JsonScalar → Option (Except Raised ℤ)
  | .int value => some (.ok value)
  | .bool value => some (.ok (if value then 1 else 0))
  | .float value => some value.toInt
  | .null | .text _ => none

end GoblinKing
