import GoblinKing.Contracts
import GoblinKing.Library.Except
import Mathlib.Algebra.Group.Nat.Defs
import Mathlib.Data.List.ReduceOption

/-!
# Resource policies

The policies of a policy file: defaults, overrides for single kinds, and ceilings. The
effective policy of a job is merged from the defaults, the override for its kind and the
values of the request, and is checked against the ceilings. A job carries its effective policy
in its metadata, from where the scheduler reads it back.

The validation of a policy document is done by the model class `ResourcePolicy`; here it
is a parameter `modelValidate` on the JSON text, which returns the policy or the message
of the validation error. Floating-point numbers are a parameter as well.
-/

namespace GoblinKing

/-- Request and limit of a quantity, as texts. -/
structure QuantityPolicy where
  request : Option String := none
  limit : Option String := none
  deriving DecidableEq

/-- Filesystem and artifact limits. -/
structure FilesystemPolicy where
  readOnlyRoot : Option Bool := none
  tmpfs : List String := []
  artifactMaxBytes : Option ℕ := none
  artifactMaxFiles : Option ℕ := none
  deriving DecidableEq

/-- Per-kind and project-wide concurrency limits, positive when set. -/
structure ConcurrencyPolicy where
  maxRunning : Option ℕ+ := none
  maxProjectRunning : Option ℕ+ := none
  deriving DecidableEq

/-- Effective policy values attached to a job. -/
structure ResourcePolicy where
  timeoutSeconds : Option ℕ := none
  maxRetries : Option ℕ := none
  cpu : QuantityPolicy := {}
  memory : QuantityPolicy := {}
  pidsLimit : Option ℕ+ := none
  networkMode : Option String := none
  filesystem : FilesystemPolicy := {}
  logsMaxBytes : Option ℕ := none
  concurrency : ConcurrencyPolicy := {}
  deriving DecidableEq

/-- The policy persisted in the metadata of a job: absent, valid, or an error. -/
def policyFromJobMetadata (modelValidate : String → Except String ResourcePolicy)
    (resourcePolicy : Option String) : Except String (Option ResourcePolicy) :=
  match resourcePolicy with
  | none => .ok none
  | some payload =>
      match modelValidate payload with
      | .ok policy => .ok (some policy)
      | .error error => .error ("invalid persisted resource policy: " ++ error)

/-- A complete resource policy file. -/
structure ResourcePolicySet where
  defaults : ResourcePolicy := {}
  goblins : List (String × ResourcePolicy) := []
  ceilings : ResourcePolicy := {}

/-! ### Quantities -/

/-- Floating-point numbers, as far as quantities of processors need them. -/
structure Floats where
  Number : Type
  /-- `float` of a string -/
  parse : String → Except String Number
  /-- division by 1000 -/
  milli : Number → Number
  above : Number → Number → Bool
  /-- the number in a message -/
  text : Number → String

/-- Parse a quantity of processors, which may be given in thousandths. -/
def parseCpu (floats : Floats) (value : Option String) : Except String (Option floats.Number) :=
  match value with
  | none => .ok none
  | some value => do
      if value.toList.getLast? = some 'm' then
        let number ← floats.parse (String.ofList value.toList.dropLast)
        .ok (some (floats.milli number))
      else
        let number ← floats.parse value
        .ok (some number)

/-- `_BYTE_MULTIPLIERS` -/
def byteMultiplier : String → Option ℕ
  | "" => some 1
  | "K" => some 1000
  | "M" => some (1000 ^ 2)
  | "G" => some (1000 ^ 3)
  | "T" => some (1000 ^ 4)
  | "Ki" => some 1024
  | "Mi" => some (1024 ^ 2)
  | "Gi" => some (1024 ^ 3)
  | "Ti" => some (1024 ^ 4)
  | _ => none

/-- The number that decimal digits denote; an error when there are too many to convert. -/
def intOfDigits (digits : List Char) : Except String ℕ := do
  raiseIf (decide (4300 < digits.length))
    ("Exceeds the limit (4300 digits) for integer string conversion: value has "
      ++ toString digits.length
      ++ " digits; use sys.set_int_max_str_digits() to increase the limit")
  .ok (digits.foldl (fun n digit => 10 * n + (digit.toNat - '0'.toNat)) 0)

/-- Parse a quantity of bytes: decimal digits and a unit. The pattern ends before a final
newline as well. -/
def parseBytes (value : Option String) : Except String (Option ℕ) :=
  match value with
  | none => .ok none
  | some value =>
      let chars := value.toList
      let body := if chars.getLast? = some '\n' then chars.dropLast else chars
      let digits := body.takeWhile Char.isDigit
      match byteMultiplier (String.ofList (body.dropWhile Char.isDigit)) with
      | none => .error ("invalid byte quantity: " ++ value)
      | some multiplier => do
          raiseIf digits.isEmpty ("invalid byte quantity: " ++ value)
          let number ← intOfDigits digits
          .ok (some (number * multiplier))

/-! ### Ceilings -/

/-- The end of the message for a value above its ceiling, if it is. -/
def aboveCeiling {α : Type} (above : α → α → Bool) (text : α → String) (field : String)
    (value maxValue : Option α) : Option String :=
  match value, maxValue with
  | some value, some maxValue =>
      if above value maxValue then
        some (field ++ ": " ++ text value ++ " > " ++ text maxValue)
      else
        none
  | _, _ => none

/-- A natural number above its ceiling. -/
def natAboveCeiling (field : String) (value maxValue : Option ℕ) : Option String :=
  aboveCeiling (fun value maxValue => decide (maxValue < value)) toString field value maxValue

/-- `_parse_cpu` and `_parse_bytes` of the limits that the checks compare. -/
structure ParsedLimits (floats : Floats) where
  cpu : Option floats.Number
  memory : Option ℕ

/-- Parse the limits of a policy and of the ceilings, in the order of the checks. -/
def parseLimits (floats : Floats) (ceilings policy : ResourcePolicy) :
    Except String (ParsedLimits floats × ParsedLimits floats) := do
  let cpu ← parseCpu floats policy.cpu.limit
  let cpuCeiling ← parseCpu floats ceilings.cpu.limit
  let memory ← parseBytes policy.memory.limit
  let memoryCeiling ← parseBytes ceilings.memory.limit
  .ok (⟨cpu, memory⟩, ⟨cpuCeiling, memoryCeiling⟩)

/-- What is above its ceiling, in the order of the checks. -/
def exceededCeilings (floats : Floats) (ceilings policy : ResourcePolicy)
    (limits maxLimits : ParsedLimits floats) : List String :=
  [natAboveCeiling "timeout_seconds" policy.timeoutSeconds ceilings.timeoutSeconds,
    natAboveCeiling "max_retries" policy.maxRetries ceilings.maxRetries,
    aboveCeiling floats.above floats.text "cpu.limit" limits.cpu maxLimits.cpu,
    natAboveCeiling "memory.limit" limits.memory maxLimits.memory,
    natAboveCeiling "process.pids_limit" (policy.pidsLimit.map PNat.val)
      (ceilings.pidsLimit.map PNat.val),
    natAboveCeiling "filesystem.artifact_max_bytes" policy.filesystem.artifactMaxBytes
      ceilings.filesystem.artifactMaxBytes,
    natAboveCeiling "filesystem.artifact_max_files" policy.filesystem.artifactMaxFiles
      ceilings.filesystem.artifactMaxFiles,
    natAboveCeiling "logs.max_bytes" policy.logsMaxBytes ceilings.logsMaxBytes,
    natAboveCeiling "concurrency.max_running" (policy.concurrency.maxRunning.map PNat.val)
      (ceilings.concurrency.maxRunning.map PNat.val),
    natAboveCeiling "concurrency.max_project_running"
      (policy.concurrency.maxProjectRunning.map PNat.val)
      (ceilings.concurrency.maxProjectRunning.map PNat.val)].reduceOption

/-- Reject one effective policy when it exceeds a ceiling. -/
def validateWithinCeilings (floats : Floats) (ceilings : ResourcePolicy) (kind : String)
    (policy : ResourcePolicy) : Except String Unit := do
  let (limits, maxLimits) ← parseLimits floats ceilings policy
  match (exceededCeilings floats ceilings policy limits maxLimits).head? with
  | none => .ok ()
  | some exceeded => .error (kind ++ " resource policy exceeds ceiling for " ++ exceeded)

/-! ### Effective policies -/

/-- `_deep_merge` of the documents of two policies, of which the second holds only what is not
the default. -/
def ResourcePolicy.deepMerge (base override : ResourcePolicy) : ResourcePolicy where
  timeoutSeconds := override.timeoutSeconds.or base.timeoutSeconds
  maxRetries := override.maxRetries.or base.maxRetries
  cpu := ⟨override.cpu.request.or base.cpu.request, override.cpu.limit.or base.cpu.limit⟩
  memory :=
    ⟨override.memory.request.or base.memory.request, override.memory.limit.or base.memory.limit⟩
  pidsLimit := override.pidsLimit.or base.pidsLimit
  networkMode := override.networkMode.or base.networkMode
  filesystem :=
    { readOnlyRoot := override.filesystem.readOnlyRoot.or base.filesystem.readOnlyRoot
      tmpfs :=
        if override.filesystem.tmpfs = [] then base.filesystem.tmpfs else override.filesystem.tmpfs
      artifactMaxBytes :=
        override.filesystem.artifactMaxBytes.or base.filesystem.artifactMaxBytes
      artifactMaxFiles :=
        override.filesystem.artifactMaxFiles.or base.filesystem.artifactMaxFiles }
  logsMaxBytes := override.logsMaxBytes.or base.logsMaxBytes
  concurrency :=
    ⟨override.concurrency.maxRunning.or base.concurrency.maxRunning,
      override.concurrency.maxProjectRunning.or base.concurrency.maxProjectRunning⟩

/-- Resolve defaults, the override for a kind and the values of a request, and check the
result against the ceilings. -/
def ResourcePolicySet.effectiveFor (floats : Floats) (policies : ResourcePolicySet) (kind : String)
    (timeoutSeconds maxRetries : Option ℕ) : Except String ResourcePolicy := do
  let merged := policies.defaults.deepMerge ((policies.goblins.lookup kind).getD {})
  let policy := { merged with
    timeoutSeconds := timeoutSeconds.or merged.timeoutSeconds
    maxRetries := maxRetries.or merged.maxRetries }
  raiseIf (decide (policy.timeoutSeconds = some 0)) "Input should be greater than 0"
  validateWithinCeilings floats policies.ceilings kind policy
  .ok policy

/-- A number of retries and a timeout are within the ceilings. -/
def ResourcePolicy.allows (ceilings : ResourcePolicy) (maxRetries : ℕ)
    (timeoutSeconds : Option ℕ) : Bool :=
  ceilings.maxRetries.all (fun ceiling => decide (maxRetries ≤ ceiling))
    && ceilings.timeoutSeconds.all (fun ceiling =>
      timeoutSeconds.all (fun timeout => decide (timeout ≤ ceiling)))

section

variable {floats : Floats} {ceilings policy : ResourcePolicy} {kind : String}

/-- A natural number is not above its ceiling when it is at most the ceiling, or one of the two
is not set. -/
theorem natAboveCeiling_eq_none {field : String} {value maxValue : Option ℕ} :
  natAboveCeiling field value maxValue = none
    ↔ ∀ ceiling ∈ maxValue, ∀ n ∈ value, n ≤ ceiling
  := by
  cases value with
  | none => simp [natAboveCeiling, aboveCeiling]
  | some value =>
      cases maxValue with
      | none => simp [natAboveCeiling, aboveCeiling]
      | some maxValue => simp [natAboveCeiling, aboveCeiling]

/-- No number of a policy that is not rejected is above its ceiling. -/
theorem exceededCeilings_of_validateWithinCeilings
    (h : validateWithinCeilings floats ceilings kind policy = .ok ()) :
  ∃ limits maxLimits, parseLimits floats ceilings policy = .ok (limits, maxLimits) ∧
    exceededCeilings floats ceilings policy limits maxLimits = []
  := by
  obtain ⟨⟨limits, maxLimits⟩, hlimits, h⟩ := Except.bind_eq_ok.mp h
  dsimp only at h
  split at h
  case h_2 => cases h
  case h_1 hnone => exact ⟨limits, maxLimits, hlimits, List.head?_eq_none_iff.mp hnone⟩

/-- What the limits are that are compared. -/
theorem parseLimits_ok {limits maxLimits : ParsedLimits floats}
    (h : parseLimits floats ceilings policy = .ok (limits, maxLimits)) :
  parseCpu floats policy.cpu.limit = .ok limits.cpu ∧
    parseCpu floats ceilings.cpu.limit = .ok maxLimits.cpu ∧
    parseBytes policy.memory.limit = .ok limits.memory ∧
    parseBytes ceilings.memory.limit = .ok maxLimits.memory
  := by
  obtain ⟨cpu, hcpu, h⟩ := Except.bind_eq_ok.mp h
  obtain ⟨cpuCeiling, hcpuCeiling, h⟩ := Except.bind_eq_ok.mp h
  obtain ⟨memory, hmemory, h⟩ := Except.bind_eq_ok.mp h
  obtain ⟨memoryCeiling, hmemoryCeiling, h⟩ := Except.bind_eq_ok.mp h
  cases h
  exact ⟨hcpu, hcpuCeiling, hmemory, hmemoryCeiling⟩

/-- Nothing is above its ceiling when none of the checks finds it to be. -/
theorem exceededCeilings_eq_nil {limits maxLimits : ParsedLimits floats} :
  exceededCeilings floats ceilings policy limits maxLimits = [] ↔
    natAboveCeiling "timeout_seconds" policy.timeoutSeconds ceilings.timeoutSeconds = none ∧
    natAboveCeiling "max_retries" policy.maxRetries ceilings.maxRetries = none ∧
    aboveCeiling floats.above floats.text "cpu.limit" limits.cpu maxLimits.cpu = none ∧
    natAboveCeiling "memory.limit" limits.memory maxLimits.memory = none ∧
    natAboveCeiling "process.pids_limit" (policy.pidsLimit.map PNat.val)
      (ceilings.pidsLimit.map PNat.val) = none ∧
    natAboveCeiling "filesystem.artifact_max_bytes" policy.filesystem.artifactMaxBytes
      ceilings.filesystem.artifactMaxBytes = none ∧
    natAboveCeiling "filesystem.artifact_max_files" policy.filesystem.artifactMaxFiles
      ceilings.filesystem.artifactMaxFiles = none ∧
    natAboveCeiling "logs.max_bytes" policy.logsMaxBytes ceilings.logsMaxBytes = none ∧
    natAboveCeiling "concurrency.max_running" (policy.concurrency.maxRunning.map PNat.val)
      (ceilings.concurrency.maxRunning.map PNat.val) = none ∧
    natAboveCeiling "concurrency.max_project_running"
      (policy.concurrency.maxProjectRunning.map PNat.val)
      (ceilings.concurrency.maxProjectRunning.map PNat.val) = none
  := by
  have hnil : ∀ checks : List (Option String),
      checks.reduceOption = [] ↔ ∀ check ∈ checks, check = none := by
    intro checks
    simp [List.reduceOption, List.filterMap_eq_nil_iff]
  rw [exceededCeilings, hnil]
  simp only [List.forall_mem_cons, List.not_mem_nil, false_imp_iff, implies_true, and_true]

/-- A policy that is not rejected keeps the ceilings for the timeout and the retries. -/
theorem within_of_validateWithinCeilings
    (h : validateWithinCeilings floats ceilings kind policy = .ok ()) :
  (∀ ceiling ∈ ceilings.timeoutSeconds, ∀ timeout ∈ policy.timeoutSeconds, timeout ≤ ceiling)
    ∧ ∀ ceiling ∈ ceilings.maxRetries, ∀ retries ∈ policy.maxRetries, retries ≤ ceiling
  := by
  obtain ⟨limits, maxLimits, -, h⟩ := exceededCeilings_of_validateWithinCeilings h
  obtain ⟨htimeout, hretries, -⟩ := exceededCeilings_eq_nil.mp h
  exact ⟨natAboveCeiling_eq_none.mp htimeout, natAboveCeiling_eq_none.mp hretries⟩

/-- The memory of a policy that is not rejected is within its ceiling. -/
theorem memory_le_of_validateWithinCeilings {memory ceiling : ℕ}
    (h : validateWithinCeilings floats ceilings kind policy = .ok ())
    (hmemory : parseBytes policy.memory.limit = .ok (some memory))
    (hceiling : parseBytes ceilings.memory.limit = .ok (some ceiling)) :
  memory ≤ ceiling
  := by
  obtain ⟨limits, maxLimits, hlimits, h⟩ := exceededCeilings_of_validateWithinCeilings h
  obtain ⟨-, -, -, hbound, -⟩ := exceededCeilings_eq_nil.mp h
  obtain ⟨-, -, hparsed, hparsedCeiling⟩ := parseLimits_ok hlimits
  rw [hmemory] at hparsed
  rw [hceiling] at hparsedCeiling
  rw [← Except.ok.inj hparsed, ← Except.ok.inj hparsedCeiling] at hbound
  exact natAboveCeiling_eq_none.mp hbound ceiling rfl memory rfl

/-- What is allowed by ceilings. -/
theorem ResourcePolicy.allows_iff {maxRetries : ℕ} {timeoutSeconds : Option ℕ} :
  ceilings.allows maxRetries timeoutSeconds = true
    ↔ (∀ ceiling ∈ ceilings.maxRetries, maxRetries ≤ ceiling)
      ∧ ∀ ceiling ∈ ceilings.timeoutSeconds, ∀ timeout ∈ timeoutSeconds, timeout ≤ ceiling
  := by
  simp [ResourcePolicy.allows, Option.all_eq_true]

/-- What an effective policy is, when the request sets the number of retries: within the
ceilings, as is the request. -/
theorem ResourcePolicySet.allows_of_effectiveFor {policies : ResourcePolicySet}
    {timeoutSeconds : Option ℕ} {maxRetries : ℕ}
    (h : policies.effectiveFor floats kind timeoutSeconds (some maxRetries) = .ok policy) :
  policies.ceilings.allows (policy.maxRetries.getD 0) policy.timeoutSeconds = true
    ∧ policies.ceilings.allows maxRetries timeoutSeconds = true
  := by
  obtain ⟨_, -, h⟩ := Except.bind_eq_ok.mp h
  obtain ⟨_, hvalid, h⟩ := Except.bind_eq_ok.mp h
  obtain ⟨htimeout, hretries⟩ := within_of_validateWithinCeilings hvalid
  obtain rfl := Except.ok.inj h
  simp only [ResourcePolicy.allows_iff]
  refine ⟨⟨?_, htimeout⟩, ?_, ?_⟩
  · intro ceiling hceiling
    apply hretries ceiling hceiling
    simp
  · intro ceiling hceiling
    apply hretries ceiling hceiling
    simp
  · intro ceiling hceiling timeout hrequested
    apply htimeout ceiling hceiling
    simp_all

end

end GoblinKing
