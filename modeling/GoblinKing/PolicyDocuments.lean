import GoblinKing.Library.Documents
import GoblinKing.ResourcePolicies
import Mathlib.Data.PNat.Basic
import Mathlib.Data.Rat.Init

/-!
# Policies as documents

A policy is validated from a document, a nested dictionary of JSON values, and dumped into one.
The model class reads each field at its place, takes the default where there is nothing, and
rejects what it does not know. A dump leaves out what is null, and on request what is the
default.
-/

namespace GoblinKing

/-- A JSON value that is no dictionary. Of a list only its items are kept, when all of them are
texts. -/
inductive Leaf where
  | null
  | bool (b : Bool)
  | number (q : ℚ)
  | text (s : String)
  | list (texts : Option (List String))
  deriving DecidableEq

/-- What the validation library decides itself: how it reads texts as integers and as truth
values, and the message of its error. -/
structure Reading where
  integerOfText : String → Option ℤ
  booleanOfText : String → Option Bool
  message : Dictionary Leaf → String

/-- A value that is read as an integer. -/
def Reading.integer (reading : Reading) : Leaf → Option ℤ
  | .number q => if q.den = 1 then some q.num else none
  | .bool b => some (if b then 1 else 0)
  | .text s => reading.integerOfText s
  | .null | .list _ => none

/-- A value that is read as a truth value. -/
def Reading.boolean (reading : Reading) : Leaf → Option Bool
  | .bool b => some b
  | .number q => if q = 0 then some false else if q = 1 then some true else none
  | .text s => reading.booleanOfText s
  | .null | .list _ => none

/-! ### Fields -/

/-- The types of the fields. -/
inductive FieldKind where
  /-- `int | None`, greater than 0 -/
  | seconds
  /-- `int | None`, at least 0 -/
  | natural
  /-- `int | None`, greater than 0 -/
  | positive
  /-- `str | None` -/
  | text
  /-- `bool | None` -/
  | flag
  /-- `list[str]` -/
  | texts
  deriving DecidableEq

namespace FieldKind

/-- The values of a field. -/
@[reducible]
def Value : FieldKind → Type
  | seconds | natural => Option ℕ
  | positive => Option ℕ+
  | text => Option String
  | flag => Option Bool
  | texts => List String

instance decidableEqValue (k : FieldKind) : DecidableEq k.Value :=
  match k with
  | seconds | natural => inferInstanceAs (DecidableEq (Option ℕ))
  | positive => inferInstanceAs (DecidableEq (Option ℕ+))
  | text => inferInstanceAs (DecidableEq (Option String))
  | flag => inferInstanceAs (DecidableEq (Option Bool))
  | texts => inferInstanceAs (DecidableEq (List String))

/-- The default of a field. -/
def default : (k : FieldKind) → k.Value
  | seconds | natural => (none : Option ℕ)
  | positive => (none : Option ℕ+)
  | text => (none : Option String)
  | flag => (none : Option Bool)
  | texts => ([] : List String)

/-- The JSON value of a value. -/
def dump : (k : FieldKind) → k.Value → Leaf
  | seconds, none | natural, none | positive, none | text, none | flag, none => .null
  | seconds, some n | natural, some n => .number n
  | positive, some n => .number (n : ℕ)
  | text, some s => .text s
  | flag, some b => .bool b
  | texts, l => .list (some l)

/-- The value that is read from a JSON value, if it is valid. -/
def read (reading : Reading) : (k : FieldKind) → Leaf → Option k.Value
  | seconds, .null | natural, .null | positive, .null | text, .null | flag, .null => some none
  | seconds, leaf => do
      let n ← reading.integer leaf
      if 0 < n then some (some n.toNat) else none
  | natural, leaf => do
      let n ← reading.integer leaf
      if 0 ≤ n then some (some n.toNat) else none
  | positive, leaf => do
      let n ← reading.integer leaf
      if h : 0 < n.toNat then some (some ⟨n.toNat, h⟩) else none
  | text, .text s => some (some s)
  | flag, leaf => (reading.boolean leaf).map some
  | texts, .list (some l) => some l
  | text, _ | texts, _ => none

/-- A value that the constraints of the field allow; most types allow no other. -/
def Valid : (k : FieldKind) → k.Value → Prop
  | seconds, value => value ≠ some 0
  | natural, _ | positive, _ | text, _ | flag, _ | texts, _ => True

/-- The default is allowed. -/
theorem valid_default (k : FieldKind) : k.Valid k.default
  := by
  cases k <;> simp [Valid, default]

/-- What is read is allowed. -/
theorem valid_of_read {reading : Reading} {k : FieldKind} {leaf : Leaf} {value : k.Value}
    (h : k.read reading leaf = some value) :
  k.Valid value
  := by
  cases k with
  | seconds =>
      rintro rfl
      cases leaf <;> simp [read, Option.bind_eq_some_iff] at h <;> omega
  | _ => trivial

/-- A value that is dumped is read back. -/
theorem read_dump (reading : Reading) {k : FieldKind} {value : k.Value} (h : k.Valid value) :
  k.read reading (k.dump value) = some value
  := by
  cases k with
  | seconds =>
      cases value with
      | none => rfl
      | some n =>
          have hpos : n ≠ 0 := by simpa [Valid] using h
          simp [dump, read, Reading.integer, Nat.pos_of_ne_zero hpos]
  | natural => cases value <;> simp [dump, read, Reading.integer]
  | positive =>
      cases value with
      | none => rfl
      | some n =>
          simp [dump, read, Reading.integer]
          rfl
  | text => cases value <;> rfl
  | flag => cases value <;> rfl
  | texts => rfl

/-- Only the default is dumped as null. -/
theorem dump_eq_null_iff {k : FieldKind} {value : k.Value} :
  k.dump value = .null ↔ value = k.default ∧ k ≠ texts
  := by
  cases k with
  | texts => simp [dump]
  | _ => cases value <;> simp [dump, default]

end FieldKind

/-- The fields of a policy. -/
inductive PolicyField where
  | timeoutSeconds
  | maxRetries
  | cpuRequest
  | cpuLimit
  | memoryRequest
  | memoryLimit
  | pidsLimit
  | networkMode
  | readOnlyRoot
  | tmpfs
  | artifactMaxBytes
  | artifactMaxFiles
  | logsMaxBytes
  | maxRunning
  | maxProjectRunning
  deriving DecidableEq

namespace PolicyField

/-- The type of a field. -/
@[reducible]
def kind : PolicyField → FieldKind
  | timeoutSeconds => .seconds
  | maxRetries | artifactMaxBytes | artifactMaxFiles | logsMaxBytes => .natural
  | pidsLimit | maxRunning | maxProjectRunning => .positive
  | cpuRequest | cpuLimit | memoryRequest | memoryLimit | networkMode => .text
  | readOnlyRoot => .flag
  | tmpfs => .texts

/-- The section of the document that a field is in; `none` for a field at the top. -/
def section? : PolicyField → Option String
  | timeoutSeconds | maxRetries => none
  | cpuRequest | cpuLimit => some "cpu"
  | memoryRequest | memoryLimit => some "memory"
  | pidsLimit => some "process"
  | networkMode => some "network"
  | readOnlyRoot | tmpfs | artifactMaxBytes | artifactMaxFiles => some "filesystem"
  | logsMaxBytes => some "logs"
  | maxRunning | maxProjectRunning => some "concurrency"

/-- The key of a field. -/
def key : PolicyField → String
  | timeoutSeconds => "timeout_seconds"
  | maxRetries => "max_retries"
  | cpuRequest | memoryRequest => "request"
  | cpuLimit | memoryLimit => "limit"
  | pidsLimit => "pids_limit"
  | networkMode => "mode"
  | readOnlyRoot => "read_only_root"
  | tmpfs => "tmpfs"
  | artifactMaxBytes => "artifact_max_bytes"
  | artifactMaxFiles => "artifact_max_files"
  | logsMaxBytes => "max_bytes"
  | maxRunning => "max_running"
  | maxProjectRunning => "max_project_running"

/-- The values of a field. -/
abbrev Value (f : PolicyField) : Type := f.kind.Value

/-- The default of a field. -/
def default (f : PolicyField) : f.Value := f.kind.default

end PolicyField

/-- The fields at the top. -/
def topFields : List PolicyField :=
  [.timeoutSeconds, .maxRetries]

/-- The sections with their fields. -/
def policySections : List (String × List PolicyField) :=
  [("cpu", [.cpuRequest, .cpuLimit]), ("memory", [.memoryRequest, .memoryLimit]),
    ("process", [.pidsLimit]), ("network", [.networkMode]),
    ("filesystem", [.readOnlyRoot, .tmpfs, .artifactMaxBytes, .artifactMaxFiles]),
    ("logs", [.logsMaxBytes]), ("concurrency", [.maxRunning, .maxProjectRunning])]

namespace ResourcePolicy

/-- The value of a field. -/
def get (policy : ResourcePolicy) : (f : PolicyField) → f.Value
  | .timeoutSeconds => policy.timeoutSeconds
  | .maxRetries => policy.maxRetries
  | .cpuRequest => policy.cpu.request
  | .cpuLimit => policy.cpu.limit
  | .memoryRequest => policy.memory.request
  | .memoryLimit => policy.memory.limit
  | .pidsLimit => policy.pidsLimit
  | .networkMode => policy.networkMode
  | .readOnlyRoot => policy.filesystem.readOnlyRoot
  | .tmpfs => policy.filesystem.tmpfs
  | .artifactMaxBytes => policy.filesystem.artifactMaxBytes
  | .artifactMaxFiles => policy.filesystem.artifactMaxFiles
  | .logsMaxBytes => policy.logsMaxBytes
  | .maxRunning => policy.concurrency.maxRunning
  | .maxProjectRunning => policy.concurrency.maxProjectRunning

/-- A policy is determined by its fields. -/
theorem ext_get {policy policy' : ResourcePolicy} (h : ∀ f, policy.get f = policy'.get f) :
  policy = policy'
  := by
  obtain ⟨_, _, ⟨_, _⟩, ⟨_, _⟩, _, _, ⟨_, _, _, _⟩, _, ⟨_, _⟩⟩ := policy
  obtain ⟨_, _, ⟨_, _⟩, ⟨_, _⟩, _, _, ⟨_, _, _, _⟩, _, ⟨_, _⟩⟩ := policy'
  have h₁ := h .timeoutSeconds
  have h₂ := h .maxRetries
  have h₃ := h .cpuRequest
  have h₄ := h .cpuLimit
  have h₅ := h .memoryRequest
  have h₆ := h .memoryLimit
  have h₇ := h .pidsLimit
  have h₈ := h .networkMode
  have h₉ := h .readOnlyRoot
  have h₁₀ := h .tmpfs
  have h₁₁ := h .artifactMaxBytes
  have h₁₂ := h .artifactMaxFiles
  have h₁₃ := h .logsMaxBytes
  have h₁₄ := h .maxRunning
  have h₁₅ := h .maxProjectRunning
  simp only [get] at h₁ h₂ h₃ h₄ h₅ h₆ h₇ h₈ h₉ h₁₀ h₁₁ h₁₂ h₁₃ h₁₄ h₁₅
  subst h₁ h₂ h₃ h₄ h₅ h₆ h₇ h₈ h₉ h₁₀ h₁₁ h₁₂ h₁₃ h₁₄ h₁₅
  rfl

/-- All values are allowed. -/
def Valid (policy : ResourcePolicy) : Prop :=
  ∀ f : PolicyField, f.kind.Valid (policy.get f)

/-- The fields of a policy without values are the defaults. -/
theorem get_empty (f : PolicyField) : ({} : ResourcePolicy).get f = f.default
  := by
  cases f <;> rfl

/-- A policy without values is allowed. -/
theorem valid_empty : ({} : ResourcePolicy).Valid
  := by
  intro f
  rw [get_empty]
  apply FieldKind.valid_default

end ResourcePolicy

/-! ### Reading -/

/-- What a document has in the place of a field: nothing, a document, or an error, when the
section is no dictionary. -/
def PolicyField.place (f : PolicyField) (document : Dictionary Leaf) :
    Option (Option (Document Leaf)) :=
  match f.section? with
  | none => some (document.lookup f.key)
  | some name =>
      match document.lookup name with
      | none => some none
      | some (.leaf _) => none
      | some (.dict entries) => some (entries.lookup f.key)

/-- The value that is set in the place of a field explicitly, if one is. -/
def FieldKind.explicit (reading : Reading) (k : FieldKind) : Option (Document Leaf) → Option k.Value
  | some (.leaf leaf) => k.read reading leaf
  | _ => none

/-- The value in the place of a field, if it is valid: the default where there is nothing. -/
def FieldKind.validate (reading : Reading) (k : FieldKind) : Option (Document Leaf) → Option k.Value
  | none => some k.default
  | some (.leaf leaf) => k.read reading leaf
  | some (.dict _) => none

/-- The value that a document sets for a field explicitly, if it does. -/
def PolicyField.explicit (reading : Reading) (f : PolicyField) (document : Dictionary Leaf) :
    Option f.Value :=
  (f.place document).bind (f.kind.explicit reading)

/-- The value of a field in a document, if it is valid. -/
def PolicyField.read (reading : Reading) (f : PolicyField) (document : Dictionary Leaf) :
    Option f.Value :=
  (f.place document).bind (f.kind.validate reading)

/-- A document has no other keys than those of the model class. -/
def knownKeys (document : Dictionary Leaf) : Bool :=
  (document.map Prod.fst).all
      (fun key => decide (key ∈ topFields.map PolicyField.key ++ policySections.map Prod.fst))
    && policySections.all (fun (name, fields) =>
      match document.lookup name with
      | some (.dict entries) =>
          (entries.map Prod.fst).all (fun key => decide (key ∈ fields.map PolicyField.key))
      | _ => true)

/-- The policy in a document, if it is valid. -/
def policyOfDocument (reading : Reading) (document : Dictionary Leaf) : Option ResourcePolicy := do
  guard (knownKeys document)
  let timeoutSeconds ← PolicyField.timeoutSeconds.read reading document
  let maxRetries ← PolicyField.maxRetries.read reading document
  let cpuRequest ← PolicyField.cpuRequest.read reading document
  let cpuLimit ← PolicyField.cpuLimit.read reading document
  let memoryRequest ← PolicyField.memoryRequest.read reading document
  let memoryLimit ← PolicyField.memoryLimit.read reading document
  let pidsLimit ← PolicyField.pidsLimit.read reading document
  let networkMode ← PolicyField.networkMode.read reading document
  let readOnlyRoot ← PolicyField.readOnlyRoot.read reading document
  let tmpfs ← PolicyField.tmpfs.read reading document
  let artifactMaxBytes ← PolicyField.artifactMaxBytes.read reading document
  let artifactMaxFiles ← PolicyField.artifactMaxFiles.read reading document
  let logsMaxBytes ← PolicyField.logsMaxBytes.read reading document
  let maxRunning ← PolicyField.maxRunning.read reading document
  let maxProjectRunning ← PolicyField.maxProjectRunning.read reading document
  some
    { timeoutSeconds := timeoutSeconds
      maxRetries := maxRetries
      cpu := ⟨cpuRequest, cpuLimit⟩
      memory := ⟨memoryRequest, memoryLimit⟩
      pidsLimit := pidsLimit
      networkMode := networkMode
      filesystem := ⟨readOnlyRoot, tmpfs, artifactMaxBytes, artifactMaxFiles⟩
      logsMaxBytes := logsMaxBytes
      concurrency := ⟨maxRunning, maxProjectRunning⟩ }

/-- `ResourcePolicy.model_validate` -/
def modelValidate (reading : Reading) (document : Dictionary Leaf) :
    Except String ResourcePolicy :=
  match policyOfDocument reading document with
  | some policy => .ok policy
  | none => .error (reading.message document)

/-- A document is valid when its keys are known and all of its fields are read. -/
theorem modelValidate_eq_ok {reading : Reading} {document : Dictionary Leaf}
    {policy : ResourcePolicy} :
  modelValidate reading document = .ok policy
    ↔ knownKeys document = true ∧ ∀ f : PolicyField, f.read reading document = some (policy.get f)
  := by
  have hsome : modelValidate reading document = .ok policy
      ↔ policyOfDocument reading document = some policy := by
    rw [modelValidate]
    split <;> simp_all
  rw [hsome]
  constructor
  · intro h
    obtain ⟨_, hknown, h⟩ := Option.bind_eq_some_iff.mp h
    obtain ⟨_, h₁, h⟩ := Option.bind_eq_some_iff.mp h
    obtain ⟨_, h₂, h⟩ := Option.bind_eq_some_iff.mp h
    obtain ⟨_, h₃, h⟩ := Option.bind_eq_some_iff.mp h
    obtain ⟨_, h₄, h⟩ := Option.bind_eq_some_iff.mp h
    obtain ⟨_, h₅, h⟩ := Option.bind_eq_some_iff.mp h
    obtain ⟨_, h₆, h⟩ := Option.bind_eq_some_iff.mp h
    obtain ⟨_, h₇, h⟩ := Option.bind_eq_some_iff.mp h
    obtain ⟨_, h₈, h⟩ := Option.bind_eq_some_iff.mp h
    obtain ⟨_, h₉, h⟩ := Option.bind_eq_some_iff.mp h
    obtain ⟨_, h₁₀, h⟩ := Option.bind_eq_some_iff.mp h
    obtain ⟨_, h₁₁, h⟩ := Option.bind_eq_some_iff.mp h
    obtain ⟨_, h₁₂, h⟩ := Option.bind_eq_some_iff.mp h
    obtain ⟨_, h₁₃, h⟩ := Option.bind_eq_some_iff.mp h
    obtain ⟨_, h₁₄, h⟩ := Option.bind_eq_some_iff.mp h
    obtain ⟨_, h₁₅, h⟩ := Option.bind_eq_some_iff.mp h
    obtain rfl := Option.some.inj h
    constructor
    · simpa [guard] using hknown
    · intro f
      cases f <;> assumption
  · rintro ⟨hknown, h⟩
    have hguard : (guard (knownKeys document = true) : Option Unit) = some () := by
      simp [guard, hknown]
    refine Option.bind_eq_some_iff.mpr ⟨_, hguard, ?_⟩
    refine Option.bind_eq_some_iff.mpr ⟨_, h .timeoutSeconds, ?_⟩
    refine Option.bind_eq_some_iff.mpr ⟨_, h .maxRetries, ?_⟩
    refine Option.bind_eq_some_iff.mpr ⟨_, h .cpuRequest, ?_⟩
    refine Option.bind_eq_some_iff.mpr ⟨_, h .cpuLimit, ?_⟩
    refine Option.bind_eq_some_iff.mpr ⟨_, h .memoryRequest, ?_⟩
    refine Option.bind_eq_some_iff.mpr ⟨_, h .memoryLimit, ?_⟩
    refine Option.bind_eq_some_iff.mpr ⟨_, h .pidsLimit, ?_⟩
    refine Option.bind_eq_some_iff.mpr ⟨_, h .networkMode, ?_⟩
    refine Option.bind_eq_some_iff.mpr ⟨_, h .readOnlyRoot, ?_⟩
    refine Option.bind_eq_some_iff.mpr ⟨_, h .tmpfs, ?_⟩
    refine Option.bind_eq_some_iff.mpr ⟨_, h .artifactMaxBytes, ?_⟩
    refine Option.bind_eq_some_iff.mpr ⟨_, h .artifactMaxFiles, ?_⟩
    refine Option.bind_eq_some_iff.mpr ⟨_, h .logsMaxBytes, ?_⟩
    refine Option.bind_eq_some_iff.mpr ⟨_, h .maxRunning, ?_⟩
    refine Option.bind_eq_some_iff.mpr ⟨_, h .maxProjectRunning, ?_⟩
    rfl

/-- The values of a valid document are allowed. -/
theorem valid_of_modelValidate {reading : Reading} {document : Dictionary Leaf}
    {policy : ResourcePolicy} (h : modelValidate reading document = .ok policy) :
  policy.Valid
  := by
  intro f
  have hread := (modelValidate_eq_ok.mp h).2 f
  rw [PolicyField.read, Option.bind_eq_some_iff] at hread
  obtain ⟨place, -, hread⟩ := hread
  cases place with
  | none =>
      rw [← Option.some.inj hread]
      apply FieldKind.valid_default
  | some document =>
      cases document with
      | leaf leaf => apply FieldKind.valid_of_read hread
      | dict entries => cases hread

/-- The value of a field is the explicit one, and else the default. -/
theorem get_of_modelValidate {reading : Reading} {document : Dictionary Leaf}
    {policy : ResourcePolicy} (h : modelValidate reading document = .ok policy) (f : PolicyField) :
  policy.get f = (f.explicit reading document).getD f.default
  := by
  have hread := (modelValidate_eq_ok.mp h).2 f
  rw [PolicyField.read, Option.bind_eq_some_iff] at hread
  obtain ⟨place, hplace, hread⟩ := hread
  rw [PolicyField.explicit, hplace, Option.bind_some]
  cases place with
  | none => rw [← Option.some.inj hread]
            rfl
  | some document =>
      cases document with
      | leaf leaf =>
          change f.kind.read reading leaf = some (policy.get f) at hread
          rw [FieldKind.explicit, hread, Option.getD_some]
      | dict entries => cases hread

/-! ### Merging -/

/-- What is in a place after a merge: what was set explicitly, and else what was there. -/
theorem FieldKind.validate_merged {reading : Reading} {k : FieldKind}
    {base override : Option (Document Leaf)} {value merged : k.Value}
    (hbase : k.validate reading base = some value)
    (hmerged : k.validate reading
      ((override.map (Dictionary.mergedInto base)).or base) = some merged) :
  merged = (k.explicit reading override).getD value
  := by
  cases override with
  | none =>
      rw [Option.map_none, Option.none_or, hbase] at hmerged
      apply (Option.some.inj hmerged).symm
  | some document =>
      cases document with
      | leaf leaf =>
          change k.read reading leaf = some merged at hmerged
          rw [FieldKind.explicit, hmerged, Option.getD_some]
      | dict entries =>
          obtain ⟨entries', hentries'⟩ := Dictionary.mergedInto_dict base entries
          rw [Option.map_some, hentries', Option.some_or] at hmerged
          cases hmerged

/-- What is in the place of a field after a merge. -/
theorem PolicyField.place_deepMerge {f : PolicyField} {base override : Dictionary Leaf}
    (hdistinct : (Document.dict override).Distinct) {place : Option (Document Leaf)}
    (hbase : f.place base = some place) :
  f.place (base.deepMerge override)
    = (f.place override).map (fun new => (new.map (Dictionary.mergedInto place)).or place)
  := by
  simp only [PolicyField.place] at hbase ⊢
  have hlookup := Dictionary.lookup_deepMerge hdistinct.nodup base
  cases hsection : f.section? with
  | none =>
      simp only [hsection, Option.some.injEq] at hbase ⊢
      rw [hlookup, hbase, Option.map_some]
  | some name =>
      simp only [hsection] at hbase ⊢
      rw [hlookup]
      cases hoverride : override.lookup name with
      | none =>
          simp only [Option.map_none, Option.none_or, Option.map_some]
          apply hbase
      | some document =>
          cases document with
          | leaf leaf => simp [Dictionary.mergedInto]
          | dict entries =>
              have hentries := (hdistinct.of_lookup hoverride).nodup
              simp only [Option.map_some, Option.some_or]
              cases hbaseSection : base.lookup name with
              | none =>
                  simp only [hbaseSection, Option.some.injEq] at hbase
                  subst hbase
                  simp only [Dictionary.mergedInto, Dictionary.map_mergedInto_none, Option.or_none]
              | some baseDocument =>
                  cases baseDocument with
                  | leaf leaf => simp [hbaseSection] at hbase
                  | dict baseEntries =>
                      simp only [hbaseSection, Option.some.injEq] at hbase
                      subst hbase
                      simp only [Dictionary.mergedInto, Dictionary.lookup_deepMerge hentries]

/-- What a merged document has for a field: what the second document sets explicitly, and else
what the first one has. -/
theorem PolicyField.read_deepMerge {reading : Reading} {f : PolicyField}
    {base override : Dictionary Leaf} (hdistinct : (Document.dict override).Distinct)
    {value merged : f.Value} (hbase : f.read reading base = some value)
    (hmerged : f.read reading (base.deepMerge override) = some merged) :
  merged = (f.explicit reading override).getD value
  := by
  obtain ⟨place, hplace, hbase⟩ := Option.bind_eq_some_iff.mp hbase
  rw [PolicyField.read, place_deepMerge hdistinct hplace] at hmerged
  rw [PolicyField.explicit]
  cases hoverride : f.place override with
  | none => simp [hoverride] at hmerged
  | some new =>
      rw [hoverride, Option.map_some, Option.bind_some] at hmerged
      apply FieldKind.validate_merged hbase hmerged

/-! ### Dumping -/

namespace ResourcePolicy

/-- The entry of a field in a dump that leaves out what is null, and on request what is the
default. -/
def fieldEntry (policy : ResourcePolicy) (excludeDefaults : Bool) (f : PolicyField) :
    Option (Document Leaf) :=
  if f.kind.dump (policy.get f) = .null ∨ (excludeDefaults = true ∧ policy.get f = f.default) then
    none
  else
    some (.leaf (f.kind.dump (policy.get f)))

/-- The entries of fields in a dump. -/
def fieldEntries (policy : ResourcePolicy) (excludeDefaults : Bool) (fields : List PolicyField) :
    Dictionary Leaf :=
  .ofFields (fields.map (fun f => (f.key, policy.fieldEntry excludeDefaults f)))

/-- The entry of a section in a dump. -/
def sectionEntry (policy : ResourcePolicy) (excludeDefaults : Bool) (fields : List PolicyField) :
    Option (Document Leaf) :=
  if excludeDefaults = true ∧ ∀ f ∈ fields, policy.get f = f.default then
    none
  else
    some (.dict (policy.fieldEntries excludeDefaults fields))

/-- The entries of a dump, also those that are left out. -/
def entries (policy : ResourcePolicy) (excludeDefaults : Bool) :
    List (String × Option (Document Leaf)) :=
  topFields.map (fun f => (f.key, policy.fieldEntry excludeDefaults f))
    ++ policySections.map (fun (name, fields) => (name, policy.sectionEntry excludeDefaults fields))

/-- `model_dump` with `exclude_none`, and with `exclude_defaults` on request. -/
def modelDump (policy : ResourcePolicy) (excludeDefaults : Bool) : Dictionary Leaf :=
  .ofFields (policy.entries excludeDefaults)

/-- A JSON-ready policy without unset or empty sections. -/
def compact (policy : ResourcePolicy) : Dictionary Leaf :=
  policy.modelDump true

section

variable (policy : ResourcePolicy) (excludeDefaults : Bool)

/-- The keys of a dump are distinct. -/
theorem nodup_keys : ((policy.entries excludeDefaults).map Prod.fst).Nodup
  := by
  change (topFields.map PolicyField.key ++ policySections.map Prod.fst).Nodup
  decide

/-- The keys of each section are distinct. -/
theorem nodup_sectionKeys : ∀ entry ∈ policySections, (entry.2.map PolicyField.key).Nodup
  := by
  decide

/-- What is in a dump under a key. -/
theorem lookup_modelDump (key : String) :
  (policy.modelDump excludeDefaults).lookup key
    = ((policy.entries excludeDefaults).lookup key).join
  := Dictionary.lookup_ofFields (nodup_keys policy excludeDefaults) key

/-- What is in a section of a dump for one of its fields. -/
theorem lookup_fieldEntries {fields : List PolicyField} (h : (fields.map PolicyField.key).Nodup)
    {f : PolicyField} (hf : f ∈ fields) :
  (policy.fieldEntries excludeDefaults fields).lookup f.key = policy.fieldEntry excludeDefaults f
  := by
  rw [fieldEntries, Dictionary.lookup_ofFields]
  · suffices hlookup : (fields.map (fun f => (f.key, policy.fieldEntry excludeDefaults f))).lookup
        f.key = some (policy.fieldEntry excludeDefaults f) by
      rw [hlookup, Option.join_some]
    induction fields with
    | nil => cases hf
    | cons first fields ih =>
        obtain ⟨hnot, hfields⟩ := List.nodup_cons.mp h
        rw [List.map_cons, Dictionary.lookup_cons]
        rcases List.mem_cons.mp hf with rfl | hf
        · rw [if_pos rfl]
        · rw [if_neg, ih hfields hf]
          intro heq
          apply hnot
          change f.key = first.key at heq
          rw [← heq]
          apply List.mem_map_of_mem hf
  · rw [List.map_map]
    apply h

end

end ResourcePolicy

/-- A field that is in no section is at the top. -/
theorem PolicyField.mem_topFields {f : PolicyField} (h : f.section? = none) : f ∈ topFields
  := by
  cases f <;> cases h <;> decide

/-- A field is among the fields of its section. -/
theorem PolicyField.exists_section {f : PolicyField} {name : String} (h : f.section? = some name) :
  ∃ entry ∈ policySections, entry.1 = name ∧ f ∈ entry.2
  := by
  cases f <;> cases h <;> decide

namespace ResourcePolicy

section

variable (policy : ResourcePolicy) (excludeDefaults : Bool)

/-- What is in a dump under the name of a section. -/
theorem lookup_section {name : String} {fields : List PolicyField}
    (h : (name, fields) ∈ policySections) :
  (policy.modelDump excludeDefaults).lookup name = policy.sectionEntry excludeDefaults fields
  := by
  rw [lookup_modelDump]
  simp only [policySections, List.mem_cons, List.not_mem_nil, or_false, Prod.mk.injEq] at h
  rcases h with ⟨rfl, rfl⟩ | ⟨rfl, rfl⟩ | ⟨rfl, rfl⟩ | ⟨rfl, rfl⟩ | ⟨rfl, rfl⟩ | ⟨rfl, rfl⟩
    | ⟨rfl, rfl⟩ <;> rfl

/-- What is in a dump in the place of a field. -/
theorem place_modelDump (f : PolicyField) :
  f.place (policy.modelDump excludeDefaults) = some (policy.fieldEntry excludeDefaults f)
  := by
  rw [PolicyField.place]
  cases hsection : f.section? with
  | none =>
      dsimp only
      rw [lookup_modelDump]
      have hf := PolicyField.mem_topFields hsection
      simp only [topFields, List.mem_cons, List.not_mem_nil, or_false] at hf
      rcases hf with rfl | rfl <;> rfl
  | some name =>
      obtain ⟨⟨name', fields⟩, hmem, heq, hf⟩ := PolicyField.exists_section hsection
      dsimp only at heq hf
      subst heq
      simp only [lookup_section policy excludeDefaults hmem, sectionEntry]
      split_ifs with hdefault
      · dsimp only
        rw [fieldEntry, if_pos]
        right
        use hdefault.1, hdefault.2 f hf
      · dsimp only
        rw [lookup_fieldEntries policy excludeDefaults (nodup_sectionKeys _ hmem) hf]

/-- A dump has no other keys than those of the model class. -/
theorem knownKeys_modelDump : knownKeys (policy.modelDump excludeDefaults) = true
  := by
  rw [knownKeys, Bool.and_eq_true, List.all_eq_true, List.all_eq_true]
  constructor
  · intro key hkey
    rw [decide_eq_true_eq]
    apply (Dictionary.keys_ofFields_sublist (policy.entries excludeDefaults)).subset hkey
  · rintro ⟨name, fields⟩ hmem
    have hlookup : (policy.modelDump excludeDefaults).lookup name
        = policy.sectionEntry excludeDefaults fields := lookup_section policy excludeDefaults hmem
    dsimp only
    rw [hlookup, sectionEntry]
    split_ifs with hdefault
    · rfl
    · dsimp only
      rw [List.all_eq_true]
      intro key hkey
      rw [decide_eq_true_eq]
      have hsublist := (Dictionary.keys_ofFields_sublist
        (fields.map (fun f => (f.key, policy.fieldEntry excludeDefaults f)))).subset hkey
      rw [List.map_map] at hsublist
      apply hsublist

/-- A dump has distinct keys. -/
theorem distinct_modelDump : (Document.dict (policy.modelDump excludeDefaults)).Distinct
  := by
  have hfield : ∀ f, ∀ document ∈ policy.fieldEntry excludeDefaults f, document.Distinct := by
    intro f document hdocument
    rw [fieldEntry, Option.mem_def] at hdocument
    split at hdocument
    case isTrue => cases hdocument
    case isFalse =>
      rw [← Option.some.inj hdocument]
      apply Document.Distinct.leaf
  apply Document.Distinct.ofFields (nodup_keys policy excludeDefaults)
  intro entry hentry document hdocument
  rcases List.mem_append.mp hentry with htop | hsection
  · obtain ⟨f, -, rfl⟩ := List.mem_map.mp htop
    apply hfield f document hdocument
  · obtain ⟨⟨name, fields⟩, hmem, rfl⟩ := List.mem_map.mp hsection
    dsimp only at hdocument
    rw [sectionEntry, Option.mem_def] at hdocument
    split at hdocument
    case isTrue => cases hdocument
    case isFalse =>
      rw [← Option.some.inj hdocument]
      apply Document.Distinct.ofFields
      · rw [List.map_map]
        apply nodup_sectionKeys _ hmem
      · intro entry hentry
        obtain ⟨f, -, rfl⟩ := List.mem_map.mp hentry
        apply hfield f

/-- What a dump sets for a field explicitly: its value, unless it is left out. -/
theorem explicit_modelDump (reading : Reading) (h : policy.Valid) (f : PolicyField) :
  f.explicit reading (policy.modelDump excludeDefaults)
    = if f.kind.dump (policy.get f) = .null ∨ (excludeDefaults = true ∧ policy.get f = f.default)
      then none else some (policy.get f)
  := by
  rw [PolicyField.explicit, place_modelDump, Option.bind_some, fieldEntry]
  split
  · rfl
  · apply FieldKind.read_dump reading (h f)

/-- A dump is read back, whatever it leaves out. -/
theorem read_modelDump (reading : Reading) (h : policy.Valid) (f : PolicyField) :
  f.read reading (policy.modelDump excludeDefaults) = some (policy.get f)
  := by
  rw [PolicyField.read, place_modelDump, Option.bind_some, fieldEntry]
  split
  case isTrue hnull =>
    have hdefault : policy.get f = f.default := by
      rcases hnull with hnull | ⟨-, hdefault⟩
      · apply (FieldKind.dump_eq_null_iff.mp hnull).1
      · apply hdefault
    rw [hdefault]
    rfl
  case isFalse => apply FieldKind.read_dump reading (h f)

/-- The policy in a dump is the policy that was dumped. -/
theorem modelValidate_modelDump (reading : Reading) (h : policy.Valid) :
  modelValidate reading (policy.modelDump excludeDefaults) = .ok policy
  := by
  rw [modelValidate_eq_ok]
  exact ⟨knownKeys_modelDump policy excludeDefaults, read_modelDump policy excludeDefaults reading h⟩

end

end ResourcePolicy

end GoblinKing
