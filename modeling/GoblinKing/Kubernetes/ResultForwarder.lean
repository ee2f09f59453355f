import GoblinKing.Kubernetes.ArtifactCopies
import GoblinKing.Library.JsonValues
import Mathlib.Data.Option.Basic

/-!
# Forwarding a result

A worker leaves the text of its result in a file, and a forwarder next to it publishes the result. Where
artifacts can be retained, the forwarder is a process that validates the result; where nothing has been
configured it is a script that works on dictionaries. Both refuse a result with artifacts in the same
words, but the process writes `null` for a float that is infinite or not a number, and the script
publishes such a float. So the two agree on the results where no such float is kept.
-/

namespace GoblinKing

open Posix Utf8

/-- The code points of a literal. -/
def points (text : String) : List CodePoint :=
  ofChars text.toList

/-- The value of a key. -/
abbrev fieldOf (fields : Json.Fields) (name : String) : Option Json :=
  fields.lookup (points name)

/-! ### Results -/

/-- An artifact that a result declares. -/
structure DeclaredArtifact where
  name : List CodePoint
  uri : List CodePoint
  mediaType : Option (List CodePoint) := none

/-- Structured follow-up work that a result asks for. -/
structure DeclaredHandoff where
  kind : List CodePoint
  payload : Json.Fields := []

/-- The structured result envelope returned by every goblin execution. -/
structure ForwardedResult where
  status : ResultStatus
  data : Json.Fields := []
  artifacts : List DeclaredArtifact := []
  metrics : Json.Fields := []
  handoff : List DeclaredHandoff := []
  error : Option (List CodePoint) := none

/-- `GoblinResult.failed` -/
def ForwardedResult.failure (error : List CodePoint) (data metrics : Json.Fields := [])
    (handoff : List DeclaredHandoff := []) : ForwardedResult where
  status := .failed
  data := data
  metrics := metrics
  handoff := handoff
  error := some error

/-! ### Validation -/

/-- `Literal["success", "failed"]` -/
def validateStatus : Option Json → Option ResultStatus
  | some (.str text) =>
      if text = points "success" then some .success
      else if text = points "failed" then some .failed
      else none
  | _ => none

/-- `dict[str, Any]` that is empty by default -/
def validateDict : Option Json → Option Json.Fields
  | none => some []
  | some (.obj fields) => some fields
  | some _ => none

/-- `int | float | str | bool | None` -/
def isMetric : Json → Bool
  | .null | .bool _ | .int _ | .float _ | .str _ => true
  | .arr _ | .obj _ => false

/-- `dict[str, int | float | str | bool | None]` that is empty by default -/
def validateMetrics (value : Option Json) : Option Json.Fields :=
  (validateDict value).filter (fun metrics => metrics.all (fun metric => isMetric metric.2))

/-- `str` of at least one character -/
def validateName : Option Json → Option (List CodePoint)
  | some (.str text) => if text = [] then none else some text
  | _ => none

/-- `str | None` that is `None` by default -/
def validateOptionalText : Option Json → Option (Option (List CodePoint))
  | none | some .null => some none
  | some (.str text) => some (some text)
  | some _ => none

/-- `ArtifactRecord` -/
def validateArtifact : Json → Option DeclaredArtifact
  | .obj fields => do
      let name ← validateName (fieldOf fields "name")
      let uri ← validateName (fieldOf fields "uri")
      let mediaType ← validateOptionalText (fieldOf fields "media_type")
      return ⟨name, uri, mediaType⟩
  | _ => none

/-- `HandoffRecord` -/
def validateHandoff : Json → Option DeclaredHandoff
  | .obj fields => do
      let kind ← validateName (fieldOf fields "kind")
      let payload ← validateDict (fieldOf fields "payload")
      return ⟨kind, payload⟩
  | _ => none

/-- A list of records that is empty by default -/
def validateList {α : Type} (validate : Json → Option α) : Option Json → Option (List α)
  | none => some []
  | some (.arr items) => items.mapM validate
  | some _ => none

/-- The validation of a `GoblinResult`. -/
def validateEnvelope : Json → Option ForwardedResult
  | .obj fields => do
      let status ← validateStatus (fieldOf fields "status")
      let data ← validateDict (fieldOf fields "data")
      let artifacts ← validateList validateArtifact (fieldOf fields "artifacts")
      let metrics ← validateMetrics (fieldOf fields "metrics")
      let handoff ← validateList validateHandoff (fieldOf fields "handoff")
      let error ← validateOptionalText (fieldOf fields "error")
      return ⟨status, data, artifacts, metrics, handoff, error⟩
  | _ => none

/-- `str | None` as it is written. -/
def optionalText : Option (List CodePoint) → Json
  | none => .null
  | some text => .str text

/-- The fields of an artifact. -/
def DeclaredArtifact.modelDump (artifact : DeclaredArtifact) : Json :=
  .obj [(points "name", .str artifact.name), (points "uri", .str artifact.uri),
    (points "media_type", optionalText artifact.mediaType)]

/-- The fields of a handoff. -/
def DeclaredHandoff.modelDump (handoff : DeclaredHandoff) : Json :=
  .obj [(points "kind", .str handoff.kind), (points "payload", .obj handoff.payload)]

/-- The fields of a result. -/
def ForwardedResult.modelDump (result : ForwardedResult) : Json :=
  .obj [(points "status", .str (points (statusText result.status))),
    (points "data", .obj result.data),
    (points "artifacts", .arr (result.artifacts.map DeclaredArtifact.modelDump)),
    (points "metrics", .obj result.metrics),
    (points "handoff", .arr (result.handoff.map DeclaredHandoff.modelDump)),
    (points "error", optionalText result.error)]

/-! ### Texts -/

/-- A string has no surrogates. -/
def IsEncodable (text : List CodePoint) : Prop :=
  ∀ c ∈ text, ¬ IsSurrogate c

/-- What reads and writes results. Every value that is read has distinct keys, of two fields with one key
the last. The texts of floats are those that `json.dumps` writes. -/
structure ResultFormat where
  /-- what `GoblinResult.model_validate_json` validates, `none` where the text is no JSON for it -/
  read : List CodePoint → Option Json
  /-- the depth to which it reads -/
  reads : ℕ
  /-- the message of a `ValidationError` -/
  validationError : List CodePoint → List CodePoint
  /-- `json.loads` -/
  loads : List CodePoint → Except Raised Json
  /-- the depth to which `json.dumps` writes -/
  recursionLimit : ℕ
  /-- `model_dump_json` of a value without infinite floats -/
  dumpJson : Json → List CodePoint
  /-- `str` of a value that is no string -/
  str : Json → Except Raised (List CodePoint)
  /-- the texts of floats -/
  IsFloat : FloatText → Prop
  /-- the strings that `json.loads` returns -/
  IsLoaded : List CodePoint → Prop
  four_le_reads : 4 ≤ reads
  reads_le : reads ≤ recursionLimit
  read_within : ∀ text value, read text = some value → value.Within IsFloat IsEncodable reads
  loads_of_read : ∀ text value, read text = some value → loads text = .ok value
  loads_within : ∀ text value, loads text = .ok value →
    ∃ limit, value.Within IsFloat IsLoaded limit
  read_dumps : ∀ value : Json, value.Within IsFloat IsEncodable reads →
    read (Json.write Json.escapeAscii value) = some value
  read_dumpJson : ∀ value : Json, value.Within IsFloat IsEncodable reads → value.AllFinite →
    read (dumpJson value) = some value
  eq_of_loads_dumps : ∀ limit (value value' : Json), value.Within IsFloat IsLoaded limit →
    loads (Json.write Json.escapeAscii value) = .ok value' → value' = value
  isLoaded_printable : ∀ text, (∀ c ∈ text, Json.IsPrintable c) → IsLoaded text
  isLoaded_append : ∀ text more, IsLoaded text → (∀ c ∈ more, Json.IsPrintable c) →
    IsLoaded (text ++ more)
  isLoaded_str : ∀ value text, str value = .ok text → IsLoaded text

variable (format : ResultFormat)

/-- `GoblinResult.model_validate_json`, `none` where it raises a `ValidationError` -/
def ResultFormat.modelValidateJson (text : List CodePoint) : Option ForwardedResult :=
  (format.read text).bind validateEnvelope

/-- `GoblinResult.model_dump_json` -/
def ResultFormat.modelDumpJson (result : ForwardedResult) : List CodePoint :=
  format.dumpJson result.modelDump.finite

/-- `json.dumps(value, separators=(",", ":"))` -/
def ResultFormat.dumps (value : Json) : Except Raised (List CodePoint) :=
  match Json.dumpsFailure format.recursionLimit value with
  | some .valueError => .error ⟨.valueError, "Exceeds the limit (4300 digits) for integer string conversion"⟩
  | some .recursionError => .error ⟨.other, "maximum recursion depth exceeded"⟩
  | none => .ok (Json.write Json.escapeAscii value)

/-! ### Publishing -/

/-- A forwarder looks whether the file of the result is there, and reads it if it is. -/
abbrev ResultPoll := Option (Except Raised (List CodePoint))

/-- What is set in Redis. -/
structure Publication where
  key : String
  value : List CodePoint
  ex : ℕ

/-- What a forwarder is told about the result. -/
structure ForwarderSettings where
  runId : String
  resultPath : String

/-- A metric is about an artifact. -/
def isArtifactKey (key : List CodePoint) : Bool :=
  (points "artifact.").isPrefixOf key

/-! ### The script -/

/-- The truth value of what may be missing. -/
def isTruthy : Option Json → Bool
  | none | some .null => false
  | some (.bool b) => b
  | some (.int n) => n ≠ 0
  | some (.float text) => text.val ≠ points "0.0" ∧ text.val ≠ points "-0.0"
  | some (.str text) => text ≠ []
  | some (.arr items) => !items.isEmpty
  | some (.obj fields) => !fields.isEmpty

/-- The name of the type of a value. -/
def typeName : Json → String
  | .null => "NoneType"
  | .bool _ => "bool"
  | .int _ => "int"
  | .float _ => "float"
  | .str _ => "str"
  | .arr _ => "list"
  | .obj _ => "dict"

/-- An `AttributeError`. -/
def attributeError (value : Json) (name : String) : Raised :=
  ⟨.other, "'" ++ typeName value ++ "' object has no attribute '" ++ name ++ "'"⟩

/-- The reason for which the script refuses artifacts. -/
def retentionReason : List CodePoint :=
  points "artifact retention failed: durable Kubernetes artifact storage is not configured"

/-- `f"{previous_error}"` -/
def ResultFormat.formatted : Json → Except Raised (List CodePoint)
  | .str text => .ok text
  | value => format.str value

/-- `f"{previous_error}; {reason}" if previous_error else reason` -/
def ResultFormat.scriptError (previousError : Option Json) : Except Raised (List CodePoint) :=
  match previousError with
  | some value =>
      if isTruthy (some value) then
        (format.formatted value).map (· ++ (points "; " ++ retentionReason))
      else
        .ok retentionReason
  | none => .ok retentionReason

/-- The dictionary without its artifacts and with its status, error and metrics set. -/
def refusedFields (fields : Json.Fields) (error : List CodePoint) (metrics : Json.Fields) :
    Json.Fields :=
  Json.setField (points "metrics") (.obj (metrics.filter (fun metric => !isArtifactKey metric.1)))
    (Json.setField (points "artifacts") (.arr [])
      (Json.setField (points "error") (.str error)
        (Json.setField (points "status") (.str (points "failed")) fields)))

/-- What the script publishes of the text of a file. -/
def ResultFormat.scriptResult (rawResult : List CodePoint) : Except Raised (List CodePoint) := do
  match ← format.loads rawResult with
  | .obj fields =>
      if isTruthy (fieldOf fields "artifacts") then
        let error ← format.scriptError (fieldOf fields "error")
        match (fieldOf fields "metrics").getD (.obj []) with
        | .obj metrics => format.dumps (.obj (refusedFields fields error metrics))
        | value => throw (attributeError value "items")
      else
        return rawResult
  | value => throw (attributeError value "get")

/-- `RESULT_FORWARDER_SCRIPT` -/
def ResultFormat.forwarderScript (settings : ForwarderSettings) :
    List ResultPoll → Except Raised Publication
  | [] => .error ⟨.other, "result file not found before timeout: " ++ settings.resultPath⟩
  | none :: polls => forwarderScript settings polls
  | some (.error error) :: _ => .error error
  | some (.ok rawResult) :: _ =>
      (format.scriptResult rawResult).map (fun value =>
        { key := "goblin-king:results:" ++ settings.runId, value := value, ex := 3600 })

/-! ### The process -/

/-- The process environment, and what the process needs to read it. -/
structure ForwarderEnvironment where
  get : String → Option String
  /-- `str.strip` -/
  strip : String → String
  /-- `int` of a text -/
  int : String → Option ℤ

/-- `_environment_limit` -/
def ForwarderEnvironment.limit (environ : ForwarderEnvironment) (name : String) (default : ℤ) :
    Except Raised ℤ :=
  match environ.get name with
  | none => .ok default
  | some text =>
      match environ.int text with
      | none => .error ⟨.valueError, name ++ " must be an integer"⟩
      | some value =>
          if value < 0 then .error ⟨.valueError, name ++ " must be non-negative"⟩ else .ok value

/-- `ArtifactRetentionRequest.from_environment` -/
def ForwarderEnvironment.request (environ : ForwarderEnvironment) (runId : String) :
    Except Raised ArtifactRetentionRequest := do
  let destination := environ.strip ((environ.get "GOBLIN_ARTIFACT_DESTINATION_ROOT").getD "")
  let uriRoot := environ.strip ((environ.get "GOBLIN_KING_K8S_ARTIFACT_URI_ROOT").getD "")
  let maxFiles ← environ.limit "GOBLIN_ARTIFACT_MAX_FILES" 100
  let maxBytes ← environ.limit "GOBLIN_ARTIFACT_MAX_BYTES" (100 * 1024 * 1024)
  return {
    sourceRoot := Path.parse ((environ.get "GOBLIN_ARTIFACT_SOURCE_ROOT").getD "/artifacts")
    destinationRoot := if destination = "" then none else some (Path.parse destination)
    uriRoot := if uriRoot = "" then none else some uriRoot
    runId := runId
    projectId := (environ.get "GOBLIN_ARTIFACT_PROJECT_ID").filter (· ≠ "")
    maxFiles := maxFiles
    maxBytes := maxBytes }

/-- No destination has been configured for artifacts. -/
def ForwarderEnvironment.Unconfigured (environ : ForwarderEnvironment) : Prop :=
  environ.strip ((environ.get "GOBLIN_ARTIFACT_DESTINATION_ROOT").getD "") = ""

/-- The error of a result whose artifacts are not retained. -/
def retentionMessage (error : Option (List CodePoint)) (reason : String) : List CodePoint :=
  ((error.filter (· ≠ [])).map (· ++ points "; ")).getD []
    ++ points ("artifact retention failed: " ++ reason)

/-- An explicit failed envelope that cannot persist unretained metadata. -/
def ForwardedResult.retentionFailure (result : ForwardedResult) (reason : String) : ForwardedResult :=
  .failure (retentionMessage result.error reason)
    result.data
    (result.metrics.filter (fun metric => !isArtifactKey metric.1))
    result.handoff

/-- Why nothing is retained without a destination. -/
def notConfigured : String :=
  "durable Kubernetes artifact storage is not configured"

/-- The copying of artifacts to a configured destination. -/
abbrev DestinationStorage :=
  ForwardedResult → ArtifactRetentionRequest → Except Raised (List DeclaredArtifact × Json.Fields)

/-- Retain every declared artifact or return a metadata-free failure. -/
def ForwardedResult.retainArtifacts (storage : DestinationStorage) (result : ForwardedResult)
    (request : ArtifactRetentionRequest) : Except Raised ForwardedResult :=
  if result.artifacts.isEmpty then
    .ok result
  else
    let retained :=
      if request.destinationRoot.isNone ∨ request.uriRoot.isNone then
        .error (retentionError notConfigured)
      else
        storage result request
    match retained with
    | .ok (artifacts, metrics) => .ok { result with artifacts := artifacts, metrics := metrics }
    | .error error =>
        match error.kind with
        | .artifactRetentionError => .ok (result.retentionFailure error.message)
        | .osError => .ok (result.retentionFailure "artifact storage I/O did not complete")
        | .typeError | .valueError | .dockerRuntimePathError | .redisError | .other => .error error

/-- Wait for a complete, valid result envelope written by the worker. -/
def ResultFormat.waitForResult (lastError : Bool) : List ResultPoll → Except Raised ForwardedResult
  | [] =>
      .error ⟨.other, if lastError then
          "result file did not become a valid result envelope before timeout"
        else "result file was not created before timeout"⟩
  | none :: polls => waitForResult lastError polls
  | some (.error error) :: polls =>
      if error.isValueError ∨ error.kind = .osError then waitForResult true polls else .error error
  | some (.ok text) :: polls =>
      match format.modelValidateJson text with
      | some result => .ok result
      | none => waitForResult true polls

/-- `forward_result`: wait for a result, retain its artifacts, then publish the final envelope. -/
def ResultFormat.forwardResult (environ : ForwarderEnvironment) (storage : DestinationStorage)
    (settings : ForwarderSettings) (polls : List ResultPoll) :
    Except Raised (ForwardedResult × Publication) := do
  let result ← format.waitForResult false polls
  let final ←
    match environ.request settings.runId with
    | .ok request => result.retainArtifacts storage request
    | .error error =>
        if error.isValueError then .ok (result.retentionFailure error.message) else .error error
  return (final,
    { key := "goblin-king:forwarded-results:" ++ settings.runId
      value := format.modelDumpJson final
      ex := 3600 })

/-! ### The control plane -/

/-- What the control plane makes of a published text. -/
def ResultFormat.loadResult (raw : List CodePoint) : ForwardedResult :=
  match format.modelValidateJson raw with
  | some result => result
  | none =>
      .failure (points "worker produced invalid result JSON: " ++ format.validationError raw)

/-! ### The property -/

/-- What the file of the result is found to be: it is missing for a while, and then holds a text. -/
def pollsOf (waits : ℕ) (raw : List CodePoint) (later : List ResultPoll) : List ResultPoll :=
  List.replicate waits none ++ some (.ok raw) :: later

/-- The two forwarders agree on a text: they publish the same result when it is valid, and else the
script publishes nothing that is a success for the control plane. -/
structure ForwardersAgree (environ : ForwarderEnvironment) (storage : DestinationStorage)
    (settings : ForwarderSettings) (raw : List CodePoint) : Prop where
  valid : ∀ result, format.modelValidateJson raw = some result → ∀ waits later,
    ∃ published final envelope,
      format.forwarderScript settings (pollsOf waits raw later) = .ok published
      ∧ format.forwardResult environ storage settings (pollsOf waits raw later) = .ok final
      ∧ format.modelValidateJson published.value = some envelope
      ∧ format.modelValidateJson final.2.value = some envelope
  invalid : format.modelValidateJson raw = none → ∀ waits later published,
    format.forwarderScript settings (pollsOf waits raw later) = .ok published →
    (format.loadResult published.value).status ≠ .success

/-- Every float that is kept of a result is finite: those in its data and in the payloads of its
handoffs, and its metrics, up to those about artifacts if it has any. -/
structure ForwardedResult.KeepsFinite (result : ForwardedResult) : Prop where
  data : ∀ entry ∈ result.data, entry.2.AllFinite
  metrics : ∀ metric ∈ result.metrics,
    metric.2.AllFinite ∨ result.artifacts ≠ [] ∧ isArtifactKey metric.1 = true
  handoff : ∀ handoff ∈ result.handoff, ∀ entry ∈ handoff.payload, entry.2.AllFinite

end GoblinKing
