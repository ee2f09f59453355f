import GoblinKing.Kubernetes.ForwardedResults

/-!
# The forwarders agree

Without a destination the script and the process publish the same result exactly when the limits in the
environment can be read and every float that is kept of the result is finite. With an infinite score they
do not.
-/

namespace GoblinKing

open Posix Utf8

variable {format : ResultFormat} {result : ForwardedResult} {floats : FloatText → Prop} {limit : ℕ}

/-! ### The environment -/

/-- The limits in the environment are integers that are not negative, where they are set. -/
def ForwarderEnvironment.ReadableLimits (environ : ForwarderEnvironment) : Prop :=
  ∀ name ∈ ["GOBLIN_ARTIFACT_MAX_FILES", "GOBLIN_ARTIFACT_MAX_BYTES"], ∀ text,
    environ.get name = some text → ∃ value, environ.int text = some value ∧ 0 ≤ value

/-- What is wrong with a limit. -/
def limitReasons : List String :=
  ["GOBLIN_ARTIFACT_MAX_FILES must be an integer", "GOBLIN_ARTIFACT_MAX_FILES must be non-negative",
    "GOBLIN_ARTIFACT_MAX_BYTES must be an integer", "GOBLIN_ARTIFACT_MAX_BYTES must be non-negative"]

/-- Nothing that is wrong with a limit is that there is no destination. -/
theorem of_mem_limitReasons {reason : String} (h : reason ∈ limitReasons) :
  IsPlainLiteral ("artifact retention failed: " ++ reason) ∧ reason ≠ notConfigured
  := by
  have hall : ∀ reason ∈ limitReasons,
      IsPlainLiteral ("artifact retention failed: " ++ reason) ∧ reason ≠ notConfigured := by
    decide
  exact hall reason h

/-- A limit is read, unless it is no integer or negative. -/
theorem limit_cases (environ : ForwarderEnvironment) (name : String) (default : ℤ) :
  (∃ value, environ.limit name default = .ok value
      ∧ ∀ text, environ.get name = some text → ∃ value, environ.int text = some value ∧ 0 ≤ value)
    ∨ ∃ reason ∈ [name ++ " must be an integer", name ++ " must be non-negative"],
      environ.limit name default = .error ⟨.valueError, reason⟩
      ∧ ¬ ∀ text, environ.get name = some text → ∃ value, environ.int text = some value ∧ 0 ≤ value
  := by
  rw [ForwarderEnvironment.limit]
  cases hget : environ.get name with
  | none =>
      refine .inl ⟨default, rfl, ?_⟩
      rintro text ⟨⟩
  | some text =>
      dsimp only
      cases hint : environ.int text with
      | none =>
          refine .inr ⟨_, List.mem_cons_self, rfl, ?_⟩
          intro h
          obtain ⟨value, hvalue, -⟩ := h text rfl
          rw [hint] at hvalue
          cases hvalue
      | some value =>
          dsimp only
          split
          case isTrue hneg =>
            refine .inr ⟨_, List.mem_cons_of_mem _ List.mem_cons_self, rfl, ?_⟩
            intro h
            obtain ⟨value', hvalue, hle⟩ := h text rfl
            obtain rfl := Option.some.inj (hint.symm.trans hvalue)
            exact absurd hneg (Int.not_lt.mpr hle)
          case isFalse hle =>
            refine .inl ⟨value, rfl, ?_⟩
            intro text' htext
            obtain rfl := Option.some.inj htext
            exact ⟨value, hint, Int.not_lt.mp hle⟩

/-- Without a destination the request has none, or a limit in the environment is wrong. -/
theorem request_cases {environ : ForwarderEnvironment} (h : environ.Unconfigured) (runId : String) :
  (∃ request, environ.request runId = .ok request ∧ request.destinationRoot = none
      ∧ environ.ReadableLimits)
    ∨ ∃ reason ∈ limitReasons, environ.request runId = .error ⟨.valueError, reason⟩
      ∧ ¬ environ.ReadableLimits
  := by
  rw [ForwarderEnvironment.request, show environ.strip ((environ.get "GOBLIN_ARTIFACT_DESTINATION_ROOT").getD "") = "" from h]
  rcases limit_cases environ "GOBLIN_ARTIFACT_MAX_FILES" 100 with
    ⟨maxFiles, hfiles, hreadFiles⟩ | ⟨reason, hreason, hfiles, hnot⟩
  · rw [hfiles, Except.ok_bind]
    rcases limit_cases environ "GOBLIN_ARTIFACT_MAX_BYTES" (100 * 1024 * 1024) with
      ⟨maxBytes, hbytes, hreadBytes⟩ | ⟨reason, hreason, hbytes, hnot⟩
    · rw [hbytes, Except.ok_bind]
      refine .inl ⟨_, rfl, rfl, ?_⟩
      exact List.forall_mem_cons.mpr ⟨hreadFiles, List.forall_mem_singleton.mpr hreadBytes⟩
    · rw [hbytes]
      refine .inr ⟨reason, ?_, rfl, fun hall => hnot (hall _ (by decide))⟩
      exact List.mem_append_right
        ["GOBLIN_ARTIFACT_MAX_FILES must be an integer", "GOBLIN_ARTIFACT_MAX_FILES must be non-negative"]
        hreason
  · rw [hfiles]
    refine .inr ⟨reason, ?_, rfl, fun hall => hnot (hall _ (by decide))⟩
    exact List.mem_append_left
      ["GOBLIN_ARTIFACT_MAX_BYTES must be an integer", "GOBLIN_ARTIFACT_MAX_BYTES must be non-negative"]
      hreason

theorem waitForResult_pollsOf {raw : List CodePoint} (h : format.modelValidateJson raw = some result)
    (waits : ℕ) (later : List ResultPoll) :
  format.waitForResult false (pollsOf waits raw later) = .ok result
  := by
  induction waits with
  | zero =>
      rw [pollsOf, List.replicate_zero, List.nil_append, ResultFormat.waitForResult, h]
  | succ waits ih =>
      rw [pollsOf, List.replicate_succ, List.cons_append, ResultFormat.waitForResult]
      exact ih

/-- The artifacts of a result are refused without a destination. -/
theorem retainArtifacts_of_none (storage : DestinationStorage) {request : ArtifactRetentionRequest}
    (h : request.destinationRoot = none) :
  result.retainArtifacts storage request = .ok result.unretained
  := by
  rw [ForwardedResult.retainArtifacts, ForwardedResult.unretained]
  split
  case isTrue => rfl
  case isFalse =>
    rw [h]
    rfl

/-- The process publishes the unretained result, or a result that is refused for a wrong limit. -/
theorem forwardResult_cases {environ : ForwarderEnvironment} (h : environ.Unconfigured)
    (storage : DestinationStorage) (settings : ForwarderSettings) {raw : List CodePoint}
    (hvalid : format.modelValidateJson raw = some result) (waits : ℕ) (later : List ResultPoll) :
  ∃ final publication,
    format.forwardResult environ storage settings (pollsOf waits raw later) = .ok (final, publication)
    ∧ publication.value = format.modelDumpJson final
    ∧ (environ.ReadableLimits ∧ final = result.unretained
      ∨ ¬ environ.ReadableLimits ∧ ∃ reason ∈ limitReasons, final = result.retentionFailure reason)
  := by
  rw [ResultFormat.forwardResult, waitForResult_pollsOf hvalid, Except.ok_bind]
  rcases request_cases h settings.runId with
    ⟨request, hrequest, hnone, hlimits⟩ | ⟨reason, hreason, hrequest, hlimits⟩
  · rw [hrequest]
    dsimp only
    rw [retainArtifacts_of_none storage hnone, Except.ok_bind]
    exact ⟨_, _, rfl, rfl, .inl ⟨hlimits, rfl⟩⟩
  · rw [hrequest]
    exact ⟨_, _, rfl, rfl, .inr ⟨hlimits, reason, hreason, rfl⟩⟩

/-! ### Agreement -/

theorem retentionMessage_ne (error : Option (List CodePoint)) (reason : String) :
  error ≠ some (retentionMessage error reason)
  := by
  intro h
  have hne : points ("artifact retention failed: " ++ reason) ≠ [] := by
    rw [points, String.toList_append]
    exact List.cons_ne_nil _ _
  have hlength := congrArg (fun error => (error.getD []).length) h
  cases error with
  | none => cases h
  | some text =>
      have htext := Option.some.inj h
      cases text with
      | nil => exact hne htext.symm
      | cons c text =>
          have hlonger : ((c :: text) ++ points "; " ++ points ("artifact retention failed: " ++ reason)).length
              = (c :: text).length := congrArg List.length htext.symm
          rw [List.append_assoc, List.length_append, List.length_append] at hlonger
          have hpositive := List.length_pos_of_ne_nil hne
          omega

theorem retentionMessage_injective (error : Option (List CodePoint)) :
  Function.Injective (retentionMessage error)
  := by
  intro reason reason' h
  have htail := points_injective (List.append_cancel_left h)
  have hchars := congrArg String.toList htail
  rw [String.toList_append, String.toList_append] at hchars
  exact String.toList_injective (List.append_cancel_left hchars)

/-- A result that is refused for a wrong limit is not the unretained one. -/
theorem unretained_ne_refused {reason : String} (h : reason ∈ limitReasons) :
  result.unretained ≠ (result.retentionFailure reason).finite
  := by
  intro heq
  have herror := congrArg ForwardedResult.error heq
  rw [ForwardedResult.unretained] at herror
  split at herror
  case isTrue => exact retentionMessage_ne _ _ herror
  case isFalse =>
    exact (of_mem_limitReasons h).2
      (retentionMessage_injective _ (Option.some.inj herror)).symm

/-- Nothing of a result is lost exactly when all its floats are finite. -/
theorem finite_eq_self_iff :
  result.finite = result ↔ (∀ entry ∈ result.data, entry.2.AllFinite)
    ∧ (∀ metric ∈ result.metrics, metric.2.AllFinite)
    ∧ ∀ handoff ∈ result.handoff, ∀ entry ∈ handoff.payload, entry.2.AllFinite
  := by
  rw [← Json.finiteFields_eq_self_iff, ← Json.finiteFields_eq_self_iff]
  constructor
  · intro h
    refine ⟨congrArg ForwardedResult.data h, congrArg ForwardedResult.metrics h, ?_⟩
    intro handoff hmem
    apply Json.finiteFields_eq_self_iff.mp
    have hhandoff := List.map_eq_iff.mp (congrArg ForwardedResult.handoff h)
    obtain ⟨i, hi, rfl⟩ := List.getElem_of_mem hmem
    have hitem := hhandoff i
    rw [List.getElem?_eq_getElem hi] at hitem
    exact (congrArg DeclaredHandoff.payload (Option.some.inj hitem)).symm
  · rintro ⟨hdata, hmetrics, hhandoff⟩
    have hmap : result.handoff.map (fun handoff =>
        { handoff with payload := Json.finiteFields handoff.payload }) = result.handoff := by
      apply Json.map_eq_self
      intro handoff hmem
      rw [Json.finiteFields_eq_self_iff.mpr (hhandoff handoff hmem)]
    rw [ForwardedResult.finite, hdata, hmetrics, hmap]

/-- Nothing of the unretained result is lost exactly when every float that is kept is finite. -/
theorem finite_unretained_iff :
  result.unretained.finite = result.unretained ↔ result.KeepsFinite
  := by
  rw [finite_eq_self_iff, ForwardedResult.unretained]
  cases hartifacts : result.artifacts with
  | nil =>
      constructor
      · rintro ⟨hdata, hmetrics, hhandoff⟩
        exact ⟨hdata, fun metric hmetric => .inl (hmetrics metric hmetric), hhandoff⟩
      · intro h
        refine ⟨h.data, ?_, h.handoff⟩
        intro metric hmetric
        exact (h.metrics metric hmetric).resolve_right (fun hnot => hnot.1 hartifacts)
  | cons artifact artifacts =>
      constructor
      · rintro ⟨hdata, hmetrics, hhandoff⟩
        refine ⟨hdata, ?_, hhandoff⟩
        intro metric hmetric
        by_cases hkey : isArtifactKey metric.1 = true
        · right
          exact ⟨hartifacts ▸ List.cons_ne_nil _ _, hkey⟩
        · left
          apply hmetrics metric
          exact List.mem_filter.mpr ⟨hmetric, by simpa using hkey⟩
      · intro h
        refine ⟨h.data, ?_, h.handoff⟩
        intro metric hmetric
        obtain ⟨hmem, hkey⟩ := List.mem_filter.mp hmetric
        rcases h.metrics metric hmem with hfinite | ⟨-, hartifact⟩
        · exact hfinite
        · rw [hartifact] at hkey
          cases hkey

theorem artifacts_unretained :
  result.unretained.artifacts = []
  := by
  rw [ForwardedResult.unretained]
  split
  case isTrue h => exact List.isEmpty_iff.mp h
  case isFalse => rfl

/-- What is valid is sound, and so is what is published of it. -/
theorem exists_sound {raw : List CodePoint} (h : format.modelValidateJson raw = some result) :
  ∃ limit, format.reads = limit + 4 ∧ result.Sound format.IsFloat limit
  := by
  obtain ⟨value, hread, hvalidate⟩ := Option.bind_eq_some_iff.mp h
  obtain ⟨fields, rfl, hfields⟩ := validateEnvelope_eq_some.mp hvalidate
  obtain ⟨limit, hlimit⟩ := Nat.exists_eq_add_of_le' format.four_le_reads
  have hwithin := format.read_within raw _ hread
  rw [hlimit] at hwithin
  exact ⟨limit, hlimit, hfields.sound hwithin⟩

theorem ForwardedResult.Sound.unretained (h : result.Sound floats limit) :
  result.unretained.Sound floats limit
  := by
  rw [ForwardedResult.unretained]
  split
  case isTrue => exact h
  case isFalse => exact h.retentionFailure (by decide)

/-- On a valid text, both publish one result exactly when the limits are readable and every float that is
kept is finite. -/
theorem publish_same_iff {environ : ForwarderEnvironment} (h : environ.Unconfigured)
    (storage : DestinationStorage) (settings : ForwarderSettings) {raw : List CodePoint}
    (hvalid : format.modelValidateJson raw = some result) (waits : ℕ) (later : List ResultPoll) :
  (∃ published final envelope,
      format.forwarderScript settings (pollsOf waits raw later) = .ok published
      ∧ format.forwardResult environ storage settings (pollsOf waits raw later) = .ok final
      ∧ format.modelValidateJson published.value = some envelope
      ∧ format.modelValidateJson final.2.value = some envelope)
    ↔ environ.ReadableLimits ∧ result.KeepsFinite
  := by
  obtain ⟨text, htext, hread⟩ := scriptResult_of_valid hvalid
  obtain ⟨limit, hlimit, hsound⟩ := exists_sound hvalid
  obtain ⟨final, publication, hforward, hvalue, hfinal⟩ :=
    forwardResult_cases h storage settings hvalid waits later
  rw [← finite_unretained_iff, forwarderScript_pollsOf, htext, hforward]
  rcases hfinal with ⟨hreadable, rfl⟩ | ⟨hunreadable, reason, hreason, rfl⟩
  · have hfinite := modelValidateJson_modelDumpJson hlimit hsound.unretained artifacts_unretained
    rw [← hvalue] at hfinite
    constructor
    · rintro ⟨published, final, envelope, hpublished, hfinal, hscript, hprocess⟩
      obtain rfl := Except.ok.inj hpublished
      obtain rfl := Except.ok.inj hfinal
      refine ⟨hreadable, ?_⟩
      exact (Option.some.inj (hfinite.symm.trans hprocess)).trans
        (Option.some.inj (hread.symm.trans hscript)).symm
    · rintro ⟨-, hself⟩
      rw [hself] at hfinite
      exact ⟨_, _, _, rfl, rfl, hread, hfinite⟩
  · have hrefused := modelValidateJson_modelDumpJson hlimit
      (hsound.retentionFailure (of_mem_limitReasons hreason).1) rfl
    rw [← hvalue] at hrefused
    constructor
    · rintro ⟨published, final, envelope, hpublished, hfinal, hscript, hprocess⟩
      obtain rfl := Except.ok.inj hpublished
      obtain rfl := Except.ok.inj hfinal
      exact absurd ((Option.some.inj (hread.symm.trans hscript)).trans
        (Option.some.inj (hrefused.symm.trans hprocess)).symm) (unretained_ne_refused hreason)
    · rintro ⟨hreadable, -⟩
      exact absurd hreadable hunreadable

/-- The two forwarders agree on a text exactly when, if it is valid, the limits in the environment are
readable and every float that is kept of the result is finite. -/
theorem forwardersAgree_iff {environ : ForwarderEnvironment} (h : environ.Unconfigured)
    (storage : DestinationStorage) (settings : ForwarderSettings) (raw : List CodePoint) :
  ForwardersAgree format environ storage settings raw
    ↔ ∀ result, format.modelValidateJson raw = some result →
      environ.ReadableLimits ∧ result.KeepsFinite
  := by
  constructor
  · intro hagree result hvalid
    exact (publish_same_iff h storage settings hvalid 0 []).mp (hagree.valid result hvalid 0 [])
  · intro hkeeps
    constructor
    · intro result hvalid waits later
      exact (publish_same_iff h storage settings hvalid waits later).mpr (hkeeps result hvalid)
    · intro hinvalid waits later published hpublished
      rw [forwarderScript_pollsOf] at hpublished
      cases htext : format.scriptResult raw with
      | error e =>
          rw [htext] at hpublished
          cases hpublished
      | ok text =>
          rw [htext] at hpublished
          obtain rfl := Except.ok.inj hpublished
          exact status_loadResult_ne hinvalid htext

/-! ### An infinite score -/

/-- The floats whose texts can be read. -/
def IsSampleFloat (text : FloatText) : Prop :=
  Json.IsFloatText text.val

/-- A text has been written of a value within the limits. -/
def WrittenValue (text : List CodePoint) (value : Json) : Prop :=
  value.Within IsSampleFloat IsEncodable 200 ∧ text = Json.write Json.escapeAscii value

/-- A text has been written of one value only. -/
theorem eq_of_write_eq {limit limit' : ℕ} {value value' : Json}
    (h : value.Within IsSampleFloat IsEncodable limit)
    (h' : value'.Within IsSampleFloat IsEncodable limit')
    (heq : Json.write Json.escapeAscii value = Json.write Json.escapeAscii value') :
  value = value'
  := by
  have hlegible : ∀ limit (value : Json), value.Within IsSampleFloat IsEncodable limit →
      value.Legible (fun c => ¬ IsSurrogate c) :=
    fun _ _ hwithin => hwithin.legible (fun _ hfloat => hfloat) (fun _ htext => htext)
  exact (hlegible _ _ h).write_injective Json.separates_escapeAscii (hlegible _ _ h') heq

open Classical in
/-- Read a text that has been written. -/
noncomputable def readWritten (text : List CodePoint) : Option Json :=
  if h : ∃ value, WrittenValue text value then some h.choose else none

theorem writtenValue_of_read {text : List CodePoint} {value : Json} (h : readWritten text = some value) :
  WrittenValue text value
  := by
  rw [readWritten] at h
  split at h
  case isTrue hexists =>
    rw [← Option.some.inj h]
    exact hexists.choose_spec
  case isFalse => cases h

theorem readWritten_write {value : Json} (h : value.Within IsSampleFloat IsEncodable 200) :
  readWritten (Json.write Json.escapeAscii value) = some value
  := by
  have hexists : ∃ value', WrittenValue (Json.write Json.escapeAscii value) value' := ⟨value, h, rfl⟩
  rw [readWritten, dif_pos hexists]
  exact congrArg some (eq_of_write_eq hexists.choose_spec.1 h hexists.choose_spec.2.symm)

/-- What is raised for a text that is no JSON. -/
def decodeFailure : Raised :=
  ⟨.valueError, "Expecting value"⟩

/-- A format that reads the texts that have been written. -/
noncomputable def writtenFormat : ResultFormat where
  read := readWritten
  reads := 200
  validationError _ := []
  loads text := (readWritten text).elim (.error decodeFailure) .ok
  recursionLimit := 1000
  dumpJson := Json.write Json.escapeAscii
  str _ := .ok []
  IsFloat := IsSampleFloat
  IsLoaded := IsEncodable
  four_le_reads := Nat.le_of_ble_eq_true rfl
  reads_le := Nat.le_of_ble_eq_true rfl
  read_within _ _ h := (writtenValue_of_read h).1
  loads_of_read := by
    intro text value h
    rw [h]
    rfl
  loads_within := by
    intro text value h
    cases hread : readWritten text with
    | none =>
        rw [hread] at h
        cases h
    | some value' =>
        rw [hread] at h
        obtain rfl := Except.ok.inj h
        exact ⟨200, (writtenValue_of_read hread).1⟩
  read_dumps _ h := readWritten_write h
  read_dumpJson _ h _ := readWritten_write h
  eq_of_loads_dumps := by
    intro limit value value' h hloads
    cases hread : readWritten (Json.write Json.escapeAscii value) with
    | none =>
        rw [hread] at hloads
        cases hloads
    | some read =>
        rw [hread] at hloads
        obtain rfl := Except.ok.inj hloads
        obtain ⟨hwithin, heq⟩ := writtenValue_of_read hread
        exact (eq_of_write_eq h hwithin heq).symm
  isLoaded_printable _ h := isEncodable_of_printable h
  isLoaded_append _ _ h hmore := List.forall_mem_append.mpr ⟨h, isEncodable_of_printable hmore⟩
  isLoaded_str := by
    intro value text h
    rw [← Except.ok.inj h]
    exact List.forall_mem_nil _

/-- The environment of the script, in which nothing is set. -/
def emptyEnvironment : ForwarderEnvironment where
  get _ := none
  strip text := text
  int _ := none

theorem unconfigured_emptyEnvironment :
  emptyEnvironment.Unconfigured
  := rfl

theorem isEncodable_points {text : String} (h : IsPlainLiteral text) :
  IsEncodable (points text)
  := isEncodable_of_printable (isPrintable_points h)

/-- A success without data. -/
def bareSuccess : Json.Fields :=
  [(points "status", .str (points "success"))]

theorem bareSuccess_within :
  (Json.obj bareSuccess).Within IsSampleFloat IsEncodable 200
  := by
  refine .obj (List.nodup_singleton _) ?_ ?_
  · exact List.forall_mem_singleton.mpr (isEncodable_points (by decide))
  · exact List.forall_mem_singleton.mpr (.str _ (isEncodable_points (by decide)))

/-- The forwarders agree on a success without data. -/
theorem forwardersAgree_bareSuccess :
  ForwardersAgree writtenFormat emptyEnvironment (fun _ _ => .ok ([], [])) ⟨"r", "/result.json"⟩
    (Json.write Json.escapeAscii (.obj bareSuccess))
  := by
  apply (forwardersAgree_iff unconfigured_emptyEnvironment _ _ _).mpr
  intro result hvalid
  have hread : writtenFormat.read (Json.write Json.escapeAscii (.obj bareSuccess))
      = some (.obj bareSuccess) := readWritten_write bareSuccess_within
  have hlookup : ∀ name, fieldOf bareSuccess name
      = if name = "status" then some (.str (points "success")) else none := by
    intro name
    simp only [fieldOf, bareSuccess, Json.lookup_field, points_inj, List.lookup_nil]
  have hbare : Validated bareSuccess { status := .success } := by
    constructor <;> rw [hlookup]
    · exact validateStatus_statusText .success
    all_goals rfl
  rw [ResultFormat.modelValidateJson, hread, Option.bind_some,
    validateEnvelope_eq_some.mpr ⟨_, rfl, hbare⟩] at hvalid
  obtain rfl := Option.some.inj hvalid
  constructor
  · rintro name - text ⟨⟩
  · exact ⟨List.forall_mem_nil _, List.forall_mem_nil _, List.forall_mem_nil _⟩

/-- The text of the infinite float. -/
def infinity : FloatText :=
  ⟨points "Infinity", isPrintable_points (by decide)⟩

/-- A success with an infinite score. -/
def infiniteScore : Json.Fields :=
  [(points "status", .str (points "success")),
    (points "data", .obj [(points "score", .float infinity)])]

/-- The text `{"status":"success","data":{"score":Infinity}}` -/
def infiniteScoreText : List CodePoint :=
  Json.write Json.escapeAscii (.obj infiniteScore)

theorem isFloatText_infinity :
  Json.IsFloatText infinity.val
  := by
  constructor
  · have hall : infinity.val.all Json.isScalarCharacter = true := by decide +kernel
    exact List.all_eq_true.mp hall
  · have hany : infinity.val.any (fun c => !Json.isNumberCharacter c) = true := by decide +kernel
    obtain ⟨c, hc, hnot⟩ := List.any_eq_true.mp hany
    exact ⟨c, hc, by simpa using hnot⟩
  · intro c hc
    obtain rfl := Option.some.inj hc
    rfl

theorem infiniteScore_within :
  (Json.obj infiniteScore).Within IsSampleFloat IsEncodable 200
  := by
  have hscore : (Json.obj [(points "score", .float infinity)]).Within IsSampleFloat IsEncodable 199 := by
    refine .obj (List.nodup_singleton _) ?_ ?_
    · exact List.forall_mem_singleton.mpr (isEncodable_points (by decide))
    · exact List.forall_mem_singleton.mpr (.float _ isFloatText_infinity)
  refine .obj (by decide +kernel) ?_ ?_
  · exact List.forall_mem_cons.mpr
      ⟨isEncodable_points (by decide), List.forall_mem_singleton.mpr (isEncodable_points (by decide))⟩
  · exact List.forall_mem_cons.mpr
      ⟨.str _ (isEncodable_points (by decide)), List.forall_mem_singleton.mpr hscore⟩

/-- The infinite score is a valid result. -/
theorem infiniteScore_validated :
  Validated infiniteScore { status := .success, data := [(points "score", .float infinity)] }
  := by
  have hlookup : ∀ name, fieldOf infiniteScore name
      = if name = "status" then some (.str (points "success"))
        else if name = "data" then some (.obj [(points "score", .float infinity)])
        else none := by
    intro name
    simp only [fieldOf, infiniteScore, Json.lookup_field, points_inj, List.lookup_nil]
  constructor <;> rw [hlookup]
  · exact validateStatus_statusText .success
  all_goals rfl

/-- The infinite score is a valid result, and the forwarders do not agree on it. -/
theorem infiniteScore_differs :
  emptyEnvironment.Unconfigured
    ∧ writtenFormat.modelValidateJson infiniteScoreText
      = some { status := .success, data := [(points "score", .float infinity)] }
    ∧ ¬ ForwardersAgree writtenFormat emptyEnvironment (fun _ _ => .ok ([], [])) ⟨"r", "/result.json"⟩
      infiniteScoreText
  := by
  have hvalid : writtenFormat.modelValidateJson infiniteScoreText
      = some { status := .success, data := [(points "score", .float infinity)] } := by
    apply Option.bind_eq_some_iff.mpr
    use .obj infiniteScore, readWritten_write infiniteScore_within
    exact validateEnvelope_eq_some.mpr ⟨_, rfl, infiniteScore_validated⟩
  refine ⟨unconfigured_emptyEnvironment, hvalid, ?_⟩
  intro hagree
  obtain ⟨-, hkeeps⟩ := (publish_same_iff unconfigured_emptyEnvironment _ _ hvalid 0 []).mp
    (hagree.valid _ hvalid 0 [])
  cases hkeeps.data (points "score", .float infinity) List.mem_cons_self with
  | float hfinite => exact hfinite.2.1 rfl

end GoblinKing
