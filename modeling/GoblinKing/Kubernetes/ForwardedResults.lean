import GoblinKing.Kubernetes.ResultForwarder

/-!
# What forwarders publish

The fields of a dictionary that is validated are those of the result. The script sets the fields of the
dictionary, and what it publishes is valid and is the refused result, or it is no success where the text
was not valid. The process writes the result again, and what it writes is read as the result, with `null`
for the floats that are not finite.
-/

namespace GoblinKing

open Posix Utf8

variable {format : ResultFormat} {fields : Json.Fields} {result : ForwardedResult}

/-! ### Keys and literals -/

theorem points_injective :
  Function.Injective points
  := ofChars_injective.comp (fun _ _ h => String.toList_injective h)

theorem points_inj {a b : String} :
  points a = points b ↔ a = b
  := points_injective.eq_iff

/-- A literal of printable characters. -/
def IsPlainLiteral (text : String) : Prop :=
  text.toList.all (fun c => 0x20 ≤ c.toNat && c.toNat < 0x7F) = true

instance decidableIsPlainLiteral (text : String) : Decidable (IsPlainLiteral text) :=
  inferInstanceAs (Decidable (_ = true))

theorem isPrintable_points {text : String} (h : IsPlainLiteral text) :
  ∀ c ∈ points text, Json.IsPrintable c
  := by
  apply Json.isPrintable_ofChars
  intro c hc
  have hrange := List.all_eq_true.mp h c hc
  rw [Bool.and_eq_true, decide_eq_true_iff, decide_eq_true_iff] at hrange
  exact hrange

/-- Printable strings have no surrogates. -/
theorem isEncodable_of_printable {text : List CodePoint} (h : ∀ c ∈ text, Json.IsPrintable c) :
  IsEncodable text
  := fun c hc => (h c hc).not_isSurrogate

/-! ### What is validated -/

/-- The fields of a dictionary are those of a result. -/
structure Validated (fields : Json.Fields) (result : ForwardedResult) : Prop where
  status : validateStatus (fieldOf fields "status") = some result.status
  data : validateDict (fieldOf fields "data") = some result.data
  artifacts : validateList validateArtifact (fieldOf fields "artifacts") = some result.artifacts
  metrics : validateMetrics (fieldOf fields "metrics") = some result.metrics
  handoff : validateList validateHandoff (fieldOf fields "handoff") = some result.handoff
  error : validateOptionalText (fieldOf fields "error") = some result.error

/-- What is validated is a dictionary with the fields of the result. -/
theorem validateEnvelope_eq_some {value : Json} {result : ForwardedResult} :
  validateEnvelope value = some result ↔ ∃ fields, value = .obj fields ∧ Validated fields result
  := by
  constructor
  · intro h
    cases value with
    | obj fields =>
        rw [validateEnvelope] at h
        obtain ⟨status, hstatus, h⟩ := Option.bind_eq_some_iff.mp h
        obtain ⟨data, hdata, h⟩ := Option.bind_eq_some_iff.mp h
        obtain ⟨artifacts, hartifacts, h⟩ := Option.bind_eq_some_iff.mp h
        obtain ⟨metrics, hmetrics, h⟩ := Option.bind_eq_some_iff.mp h
        obtain ⟨handoff, hhandoff, h⟩ := Option.bind_eq_some_iff.mp h
        obtain ⟨error, herror, h⟩ := Option.bind_eq_some_iff.mp h
        obtain rfl := Option.some.inj h
        exact ⟨fields, rfl, hstatus, hdata, hartifacts, hmetrics, hhandoff, herror⟩
    | _ => cases h
  · rintro ⟨fields, rfl, h⟩
    rw [validateEnvelope, h.status, h.data, h.artifacts, h.metrics, h.handoff, h.error]
    rfl

theorem of_validateDict {value : Option Json} {entries : Json.Fields}
    (h : validateDict value = some entries) :
  value = none ∧ entries = [] ∨ value = some (.obj entries)
  := by
  cases value with
  | none => exact .inl ⟨rfl, (Option.some.inj h).symm⟩
  | some value =>
      cases value with
      | obj entries' => exact .inr (congrArg (fun entries => some (Json.obj entries)) (Option.some.inj h))
      | _ => cases h

theorem of_validateMetrics {value : Option Json} {metrics : Json.Fields}
    (h : validateMetrics value = some metrics) :
  validateDict value = some metrics ∧ ∀ metric ∈ metrics, isMetric metric.2 = true
  := by
  obtain ⟨hdict, hall⟩ := Option.filter_eq_some_iff.mp h
  exact ⟨hdict, List.all_eq_true.mp hall⟩

theorem of_validateList {α : Type} {validate : Json → Option α} {value : Option Json} {records : List α}
    (h : validateList validate value = some records) :
  value = none ∧ records = []
    ∨ ∃ items, value = some (.arr items)
      ∧ List.Forall₂ (fun item record => validate item = some record) items records
  := by
  cases value with
  | none => exact .inl ⟨rfl, (Option.some.inj h).symm⟩
  | some value =>
      cases value with
      | arr items => exact .inr ⟨items, rfl, Option.mapM_eq_some.mp h⟩
      | _ => cases h

/-- There are artifacts in the dictionary when the result has some. -/
theorem Validated.isTruthy_artifacts (h : Validated fields result) :
  isTruthy (fieldOf fields "artifacts") = !result.artifacts.isEmpty
  := by
  rcases of_validateList h.artifacts with ⟨hnone, hempty⟩ | ⟨items, hitems, hrecords⟩
  · rw [hnone, hempty]
    rfl
  · rw [hitems]
    generalize result.artifacts = artifacts at hrecords
    cases hrecords with
    | nil => rfl
    | cons => rfl

/-- The script takes over the error of a result. -/
theorem Validated.scriptError (h : Validated fields result) :
  format.scriptError (fieldOf fields "error")
    = .ok (retentionMessage result.error notConfigured)
  := by
  have herror := h.error
  cases hvalue : fieldOf fields "error" with
  | none =>
      rw [hvalue] at herror
      rw [← Option.some.inj herror]
      rfl
  | some value =>
      rw [hvalue] at herror
      cases value with
      | null =>
          rw [← Option.some.inj herror]
          rfl
      | str text =>
          rw [← Option.some.inj herror]
          cases text with
          | nil => rfl
          | cons c text =>
              exact congrArg Except.ok (List.append_assoc (c :: text) (points "; ") retentionReason).symm
      | _ => cases herror

/-- The metrics of a result are in the dictionary, or there are none. -/
theorem Validated.metrics_getD (h : Validated fields result) :
  (fieldOf fields "metrics").getD (.obj []) = .obj result.metrics
  := by
  rcases of_validateDict (of_validateMetrics h.metrics).1 with ⟨hnone, hempty⟩ | hmetrics
  · rw [hnone, hempty]
    rfl
  · rw [hmetrics]
    rfl

theorem fieldOf_refusedFields (error : List CodePoint) (metrics : Json.Fields) (name : String) :
  fieldOf (refusedFields fields error metrics) name
    = if name = "metrics" then
        some (.obj (metrics.filter (fun metric => !isArtifactKey metric.1)))
      else if name = "artifacts" then some (.arr [])
      else if name = "error" then some (.str error)
      else if name = "status" then some (.str (points "failed"))
      else fieldOf fields name
  := by
  simp only [fieldOf, refusedFields, Json.lookup_setField, points_inj]

theorem validateStatus_statusText (status : ResultStatus) :
  validateStatus (some (.str (points (statusText status)))) = some status
  := by
  cases status with
  | success => rfl
  | failed => rw [validateStatus, statusText, if_neg (by rw [points_inj]; decide), if_pos rfl]

/-- The dictionary that the script publishes without the artifacts of a result is one of the refused
result. -/
theorem Validated.refused (h : Validated fields result) (reason : String) :
  Validated (refusedFields fields (retentionMessage result.error reason) result.metrics)
    (result.retentionFailure reason)
  := by
  constructor
  · rw [fieldOf_refusedFields]
    exact validateStatus_statusText .failed
  · rw [fieldOf_refusedFields]
    exact h.data
  · rw [fieldOf_refusedFields]
    rfl
  · rw [fieldOf_refusedFields]
    apply Option.filter_eq_some_iff.mpr
    use rfl
    apply List.all_eq_true.mpr
    intro metric hmetric
    exact (of_validateMetrics h.metrics).2 metric (List.mem_of_mem_filter hmetric)
  · rw [fieldOf_refusedFields]
    exact h.handoff
  · rw [fieldOf_refusedFields]
    rfl

/-- The dictionary that the script publishes is within the limits. -/
theorem refusedFields_within {floats : FloatText → Prop} {texts : List CodePoint → Prop} {limit : ℕ}
    (hplain : ∀ text, (∀ c ∈ text, Json.IsPrintable c) → texts text)
    (h : Json.Within floats texts (limit + 2) (.obj fields)) {error : List CodePoint}
    (herror : texts error) {metrics : Json.Fields}
    (hmetrics : (fieldOf fields "metrics").getD (.obj []) = .obj metrics) :
  Json.Within floats texts (limit + 2) (.obj (refusedFields fields error metrics))
  := by
  have hkey : ∀ name, IsPlainLiteral name → texts (points name) :=
    fun name hname => hplain _ (isPrintable_points hname)
  have hold : Json.Within floats texts (limit + 1) (.obj metrics) := by
    cases hvalue : fieldOf fields "metrics" with
    | none =>
        rw [hvalue] at hmetrics
        rw [← hmetrics]
        exact .empty limit
    | some value =>
        rw [hvalue] at hmetrics
        rw [← hmetrics]
        exact h.of_lookup hvalue
  have hnew := hold.sublist (List.filter_sublist (p := fun metric => !isArtifactKey metric.1))
  rw [refusedFields]
  apply Json.Within.setField _ (hkey "metrics" (by decide)) hnew
  apply Json.Within.setField _ (hkey "artifacts" (by decide)) (.arr (List.forall_mem_nil _))
  apply Json.Within.setField _ (hkey "error" (by decide)) (.str _ herror)
  exact h.setField (hkey "status" (by decide)) (.str _ (hkey "failed" (by decide)))

/-! ### The script -/

theorem forwarderScript_pollsOf (settings : ForwarderSettings) (waits : ℕ) (raw : List CodePoint)
    (later : List ResultPoll) :
  format.forwarderScript settings (pollsOf waits raw later)
    = (format.scriptResult raw).map (fun value =>
        { key := "goblin-king:results:" ++ settings.runId, value := value, ex := 3600 })
  := by
  induction waits with
  | zero => rfl
  | succ waits ih =>
      rw [pollsOf, List.replicate_succ, List.cons_append, ResultFormat.forwarderScript]
      exact ih

theorem dumps_eq_ok {value : Json} {text : List CodePoint} (h : format.dumps value = .ok text) :
  text = Json.write Json.escapeAscii value
  := by
  rw [ResultFormat.dumps] at h
  split at h
  case h_1 => cases h
  case h_2 => cases h
  case h_3 => exact (Except.ok.inj h).symm

/-- The error of a result is encodable when what is validated is. -/
theorem isEncodable_of_validateOptionalText {floats : FloatText → Prop} {limit : ℕ}
    {error : Option (List CodePoint)} (h : Json.Within floats IsEncodable limit (.obj fields))
    (herror : validateOptionalText (fieldOf fields "error") = some error) :
  ∀ text, error = some text → IsEncodable text
  := by
  rintro text rfl
  obtain ⟨limit, rfl⟩ : ∃ n, limit = n + 1 := by
    cases h with
    | obj => exact ⟨_, rfl⟩
  cases hvalue : fieldOf fields "error" with
  | none =>
      rw [hvalue] at herror
      cases herror
  | some value =>
      rw [hvalue] at herror
      cases value with
      | str text' =>
          obtain rfl := Option.some.inj (Option.some.inj herror)
          cases h.of_lookup hvalue with
          | str _ htext => exact htext
      | _ => cases herror

theorem isEncodable_retentionMessage {error : Option (List CodePoint)} {reason : String}
    (herror : ∀ text, error = some text → IsEncodable text)
    (hreason : IsPlainLiteral ("artifact retention failed: " ++ reason)) :
  IsEncodable (retentionMessage error reason)
  := by
  have hpart : IsEncodable (points ("artifact retention failed: " ++ reason)) :=
    isEncodable_of_printable (isPrintable_points hreason)
  apply List.forall_mem_append.mpr ⟨_, hpart⟩
  cases hvalue : error.filter (· ≠ []) with
  | none => exact List.forall_mem_nil _
  | some text =>
      apply List.forall_mem_append.mpr
        ⟨herror text (Option.filter_eq_some_iff.mp hvalue).1,
          isEncodable_of_printable (isPrintable_points (by decide))⟩

/-- What the script makes of the result of a text: the result, or the refused one if it has
artifacts. -/
def ForwardedResult.unretained (result : ForwardedResult) : ForwardedResult :=
  if result.artifacts.isEmpty then result
  else result.retentionFailure notConfigured

/-- The script publishes a text of the unretained result. -/
theorem scriptResult_of_valid {raw : List CodePoint} (h : format.modelValidateJson raw = some result) :
  ∃ text, format.scriptResult raw = .ok text
    ∧ format.modelValidateJson text = some result.unretained
  := by
  obtain ⟨value, hread, hvalidate⟩ := Option.bind_eq_some_iff.mp h
  obtain ⟨fields, rfl, hfields⟩ := validateEnvelope_eq_some.mp hvalidate
  have hwithin := format.read_within raw _ hread
  rw [ResultFormat.scriptResult, format.loads_of_read raw _ hread, Except.ok_bind]
  dsimp only
  rw [hfields.isTruthy_artifacts, ForwardedResult.unretained]
  cases hempty : result.artifacts.isEmpty with
  | true => exact ⟨raw, rfl, h⟩
  | false =>
      obtain ⟨limit, hlimit⟩ : ∃ limit, format.reads = limit + 2 :=
        Nat.exists_eq_add_of_le' (Nat.le_trans (by decide) format.four_le_reads)
      have herror : IsEncodable (retentionMessage result.error notConfigured) :=
        isEncodable_retentionMessage (isEncodable_of_validateOptionalText hwithin hfields.error)
          (by decide)
      have hrefused : Json.Within format.IsFloat IsEncodable format.reads
          (.obj (refusedFields fields (retentionMessage result.error notConfigured) result.metrics)) := by
        rw [hlimit] at hwithin ⊢
        exact refusedFields_within (fun _ => isEncodable_of_printable) hwithin herror
          hfields.metrics_getD
      refine ⟨Json.write Json.escapeAscii
        (.obj (refusedFields fields (retentionMessage result.error notConfigured) result.metrics)),
        ?_, ?_⟩
      · rw [Bool.not_false, if_pos rfl, hfields.scriptError, Except.ok_bind, hfields.metrics_getD]
        dsimp only
        rw [ResultFormat.dumps, hrefused.dumpsFailure_eq_none _ format.reads_le]
      · rw [ResultFormat.modelValidateJson, format.read_dumps _ hrefused]
        exact validateEnvelope_eq_some.mpr ⟨_, rfl, hfields.refused _⟩

/-- The error of the script is a string that `json.loads` returns. -/
theorem isLoaded_scriptError {limit : ℕ} {error : List CodePoint}
    (h : Json.Within format.IsFloat format.IsLoaded (limit + 1) (.obj fields))
    (herror : format.scriptError (fieldOf fields "error") = .ok error) :
  format.IsLoaded error
  := by
  have hreason : ∀ c ∈ points "; " ++ retentionReason, Json.IsPrintable c :=
    List.forall_mem_append.mpr
      ⟨isPrintable_points (by decide), isPrintable_points (by decide)⟩
  have hplain : format.IsLoaded retentionReason :=
    format.isLoaded_printable _ (isPrintable_points (by decide))
  cases hvalue : fieldOf fields "error" with
  | none =>
      rw [hvalue] at herror
      rw [← Except.ok.inj herror]
      exact hplain
  | some value =>
      rw [hvalue, ResultFormat.scriptError] at herror
      split at herror
      case isFalse =>
        rw [← Except.ok.inj herror]
        exact hplain
      case isTrue =>
        cases hformatted : format.formatted value with
        | error e =>
            rw [hformatted] at herror
            cases herror
        | ok text =>
            rw [hformatted] at herror
            rw [← Except.ok.inj herror]
            apply format.isLoaded_append _ _ _ hreason
            cases value with
            | str text' =>
                rw [← Except.ok.inj hformatted]
                cases h.of_lookup hvalue with
                | str _ htext => exact htext
            | _ => exact format.isLoaded_str _ _ hformatted

/-- What the script publishes of a text that is not valid is no success. -/
theorem status_loadResult_ne {raw text : List CodePoint} (h : format.modelValidateJson raw = none)
    (htext : format.scriptResult raw = .ok text) :
  (format.loadResult text).status ≠ .success
  := by
  obtain ⟨value, hloads, hscript⟩ := Except.bind_eq_ok.mp htext
  cases value with
  | obj fields =>
      dsimp only at hscript
      split at hscript
      case isFalse =>
        rw [← Except.ok.inj hscript, ResultFormat.loadResult, h]
        exact fun hsuccess => ResultStatus.noConfusion hsuccess
      case isTrue =>
        obtain ⟨error, herror, hscript⟩ := Except.bind_eq_ok.mp hscript
        split at hscript
        case h_2 => cases hscript
        case h_1 metrics hmetrics =>
          obtain ⟨limit, hwithin⟩ := format.loads_within raw _ hloads
          have hdeep := hwithin.mono (limit + 2) (Nat.le_add_right _ _)
          have hrefused := refusedFields_within format.isLoaded_printable hdeep
            (isLoaded_scriptError hdeep herror) hmetrics
          obtain rfl := dumps_eq_ok hscript
          rw [ResultFormat.loadResult]
          split
          case h_2 => exact fun hsuccess => ResultStatus.noConfusion hsuccess
          case h_1 result hresult =>
            obtain ⟨value, hread, hvalidate⟩ := Option.bind_eq_some_iff.mp hresult
            obtain rfl := format.eq_of_loads_dumps _ _ _ hrefused (format.loads_of_read _ _ hread)
            obtain ⟨fields', hfields', hvalid⟩ := validateEnvelope_eq_some.mp hvalidate
            have hstatus := hvalid.status
            rw [← Json.obj.inj hfields', fieldOf_refusedFields] at hstatus
            have hfailed := (validateStatus_statusText .failed).symm.trans hstatus
            rw [← Option.some.inj hfailed]
            exact fun hsuccess => ResultStatus.noConfusion hsuccess
  | _ => cases hscript

/-! ### The process -/

/-- The result with `null` for the floats that are not finite. -/
def ForwardedResult.finite (result : ForwardedResult) : ForwardedResult :=
  { result with
    data := Json.finiteFields result.data
    metrics := Json.finiteFields result.metrics
    handoff := result.handoff.map (fun handoff =>
      { handoff with payload := Json.finiteFields handoff.payload }) }

/-- A result has been validated within limits. -/
structure ForwardedResult.Sound (floats : FloatText → Prop) (limit : ℕ) (result : ForwardedResult) :
    Prop where
  data : Json.Within floats IsEncodable (limit + 3) (.obj result.data)
  metrics : Json.Within floats IsEncodable (limit + 3) (.obj result.metrics)
  scalar : ∀ metric ∈ result.metrics, isMetric metric.2 = true
  named : ∀ handoff ∈ result.handoff, handoff.kind ≠ [] ∧ IsEncodable handoff.kind
  payload : ∀ handoff ∈ result.handoff,
    Json.Within floats IsEncodable (limit + 1) (.obj handoff.payload)
  error : ∀ text, result.error = some text → IsEncodable text

variable {floats : FloatText → Prop} {limit : ℕ}

/-- A dictionary that is validated is within the limits when the value is. -/
theorem within_of_validateDict (h : Json.Within floats IsEncodable (limit + 2) (.obj fields))
    {name : String} {entries : Json.Fields} (hdict : validateDict (fieldOf fields name) = some entries) :
  Json.Within floats IsEncodable (limit + 1) (.obj entries)
  := by
  rcases of_validateDict hdict with ⟨-, rfl⟩ | hlookup
  · exact .empty limit
  · exact h.of_lookup hlookup

theorem of_validateName {value : Option Json} {text : List CodePoint}
    (h : validateName value = some text) :
  value = some (.str text) ∧ text ≠ []
  := by
  cases value with
  | none => cases h
  | some value =>
      cases value with
      | str text' =>
          rw [validateName] at h
          split at h
          case isTrue => cases h
          case isFalse hne =>
            obtain rfl := Option.some.inj h
            exact ⟨rfl, hne⟩
      | _ => cases h

/-- A handoff that is validated has a kind, and is within the limits when the value is. -/
theorem of_validateHandoff {value : Json} {handoff : DeclaredHandoff}
    (h : validateHandoff value = some handoff)
    (hwithin : Json.Within floats IsEncodable (limit + 2) value) :
  (handoff.kind ≠ [] ∧ IsEncodable handoff.kind)
    ∧ Json.Within floats IsEncodable (limit + 1) (.obj handoff.payload)
  := by
  cases value with
  | obj fields =>
      rw [validateHandoff] at h
      obtain ⟨kind, hkind, h⟩ := Option.bind_eq_some_iff.mp h
      obtain ⟨payload, hpayload, h⟩ := Option.bind_eq_some_iff.mp h
      obtain rfl := Option.some.inj h
      obtain ⟨hlookup, hne⟩ := of_validateName hkind
      have hencodable : IsEncodable kind := by
        cases hwithin.of_lookup hlookup with
        | str _ htext => exact htext
      exact ⟨⟨hne, hencodable⟩, within_of_validateDict hwithin hpayload⟩
  | _ => cases h

/-- What is validated within limits is sound. -/
theorem Validated.sound (h : Validated fields result)
    (hwithin : Json.Within floats IsEncodable (limit + 4) (.obj fields)) :
  result.Sound floats limit
  := by
  obtain ⟨hmetrics, hscalar⟩ := of_validateMetrics h.metrics
  have hhandoff : ∀ handoff ∈ result.handoff, (handoff.kind ≠ [] ∧ IsEncodable handoff.kind)
      ∧ Json.Within floats IsEncodable (limit + 1) (.obj handoff.payload) := by
    intro handoff hmem
    rcases of_validateList h.handoff with ⟨-, hempty⟩ | ⟨items, hlookup, hrecords⟩
    · rw [hempty] at hmem
      cases hmem
    · cases hwithin.of_lookup hlookup with
      | arr hitems =>
          obtain ⟨i, hi, rfl⟩ := List.getElem_of_mem hmem
          have hitem := hrecords.get (hrecords.length_eq ▸ hi) hi
          exact of_validateHandoff hitem (hitems _ (List.get_mem _ _))
  exact {
    data := within_of_validateDict hwithin h.data
    metrics := within_of_validateDict hwithin hmetrics
    scalar := hscalar
    named := fun handoff hmem => (hhandoff handoff hmem).1
    payload := fun handoff hmem => (hhandoff handoff hmem).2
    error := isEncodable_of_validateOptionalText hwithin h.error }

/-- A refused result is sound. -/
theorem ForwardedResult.Sound.retentionFailure (h : result.Sound floats limit) {reason : String}
    (hreason : IsPlainLiteral ("artifact retention failed: " ++ reason)) :
  (result.retentionFailure reason).Sound floats limit where
  data := h.data
  metrics := h.metrics.sublist List.filter_sublist
  scalar metric hmetric := h.scalar metric (List.mem_of_mem_filter hmetric)
  named := h.named
  payload := h.payload
  error _ htext := Option.some.inj htext ▸ isEncodable_retentionMessage h.error hreason

theorem within_optionalText {error : Option (List CodePoint)}
    (h : ∀ text, error = some text → IsEncodable text) :
  Json.Within floats IsEncodable limit (optionalText error)
  := by
  cases error with
  | none => exact .null limit
  | some text => exact .str limit (h text rfl)

theorem finite_optionalText (error : Option (List CodePoint)) :
  (optionalText error).finite = optionalText error
  := by
  cases error <;> rfl

/-- An object with literal keys is within the limits when its values are. -/
theorem within_literals {entries : List (String × Json)} (hnodup : (entries.map Prod.fst).Nodup)
    (hplain : ∀ entry ∈ entries, IsPlainLiteral entry.1)
    (hvalues : ∀ entry ∈ entries, Json.Within floats IsEncodable limit entry.2) :
  Json.Within floats IsEncodable (limit + 1)
    (.obj (entries.map (fun entry => (points entry.1, entry.2))))
  := by
  apply Json.Within.obj
  · have hkeys := hnodup.map points_injective
    rw [List.map_map] at hkeys ⊢
    exact hkeys
  · exact List.forall_mem_map.mpr
      (fun entry hentry => isEncodable_of_printable (isPrintable_points (hplain entry hentry)))
  · exact List.forall_mem_map.mpr hvalues

/-- A handoff is written within the limits. -/
theorem ForwardedResult.Sound.within_handoff (h : result.Sound floats limit)
    {handoff : DeclaredHandoff} (hmem : handoff ∈ result.handoff) :
  Json.Within floats IsEncodable (limit + 2) handoff.modelDump
  := by
  have hdump : handoff.modelDump = .obj (List.map (fun entry => (points entry.1, entry.2))
      [("kind", .str handoff.kind), ("payload", .obj handoff.payload)]) := rfl
  rw [hdump]
  apply within_literals
  · simp only [List.map_cons, List.map_nil]
    decide
  · simp only [List.forall_mem_cons]
    decide
  · simp only [List.forall_mem_cons]
    exact ⟨.str _ (h.named handoff hmem).2, h.payload handoff hmem, List.forall_mem_nil _⟩

/-- A result without artifacts is written within the limits. -/
theorem ForwardedResult.Sound.within_modelDump (h : result.Sound floats limit)
    (hnone : result.artifacts = []) :
  Json.Within floats IsEncodable (limit + 4) result.modelDump
  := by
  have hdump : result.modelDump = .obj (List.map (fun entry => (points entry.1, entry.2))
      [("status", .str (points (statusText result.status))), ("data", .obj result.data),
        ("artifacts", .arr []), ("metrics", .obj result.metrics),
        ("handoff", .arr (result.handoff.map DeclaredHandoff.modelDump)),
        ("error", optionalText result.error)]) := by
    rw [ForwardedResult.modelDump, hnone]
    rfl
  rw [hdump]
  apply within_literals
  · simp only [List.map_cons, List.map_nil]
    decide
  · simp only [List.forall_mem_cons]
    decide
  · simp only [List.forall_mem_cons]
    have hstatus : IsEncodable (points (statusText result.status)) := by
      apply isEncodable_of_printable
      apply isPrintable_points
      cases result.status <;> decide
    exact ⟨.str _ hstatus, h.data, .arr (List.forall_mem_nil _), h.metrics,
      .arr (List.forall_mem_map.mpr (fun handoff hmem => h.within_handoff hmem)),
      within_optionalText h.error, List.forall_mem_nil _⟩

theorem isMetric_finite {value : Json} (h : isMetric value = true) :
  isMetric value.finite = true
  := by
  cases value with
  | float text =>
      rw [Json.finite]
      split <;> rfl
  | arr | obj => cases h
  | _ => rfl

theorem validateOptionalText_optionalText (error : Option (List CodePoint)) :
  validateOptionalText (some (optionalText error)) = some error
  := by
  cases error <;> rfl

/-- What is written of a handoff is validated as the handoff. -/
theorem validateHandoff_modelDump {handoff : DeclaredHandoff} (h : handoff.kind ≠ []) :
  validateHandoff handoff.modelDump.finite
    = some { handoff with payload := Json.finiteFields handoff.payload }
  := by
  have hkind : validateName (some (.str handoff.kind)) = some handoff.kind := if_neg h
  have hne : ("payload" : String) ≠ "kind" := by decide
  simp only [DeclaredHandoff.modelDump, Json.finite, Json.finiteFields, validateHandoff, fieldOf,
    Json.lookup_field, points_inj, if_neg hne, if_true, hkind, validateDict, Option.bind_eq_bind,
    Option.bind_some, Option.pure_def]

/-- What is written of a result without artifacts is validated as the result, with `null` for the floats
that are not finite. -/
theorem ForwardedResult.Sound.validated (h : result.Sound floats limit)
    (hnone : result.artifacts = []) :
  validateEnvelope result.modelDump.finite = some result.finite
  := by
  have hlookup : ∀ name, fieldOf (Json.finiteFields
      [(points "status", .str (points (statusText result.status))),
        (points "data", .obj result.data),
        (points "artifacts", .arr (result.artifacts.map DeclaredArtifact.modelDump)),
        (points "metrics", .obj result.metrics),
        (points "handoff", .arr (result.handoff.map DeclaredHandoff.modelDump)),
        (points "error", optionalText result.error)]) name
      = if name = "status" then some (.str (points (statusText result.status)))
        else if name = "data" then some (.obj (Json.finiteFields result.data))
        else if name = "artifacts" then some (.arr [])
        else if name = "metrics" then some (.obj (Json.finiteFields result.metrics))
        else if name = "handoff" then
          some (.arr (Json.finiteItems (result.handoff.map DeclaredHandoff.modelDump)))
        else if name = "error" then some (optionalText result.error)
        else none := by
    intro name
    simp only [fieldOf, Json.finiteFields, Json.finite, Json.lookup_field, points_inj, hnone,
      List.map_nil, Json.finiteItems, finite_optionalText, List.lookup_nil]
  refine validateEnvelope_eq_some.mpr ⟨_, rfl, ?_, ?_, ?_, ?_, ?_, ?_⟩
  · rw [hlookup]
    exact validateStatus_statusText result.status
  · rw [hlookup]
    rfl
  · rw [hlookup]
    exact congrArg some hnone.symm
  · rw [hlookup]
    apply Option.filter_eq_some_iff.mpr
    use rfl
    apply List.all_eq_true.mpr
    intro metric hmetric
    replace hmetric : metric ∈ Json.finiteFields result.metrics := hmetric
    rw [Json.finiteFields_eq_map] at hmetric
    obtain ⟨old, hold, rfl⟩ := List.mem_map.mp hmetric
    exact isMetric_finite (h.scalar old hold)
  · rw [hlookup]
    apply Option.mapM_eq_some.mpr
    rw [Json.finiteItems_eq_map, List.map_map, ForwardedResult.finite]
    apply List.forall₂_map_left_iff.mpr
    apply List.forall₂_map_right_iff.mpr
    exact List.forall₂_same.mpr (fun handoff hmem => validateHandoff_modelDump (h.named handoff hmem).1)
  · rw [hlookup]
    exact validateOptionalText_optionalText result.error

/-- What is published of a sound result without artifacts reads as the result, with `null` for the floats
that are not finite. -/
theorem modelValidateJson_modelDumpJson {limit : ℕ} (hreads : format.reads = limit + 4)
    (h : result.Sound format.IsFloat limit) (hnone : result.artifacts = []) :
  format.modelValidateJson (format.modelDumpJson result) = some result.finite
  := by
  have hwithin := (h.within_modelDump hnone).finite
  rw [← hreads] at hwithin
  rw [ResultFormat.modelValidateJson, ResultFormat.modelDumpJson,
    format.read_dumpJson _ hwithin (Json.allFinite_finite _)]
  exact h.validated hnone

end GoblinKing
