import GoblinKing.PolicyDocuments
import Mathlib.Data.Rat.Cast.Order

/-!
# Layers of policies

A policy file of the operator is layered with the resources of a project: its defaults, and the
resources of single workloads, which inherit the defaults when the settings are loaded. All of
them are nested dictionaries, which are merged and validated again; the effective policy of a
job is merged from what is dumped of the result and from the values of the request.

What a workload sets to the default of the model does not come through the dump, and so does
not erase what the defaults set.
-/

namespace GoblinKing

/-! ### The effective policy -/

/-- Set a value of the request, if there is one. -/
def setRequested (merged : Dictionary Leaf) (f : PolicyField) (value : Option ℤ) :
    Dictionary Leaf :=
  match value with
  | none => merged
  | some n => Dictionary.set merged f.key (.leaf (.number n))

/-- `effective_for`, on the documents that it merges. -/
def ResourcePolicySet.effectiveOfDocuments (reading : Reading) (floats : Floats)
    (policies : ResourcePolicySet) (kind : String) (timeoutSeconds maxRetries : Option ℤ) :
    Except String ResourcePolicy := do
  let merged := (policies.defaults.modelDump false).deepMerge
    (((policies.goblins.lookup kind).getD {}).modelDump true)
  let merged := setRequested merged .timeoutSeconds timeoutSeconds
  let merged := setRequested merged .maxRetries maxRetries
  let policy ← modelValidate reading merged
  validateWithinCeilings floats policies.ceilings kind policy
  .ok policy

/-- The policy in the metadata of a job. -/
def policyOfMetadata (reading : Reading) (resourcePolicy : Option (Dictionary Leaf)) :
    Except String (Option ResourcePolicy) :=
  match resourcePolicy with
  | none => .ok none
  | some payload =>
      match modelValidate reading payload with
      | .ok policy => .ok (some policy)
      | .error error => .error ("invalid persisted resource policy: " ++ error)

/-! ### Policy files and projects -/

/-- The policy file of an operator. -/
structure PolicyFile where
  defaults : Dictionary Leaf := []
  goblins : List (String × Dictionary Leaf) := []
  ceilings : Dictionary Leaf := []

/-- `ResourcePolicySet.model_validate` -/
def PolicyFile.modelValidate (reading : Reading) (file : PolicyFile) :
    Except String ResourcePolicySet := do
  let defaults ← GoblinKing.modelValidate reading file.defaults
  let goblins ← file.goblins.mapM (fun (kind, document) => do
    let policy ← GoblinKing.modelValidate reading document
    .ok (kind, policy))
  let ceilings ← GoblinKing.modelValidate reading file.ceilings
  .ok ⟨defaults, goblins, ceilings⟩

/-- The resources in the settings of a project: defaults, and those of its workloads, goblins
and services. No two workloads are of one kind, and no dictionary has a key twice. -/
structure ProjectSettings where
  defaults : Dictionary Leaf
  goblins : List (String × Dictionary Leaf)
  services : List (String × Dictionary Leaf)
  unique : ((goblins ++ services).map Prod.fst).Nodup
  distinct : (Document.dict defaults).Distinct
  workloads_distinct : ∀ spec ∈ goblins ++ services, (Document.dict spec.2).Distinct

/-- The resources of all workloads. -/
def ProjectSettings.workloads (project : ProjectSettings) : List (String × Dictionary Leaf) :=
  project.goblins ++ project.services

/-- `_validate_resource_policy` -/
def validateResourcePolicy (reading : Reading) (floats : Floats) (ceilings : Option ResourcePolicy)
    (kind : String) (resources : Dictionary Leaf) : Except String Unit := do
  let policy ← modelValidate reading resources
  match ceilings with
  | none => .ok ()
  | some ceilings => validateWithinCeilings floats ceilings kind policy

/-- Resources that inherit the defaults. -/
def inherit (defaults : Dictionary Leaf) (specs : List (String × Dictionary Leaf)) :
    List (String × Dictionary Leaf) :=
  specs.map (fun (kind, resources) => (kind, defaults.deepMerge resources))

/-- Workloads that inherit the defaults are of the same kinds. -/
theorem keys_inherit (defaults : Dictionary Leaf) (specs : List (String × Dictionary Leaf)) :
  (inherit defaults specs).map Prod.fst = specs.map Prod.fst
  := by
  rw [inherit, List.map_map]
  rfl

/-- The settings in which all workloads have inherited the defaults. -/
def ProjectSettings.inherited (project : ProjectSettings) : ProjectSettings where
  defaults := project.defaults
  goblins := inherit project.defaults project.goblins
  services := inherit project.defaults project.services
  unique := by
    rw [List.map_append, keys_inherit, keys_inherit, ← List.map_append]
    apply project.unique
  distinct := project.distinct
  workloads_distinct := by
    rw [inherit, inherit, ← List.map_append]
    intro spec hspec
    obtain ⟨own, hown, rfl⟩ := List.mem_map.mp hspec
    apply project.distinct.deepMerge (project.workloads_distinct own hown)

/-- Merge the default resources into the workloads and validate the effective policies. -/
def ProjectSettings.withEffectiveResourceDefaults (reading : Reading) (floats : Floats)
    (project : ProjectSettings) (resourceCeilings : Option ResourcePolicy) :
    Except String ProjectSettings := do
  validateResourcePolicy reading floats resourceCeilings "defaults.resources" project.defaults
  project.inherited.goblins.forM (fun (kind, resources) =>
    validateResourcePolicy reading floats resourceCeilings kind resources)
  project.inherited.services.forM (fun (kind, resources) =>
    validateResourcePolicy reading floats resourceCeilings kind resources)
  .ok project.inherited

/-- Layer the resources of a workload over the policy of its kind. -/
def layerWorkload (reading : Reading) (goblins : List (String × ResourcePolicy))
    (workload : String × Dictionary Leaf) : Except String (List (String × ResourcePolicy)) := do
  let baseResources := ((goblins.lookup workload.1).getD {}).compact
  let policy ← modelValidate reading (baseResources.deepMerge workload.2)
  .ok (Dictionary.set goblins workload.1 policy)

/-- Operator policies layered with project defaults and the resources of its workloads. -/
def ProjectSettings.resourcePolicySet (reading : Reading) (floats : Floats)
    (project : ProjectSettings) (operatorPolicies : Option ResourcePolicySet) :
    Except String (Option ResourcePolicySet) := do
  let workloads := project.workloads.filter (fun (_, resources) => !resources.isEmpty)
  if project.defaults.isEmpty && workloads.isEmpty && operatorPolicies.isNone then
    .ok none
  else
    let base := operatorPolicies.getD {}
    let defaults ← modelValidate reading (base.defaults.compact.deepMerge project.defaults)
    let goblins ← workloads.foldlM (layerWorkload reading) base.goblins
    let merged : ResourcePolicySet := ⟨defaults, goblins, base.ceilings⟩
    validateWithinCeilings floats merged.ceilings "<project defaults>" defaults
    workloads.forM (fun (kind, _) => do
      let policy ← merged.effectiveOfDocuments reading floats kind none none
      validateWithinCeilings floats merged.ceilings kind policy)
    .ok (some merged)

/-- The policy that a job is queued with: the policy file of the operator and the settings of the
project are loaded, layered, and resolved for the kind and the request. -/
def jobPolicy (reading : Reading) (floats : Floats) (file : Option PolicyFile)
    (project : ProjectSettings) (resourceCeilings : Option ResourcePolicy) (kind : String)
    (timeoutSeconds maxRetries : Option ℤ) : Except String (Option ResourcePolicy) := do
  let operator ← file.mapM (PolicyFile.modelValidate reading)
  let loaded ← project.withEffectiveResourceDefaults reading floats resourceCeilings
  match ← loaded.resourcePolicySet reading floats operator with
  | none => .ok none
  | some policies => do
      let policy ← policies.effectiveOfDocuments reading floats kind timeoutSeconds maxRetries
      .ok (some policy)

/-! ### What is merged -/

section

variable {reading : Reading} {floats : Floats} {policies : ResourcePolicySet} {kind : String}
  {timeoutSeconds maxRetries : Option ℤ} {policy : ResourcePolicy}

/-- The values of a request, as a document. -/
def requestDocument (timeoutSeconds maxRetries : Option ℤ) : Dictionary Leaf :=
  .ofFields [(PolicyField.timeoutSeconds.key, timeoutSeconds.map (fun n => .leaf (.number n))),
    (PolicyField.maxRetries.key, maxRetries.map (fun n => .leaf (.number n)))]

/-- The document of a request has distinct keys. -/
theorem distinct_requestDocument (timeoutSeconds maxRetries : Option ℤ) :
  (Document.dict (requestDocument timeoutSeconds maxRetries)).Distinct
  := by
  apply Document.Distinct.ofFields (by simp [PolicyField.key])
  intro field hfield value hvalue
  simp only [List.mem_cons, List.not_mem_nil, or_false] at hfield
  rcases hfield with rfl | rfl
  all_goals
    obtain ⟨n, -, rfl⟩ := Option.map_eq_some_iff.mp hvalue
    apply Document.Distinct.leaf

/-- To set the values of a request is to merge its document. -/
theorem setRequested_eq_deepMerge (merged : Dictionary Leaf) (timeoutSeconds maxRetries : Option ℤ) :
  setRequested (setRequested merged .timeoutSeconds timeoutSeconds) .maxRetries maxRetries
    = merged.deepMerge (requestDocument timeoutSeconds maxRetries)
  := by
  cases timeoutSeconds <;> cases maxRetries <;>
    simp [setRequested, requestDocument, Dictionary.ofFields, Dictionary.deepMerge,
      Dictionary.mergedInto]

/-- What two dumped policies set for a field together: the second one what is not its default. -/
theorem read_deepMerge_modelDump {base override : ResourcePolicy} (hbase : base.Valid)
    (hoverride : override.Valid) (excludeDefaults : Bool) (f : PolicyField) :
  f.read reading ((base.modelDump excludeDefaults).deepMerge override.compact)
    = some (if override.get f = f.default then base.get f else override.get f)
  := by
  have hread := base.read_modelDump excludeDefaults reading hbase f
  rw [PolicyField.read, ResourcePolicy.place_modelDump, Option.bind_some] at hread
  rw [ResourcePolicy.compact, PolicyField.read,
    PolicyField.place_deepMerge (override.distinct_modelDump true)
      (base.place_modelDump excludeDefaults f),
    ResourcePolicy.place_modelDump, Option.map_some, Option.bind_some]
  by_cases hdefault : override.get f = f.default
  · have hentry : override.fieldEntry true f = none := by
      rw [ResourcePolicy.fieldEntry, if_pos]
      right
      exact ⟨rfl, hdefault⟩
    rw [hentry, if_pos hdefault, Option.map_none, Option.none_or, hread]
  · have hnull : ¬ f.kind.dump (override.get f) = .null := by
      intro hnull
      apply hdefault (FieldKind.dump_eq_null_iff.mp hnull).1
    have hentry : override.fieldEntry true f = some (.leaf (f.kind.dump (override.get f))) := by
      rw [ResourcePolicy.fieldEntry, if_neg (by simp [hdefault, hnull])]
    rw [hentry, if_neg hdefault, Option.map_some, Option.some_or, Dictionary.mergedInto]
    apply FieldKind.read_dump reading (hoverride f)

/-- What the effective policy has for a field: what the request sets, then what the policy of the
kind sets to another value than the default, and else what the defaults have. -/
theorem get_effectiveOfDocuments (hdefaults : policies.defaults.Valid)
    (hgoblin : ((policies.goblins.lookup kind).getD {}).Valid)
    (h : policies.effectiveOfDocuments reading floats kind timeoutSeconds maxRetries = .ok policy)
    (f : PolicyField) :
  policy.get f = (f.explicit reading (requestDocument timeoutSeconds maxRetries)).getD
    (if ((policies.goblins.lookup kind).getD {}).get f = f.default then policies.defaults.get f
      else ((policies.goblins.lookup kind).getD {}).get f)
  := by
  obtain ⟨valid, hvalid, h⟩ := Except.bind_eq_ok.mp h
  obtain ⟨_, -, h⟩ := Except.bind_eq_ok.mp h
  obtain rfl := Except.ok.inj h
  rw [setRequested_eq_deepMerge] at hvalid
  have hread := (modelValidate_eq_ok.mp hvalid).2 f
  apply PolicyField.read_deepMerge (distinct_requestDocument timeoutSeconds maxRetries) _ hread
  apply read_deepMerge_modelDump hdefaults hgoblin

end

/-! ### Typed policies -/

section

variable {reading : Reading} {floats : Floats} {policies : ResourcePolicySet} {kind : String}
  {policy : ResourcePolicy}

/-- A key is in a dictionary when something is found under it. -/
theorem mem_keys_iff {β : Type} {entries : List (String × β)} {key : String} :
  key ∈ entries.map Prod.fst ↔ ∃ value, entries.lookup key = some value
  := by
  induction entries with
  | nil => simp
  | cons entry entries ih =>
      rw [List.map_cons, List.mem_cons, ih, Dictionary.lookup_cons]
      by_cases hkey : key = entry.1
      · simp [hkey]
      · simp [hkey]

/-- A document has known keys when all that is found in it is found under known keys. -/
theorem knownKeys_iff {document : Dictionary Leaf} :
  knownKeys document = true
    ↔ (∀ key value, document.lookup key = some value →
        key ∈ topFields.map PolicyField.key ++ policySections.map Prod.fst)
      ∧ ∀ entry ∈ policySections, ∀ entries, document.lookup entry.1 = some (.dict entries) →
        ∀ key value, entries.lookup key = some value → key ∈ entry.2.map PolicyField.key
  := by
  rw [knownKeys, Bool.and_eq_true, List.all_eq_true, List.all_eq_true]
  apply and_congr
  · simp only [mem_keys_iff, decide_eq_true_eq]
    constructor
    · intro h key value hvalue
      apply h key ⟨value, hvalue⟩
    · rintro h key ⟨value, hvalue⟩
      apply h key value hvalue
  · apply forall₂_congr
    rintro ⟨name, fields⟩ -
    dsimp only
    split
    case h_1 entries hentries =>
      simp only [hentries, Option.some.injEq, Document.dict.injEq, List.all_eq_true, mem_keys_iff,
        decide_eq_true_eq]
      constructor
      · rintro h _ rfl key value hvalue
        apply h key ⟨value, hvalue⟩
      · rintro h key ⟨value, hvalue⟩
        apply h entries rfl key value hvalue
    case h_2 hnot =>
      apply iff_of_true rfl
      intro entries hentries
      cases hnot entries hentries

/-- The merge of two documents with known keys has known keys. -/
theorem knownKeys_deepMerge {base override : Dictionary Leaf}
    (hdistinct : (Document.dict override).Distinct) (hbase : knownKeys base = true)
    (hoverride : knownKeys override = true) :
  knownKeys (base.deepMerge override) = true
  := by
  rw [knownKeys_iff] at hbase hoverride ⊢
  simp only [Dictionary.lookup_deepMerge hdistinct.nodup]
  constructor
  · intro key value hvalue
    cases hnew : override.lookup key with
    | none =>
        rw [hnew, Option.map_none, Option.none_or] at hvalue
        apply hbase.1 key value hvalue
    | some new => apply hoverride.1 key new hnew
  · intro entry hentry entries hentries key value hvalue
    cases hnew : override.lookup entry.1 with
    | none =>
        rw [hnew, Option.map_none, Option.none_or] at hentries
        apply hbase.2 entry hentry entries hentries key value hvalue
    | some new =>
        rw [hnew, Option.map_some, Option.some_or, Option.some.injEq] at hentries
        cases new with
        | leaf leaf => cases hentries
        | dict newEntries =>
            have hnewKey := hoverride.2 entry hentry newEntries hnew key
            cases hold : base.lookup entry.1 with
            | none =>
                rw [hold] at hentries
                cases hentries
                apply hnewKey value hvalue
            | some old =>
                cases old with
                | leaf leaf =>
                    rw [hold] at hentries
                    cases hentries
                    apply hnewKey value hvalue
                | dict oldEntries =>
                    rw [hold] at hentries
                    simp only [Dictionary.mergedInto, Document.dict.injEq] at hentries
                    subst hentries
                    rw [Dictionary.lookup_deepMerge (hdistinct.of_lookup hnew).nodup] at hvalue
                    cases hnewValue : newEntries.lookup key with
                    | none =>
                        rw [hnewValue, Option.map_none, Option.none_or] at hvalue
                        apply hbase.2 entry hentry oldEntries hold key value hvalue
                    | some newValue => apply hnewKey newValue hnewValue

/-- A value that is there, or else another one. -/
theorem or_eq_ite {β : Type} [DecidableEq β] (new old : Option β) :
  new.or old = if new = none then old else new
  := by
  cases new <;> simp

/-- The fields of a deep merge of policies: what the second one sets to another value than the
default, and else those of the first one. -/
theorem ResourcePolicy.get_deepMerge (base override : ResourcePolicy) (f : PolicyField) :
  (base.deepMerge override).get f
    = if override.get f = f.default then base.get f else override.get f
  := by
  cases f with
  | tmpfs => rfl
  | _ => apply or_eq_ite

/-- A deep merge of policies keeps the values allowed. -/
theorem ResourcePolicy.Valid.deepMerge {base override : ResourcePolicy} (hbase : base.Valid)
    (hoverride : override.Valid) :
  (base.deepMerge override).Valid
  := by
  intro f
  rw [ResourcePolicy.get_deepMerge]
  split
  · apply hbase
  · apply hoverride

/-- What a policy is with the values of a request. -/
def ResourcePolicy.requested (policy : ResourcePolicy) (timeoutSeconds maxRetries : Option ℕ) :
    ResourcePolicy :=
  { policy with
    timeoutSeconds := timeoutSeconds.or policy.timeoutSeconds
    maxRetries := maxRetries.or policy.maxRetries }

/-- What a request sets in the place of a field. -/
theorem place_requestDocument (timeoutSeconds maxRetries : Option ℤ) (f : PolicyField) :
  f.place (requestDocument timeoutSeconds maxRetries)
    = some (match f with
      | .timeoutSeconds => timeoutSeconds.map (fun n => .leaf (.number n))
      | .maxRetries => maxRetries.map (fun n => .leaf (.number n))
      | _ => none)
  := by
  cases timeoutSeconds <;> cases maxRetries <;> cases f <;> rfl

/-- What a field is read as from the document that is validated: the value of the typed policy,
unless a timeout of 0 is requested. -/
theorem read_requested {base override : ResourcePolicy} (hbase : base.Valid)
    (hoverride : override.Valid) (timeoutSeconds maxRetries : Option ℕ) (f : PolicyField) :
  f.read reading (((base.modelDump false).deepMerge override.compact).deepMerge
      (requestDocument (timeoutSeconds.map Int.ofNat) (maxRetries.map Int.ofNat)))
    = if f = .timeoutSeconds ∧ timeoutSeconds = some 0 then none
      else some (((base.deepMerge override).requested timeoutSeconds maxRetries).get f)
  := by
  have hread : f.read reading ((base.modelDump false).deepMerge override.compact) = _ :=
    read_deepMerge_modelDump hbase hoverride false f
  rw [← ResourcePolicy.get_deepMerge] at hread
  obtain ⟨place, hplace, hvalue⟩ := Option.bind_eq_some_iff.mp hread
  rw [PolicyField.read, PolicyField.place_deepMerge (distinct_requestDocument _ _) hplace,
    place_requestDocument, Option.map_some, Option.bind_some]
  cases f with
  | timeoutSeconds =>
      cases timeoutSeconds with
      | none =>
          rw [if_neg (by simp)]
          exact hvalue
      | some n =>
          rcases Nat.eq_zero_or_pos n with rfl | hpos
          · rfl
          · simp [Dictionary.mergedInto, FieldKind.validate, FieldKind.read, Reading.integer, hpos,
              Nat.pos_iff_ne_zero.mp hpos, ResourcePolicy.get, ResourcePolicy.requested]
  | maxRetries =>
      cases maxRetries with
      | none =>
          rw [if_neg (by simp)]
          exact hvalue
      | some n =>
          simp [Dictionary.mergedInto, FieldKind.validate, FieldKind.read, Reading.integer,
            ResourcePolicy.get, ResourcePolicy.requested]
  | _ =>
      rw [if_neg (by simp)]
      exact hvalue

/-- The documents that are merged are valid unless a timeout of 0 is requested, and their policy
is the typed one. -/
theorem modelValidate_requested {base override : ResourcePolicy} (hbase : base.Valid)
    (hoverride : override.Valid) (timeoutSeconds maxRetries : Option ℕ) :
  modelValidate reading (((base.modelDump false).deepMerge override.compact).deepMerge
      (requestDocument (timeoutSeconds.map Int.ofNat) (maxRetries.map Int.ofNat))) = .ok policy
    ↔ timeoutSeconds ≠ some 0
      ∧ (base.deepMerge override).requested timeoutSeconds maxRetries = policy
  := by
  have hknown : knownKeys (((base.modelDump false).deepMerge override.compact).deepMerge
      (requestDocument (timeoutSeconds.map Int.ofNat) (maxRetries.map Int.ofNat))) = true := by
    apply knownKeys_deepMerge (distinct_requestDocument _ _)
    · apply knownKeys_deepMerge (override.distinct_modelDump true)
        (base.knownKeys_modelDump false) (override.knownKeys_modelDump true)
    · cases timeoutSeconds <;> cases maxRetries <;> rfl
  simp only [modelValidate_eq_ok, hknown, true_and, read_requested hbase hoverride]
  constructor
  · intro h
    constructor
    · rintro rfl
      have hnone := h .timeoutSeconds
      rw [if_pos ⟨rfl, rfl⟩] at hnone
      cases hnone
    · apply ResourcePolicy.ext_get
      intro f
      have hf := h f
      split at hf
      case isTrue => cases hf
      case isFalse => apply Option.some.inj hf
  · rintro ⟨hpositive, rfl⟩ f
    rw [if_neg]
    rintro ⟨-, hzero⟩
    apply hpositive hzero

/-- The merge of documents resolves the policy that the merge of typed policies resolves. -/
theorem effectiveOfDocuments_eq_ok_iff (hdefaults : policies.defaults.Valid)
    (hgoblin : ((policies.goblins.lookup kind).getD {}).Valid)
    (timeoutSeconds maxRetries : Option ℕ) :
  policies.effectiveOfDocuments reading floats kind (timeoutSeconds.map Int.ofNat)
      (maxRetries.map Int.ofNat) = .ok policy
    ↔ policies.effectiveFor floats kind timeoutSeconds maxRetries = .ok policy
  := by
  have hmerged := (hdefaults.deepMerge hgoblin) .timeoutSeconds
  rw [ResourcePolicySet.effectiveOfDocuments, setRequested_eq_deepMerge,
    ResourcePolicySet.effectiveFor, Except.bind_eq_ok, Except.bind_eq_ok]
  constructor
  · rintro ⟨valid, hvalid, h⟩
    obtain ⟨hpositive, rfl⟩ := (modelValidate_requested hdefaults hgoblin _ _).mp hvalid
    refine ⟨(), ?_, h⟩
    rw [raiseIf_ok, decide_eq_false_iff_not]
    cases timeoutSeconds with
    | none => apply hmerged
    | some n => apply hpositive
  · rintro ⟨⟨⟩, hpositive, h⟩
    rw [raiseIf_ok, decide_eq_false_iff_not] at hpositive
    refine ⟨_, (modelValidate_requested hdefaults hgoblin _ _).mpr ⟨?_, rfl⟩, h⟩
    rintro rfl
    apply hpositive rfl

end

/-! ### Layers -/

/-- What a kind has for a field in the layers of its own: the resources of its workload, which
inherit the defaults of the project, and the override of the operator. -/
def ownValue (reading : Reading) (file : PolicyFile) (project : ProjectSettings) (kind : String)
    (f : PolicyField) : Option f.Value :=
  ((project.workloads.lookup kind).bind (fun resources =>
      (f.explicit reading resources).or (f.explicit reading project.defaults))).or
    ((file.goblins.lookup kind).bind (f.explicit reading))

/-- What all kinds have for a field: the defaults of the project, and those of the operator. -/
def sharedValue (reading : Reading) (file : PolicyFile) (project : ProjectSettings)
    (f : PolicyField) : f.Value :=
  ((f.explicit reading project.defaults).or (f.explicit reading file.defaults)).getD f.default

/-- What the layers have for a field: the value of the request; else the value of the kind, unless
it is the default of the model; else the value that all kinds have. -/
def layeredValue (reading : Reading) (file : PolicyFile) (project : ProjectSettings)
    (kind : String) (timeoutSeconds maxRetries : Option ℤ) (f : PolicyField) : f.Value :=
  (f.explicit reading (requestDocument timeoutSeconds maxRetries)).getD
    (if (ownValue reading file project kind f).getD f.default = f.default then
      sharedValue reading file project f
    else
      (ownValue reading file project kind f).getD f.default)

section

variable {reading : Reading} {floats : Floats} {kind : String}

/-- What a merged document sets explicitly, when it is valid as well as the first one. -/
theorem PolicyField.explicit_deepMerge {f : PolicyField} {base override : Dictionary Leaf}
    (hdistinct : (Document.dict override).Distinct) {value merged : f.Value}
    (hbase : f.read reading base = some value)
    (hmerged : f.read reading (base.deepMerge override) = some merged) :
  f.explicit reading (base.deepMerge override)
    = (f.explicit reading override).or (f.explicit reading base)
  := by
  obtain ⟨place, hplace, -⟩ := Option.bind_eq_some_iff.mp hbase
  rw [PolicyField.read, place_deepMerge hdistinct hplace] at hmerged
  rw [PolicyField.explicit, PolicyField.explicit, PolicyField.explicit,
    place_deepMerge hdistinct hplace, hplace]
  cases hoverride : f.place override with
  | none => simp [hoverride] at hmerged
  | some new =>
      rw [hoverride, Option.map_some, Option.bind_some] at hmerged
      rw [Option.map_some, Option.bind_some, Option.bind_some, Option.bind_some]
      cases new with
      | none => rfl
      | some document =>
          cases document with
          | leaf leaf =>
              change f.kind.read reading leaf = some merged at hmerged
              change f.kind.read reading leaf = (f.kind.read reading leaf).or _
              rw [hmerged, Option.some_or]
          | dict entries =>
              obtain ⟨entries', hentries'⟩ := Dictionary.mergedInto_dict place entries
              rw [Option.map_some, hentries', Option.some_or] at hmerged
              cases hmerged

/-- The policies of the kinds after the workloads are layered over them. -/
theorem lookup_of_foldlM_layerWorkload {workloads : List (String × Dictionary Leaf)}
    (hnodup : (workloads.map Prod.fst).Nodup) {goblins goblins' : List (String × ResourcePolicy)}
    (h : workloads.foldlM (layerWorkload reading) goblins = .ok goblins') (kind : String) :
  (workloads.lookup kind = none ∧ goblins'.lookup kind = goblins.lookup kind)
    ∨ ∃ resources policy, workloads.lookup kind = some resources
      ∧ goblins'.lookup kind = some policy
      ∧ modelValidate reading
        (((goblins.lookup kind).getD {}).compact.deepMerge resources) = .ok policy
  := by
  induction workloads generalizing goblins with
  | nil =>
      left
      rw [List.foldlM_nil] at h
      cases h
      exact ⟨rfl, rfl⟩
  | cons workload workloads ih =>
      obtain ⟨name, resources⟩ := workload
      obtain ⟨hnot, hrestNodup⟩ := List.nodup_cons.mp hnodup
      rw [List.foldlM_cons] at h
      obtain ⟨layered, hlayered, h⟩ := Except.bind_eq_ok.mp h
      obtain ⟨policy, hpolicy, hset⟩ := Except.bind_eq_ok.mp hlayered
      obtain rfl := Except.ok.inj hset
      rw [Dictionary.lookup_cons]
      by_cases hkind : kind = name
      · subst hkind
        right
        have hnone : workloads.lookup kind = none := by
          rw [List.lookup_eq_none_iff]
          intro entry hentry
          rw [bne_iff_ne]
          intro heq
          apply hnot
          apply List.mem_map.mpr
          use entry, hentry, heq.symm
        rcases ih hrestNodup h with ⟨-, hkeep⟩ | ⟨_, _, hsome, -⟩
        · use resources, policy, if_pos rfl
          rw [hkeep, Dictionary.lookup_set_self]
          exact ⟨rfl, hpolicy⟩
        · rw [hnone] at hsome
          cases hsome
      · rw [if_neg hkind]
        have hrest := ih hrestNodup h
        rw [Dictionary.lookup_set_of_ne _ hkind] at hrest
        apply hrest

/-- The resources of a kind that has inherited the defaults. -/
theorem lookup_inherit (defaults : Dictionary Leaf) (specs : List (String × Dictionary Leaf))
    (kind : String) :
  (inherit defaults specs).lookup kind = (specs.lookup kind).map (fun own => defaults.deepMerge own)
  := by
  induction specs with
  | nil => rfl
  | cons spec specs ih =>
      obtain ⟨name, resources⟩ := spec
      rw [inherit, List.map_cons, Dictionary.lookup_cons, Dictionary.lookup_cons]
      dsimp only
      split
      · rfl
      · apply ih

/-- The policies of the kinds in documents that are validated one after the other. -/
theorem lookup_of_mapM {documents : List (String × Dictionary Leaf)}
    {goblins : List (String × ResourcePolicy)}
    (h : documents.mapM (fun (kind, document) => do
      let policy ← modelValidate reading document
      .ok (kind, policy)) = .ok goblins) (kind : String) :
  (documents.lookup kind = none ∧ goblins.lookup kind = none)
    ∨ ∃ document policy, documents.lookup kind = some document
      ∧ goblins.lookup kind = some policy ∧ modelValidate reading document = .ok policy
  := by
  induction Except.mapM_eq_ok.mp h with
  | nil =>
      left
      exact ⟨rfl, rfl⟩
  | @cons entry validated _ _ hfirst hrest ih =>
      obtain ⟨name, document⟩ := entry
      obtain ⟨policy, hpolicy, hfirst⟩ := Except.bind_eq_ok.mp hfirst
      obtain rfl := Except.ok.inj hfirst
      rw [Dictionary.lookup_cons, Dictionary.lookup_cons]
      dsimp only
      split
      · right
        exact ⟨document, policy, rfl, rfl, hpolicy⟩
      · apply ih (Except.mapM_eq_ok.mpr hrest)

/-- What a valid policy file has for all kinds, and for one kind. -/
theorem PolicyFile.get_of_modelValidate {file : PolicyFile} {policies : ResourcePolicySet}
    (h : file.modelValidate reading = .ok policies) (kind : String) :
  (policies.defaults.Valid ∧ ∀ f,
      policies.defaults.get f = (f.explicit reading file.defaults).getD f.default)
    ∧ ((policies.goblins.lookup kind).getD {}).Valid ∧ ∀ f,
      ((policies.goblins.lookup kind).getD {}).get f
        = ((file.goblins.lookup kind).bind (f.explicit reading)).getD f.default
  := by
  obtain ⟨defaults, hdefaults, h⟩ := Except.bind_eq_ok.mp h
  obtain ⟨goblins, hgoblins, h⟩ := Except.bind_eq_ok.mp h
  obtain ⟨ceilings, -, h⟩ := Except.bind_eq_ok.mp h
  obtain rfl := Except.ok.inj h
  refine ⟨⟨valid_of_modelValidate hdefaults, GoblinKing.get_of_modelValidate hdefaults⟩, ?_⟩
  dsimp only
  rcases lookup_of_mapM hgoblins kind with ⟨hnone, hgoblin⟩ | ⟨document, policy, hsome, hgoblin, hpolicy⟩
  · rw [hgoblin, hnone]
    exact ⟨ResourcePolicy.valid_empty, ResourcePolicy.get_empty⟩
  · rw [hgoblin, hsome]
    exact ⟨valid_of_modelValidate hpolicy, GoblinKing.get_of_modelValidate hpolicy⟩

/-- The ceilings of a valid policy file. -/
theorem PolicyFile.modelValidate_ceilings {file : PolicyFile} {policies : ResourcePolicySet}
    (h : file.modelValidate reading = .ok policies) :
  GoblinKing.modelValidate reading file.ceilings = .ok policies.ceilings
  := by
  obtain ⟨defaults, -, h⟩ := Except.bind_eq_ok.mp h
  obtain ⟨goblins, -, h⟩ := Except.bind_eq_ok.mp h
  obtain ⟨ceilings, hceilings, h⟩ := Except.bind_eq_ok.mp h
  obtain rfl := Except.ok.inj h
  apply hceilings

/-- The policy set of an operator without a policy file is that of an empty file. -/
theorem PolicyFile.modelValidate_empty :
  PolicyFile.modelValidate reading {} = .ok {}
  := by
  have hempty : GoblinKing.modelValidate reading [] = .ok {} := by
    rw [modelValidate_eq_ok]
    refine ⟨rfl, ?_⟩
    intro f
    cases f <;> rfl
  simp only [PolicyFile.modelValidate, hempty]
  rfl

/-! ### Loading and layering -/

variable {project loaded : ProjectSettings} {resourceCeilings : Option ResourcePolicy}
  {operator policies : ResourcePolicySet} {file : PolicyFile}

/-- Resources that are validated are a valid document. -/
theorem modelValidate_of_validateResourcePolicy {resources : Dictionary Leaf}
    (h : validateResourcePolicy reading floats resourceCeilings kind resources = .ok ()) :
  ∃ policy, modelValidate reading resources = .ok policy
  := by
  obtain ⟨policy, hpolicy, -⟩ := Except.bind_eq_ok.mp h
  use policy

/-- What the settings of a project are when they are loaded: all workloads have inherited the
defaults, and everything is valid. -/
theorem of_withEffectiveResourceDefaults
    (h : project.withEffectiveResourceDefaults reading floats resourceCeilings = .ok loaded) :
  loaded = project.inherited ∧ (∃ policy, modelValidate reading project.defaults = .ok policy)
    ∧ ∀ workload ∈ project.inherited.workloads,
      ∃ policy, modelValidate reading workload.2 = .ok policy
  := by
  obtain ⟨_, hdefaults, h⟩ := Except.bind_eq_ok.mp h
  obtain ⟨_, hgoblins, h⟩ := Except.bind_eq_ok.mp h
  obtain ⟨_, hservices, h⟩ := Except.bind_eq_ok.mp h
  obtain rfl := Except.ok.inj h
  refine ⟨rfl, modelValidate_of_validateResourcePolicy hdefaults, ?_⟩
  intro workload hworkload
  rcases List.mem_append.mp hworkload with hgoblin | hservice
  · apply modelValidate_of_validateResourcePolicy (Except.forM_eq_ok.mp hgoblins workload hgoblin)
  · apply modelValidate_of_validateResourcePolicy (Except.forM_eq_ok.mp hservices workload hservice)

/-- What the policy set of a project is. -/
theorem of_resourcePolicySet {operatorPolicies : Option ResourcePolicySet}
    (h : project.resourcePolicySet reading floats operatorPolicies = .ok (some policies)) :
  policies.ceilings = (operatorPolicies.getD {}).ceilings
    ∧ modelValidate reading
      ((operatorPolicies.getD {}).defaults.compact.deepMerge project.defaults) = .ok policies.defaults
    ∧ (project.workloads.filter (fun (_, resources) => !resources.isEmpty)).foldlM
      (layerWorkload reading) (operatorPolicies.getD {}).goblins = .ok policies.goblins
  := by
  rw [ProjectSettings.resourcePolicySet] at h
  dsimp only at h
  split at h
  case isTrue => cases h
  case isFalse =>
    obtain ⟨defaults, hdefaults, h⟩ := Except.bind_eq_ok.mp h
    obtain ⟨goblins, hgoblins, h⟩ := Except.bind_eq_ok.mp h
    obtain ⟨_, -, h⟩ := Except.bind_eq_ok.mp h
    obtain ⟨_, -, h⟩ := Except.bind_eq_ok.mp h
    obtain rfl := Option.some.inj (Except.ok.inj h)
    exact ⟨rfl, hdefaults, hgoblins⟩

/-- The value of a key among the entries that are kept. -/
theorem lookup_filter {β : Type} {entries : List (String × β)} (h : (entries.map Prod.fst).Nodup)
    (p : String × β → Bool) (key : String) :
  (entries.filter p).lookup key = (entries.lookup key).filter (fun value => p (key, value))
  := by
  induction entries with
  | nil => rfl
  | cons entry entries ih =>
      obtain ⟨k, value⟩ := entry
      obtain ⟨hnot, hentries⟩ := List.nodup_cons.mp h
      rw [List.filter_cons, Dictionary.lookup_cons]
      by_cases hk : key = k
      · subst hk
        rw [if_pos rfl, Option.filter_some]
        split
        case isTrue => rw [Dictionary.lookup_cons, if_pos rfl]
        case isFalse =>
          rw [List.lookup_eq_none_iff]
          intro entry hentry
          rw [bne_iff_ne]
          intro heq
          apply hnot
          apply List.mem_map.mpr
          use entry, (List.mem_filter.mp hentry).1, heq.symm
      · rw [if_neg hk, ← ih hentries]
        split
        case isTrue => rw [Dictionary.lookup_cons, if_neg hk]
        case isFalse => rfl

/-- The defaults of the policy set of a project are the values that all kinds have. -/
theorem get_defaults (hfile : file.modelValidate reading = .ok operator)
    (hdefaults : modelValidate reading (operator.defaults.compact.deepMerge project.defaults)
      = .ok policies.defaults) (f : PolicyField) :
  policies.defaults.get f = sharedValue reading file project f
  := by
  obtain ⟨⟨hvalid, hget⟩, -⟩ := PolicyFile.get_of_modelValidate hfile ""
  have hread := (modelValidate_eq_ok.mp hdefaults).2 f
  rw [PolicyField.read_deepMerge project.distinct
    (operator.defaults.read_modelDump true reading hvalid f) hread, hget, sharedValue]
  cases f.explicit reading project.defaults <;> rfl

/-- What a workload that has inherited the defaults sets explicitly. -/
theorem explicit_inherited {own : Dictionary Leaf} (hown : (Document.dict own).Distinct)
    (hdefaults : ∃ policy, modelValidate reading project.defaults = .ok policy)
    (hinherited : ∃ policy, modelValidate reading (project.defaults.deepMerge own) = .ok policy)
    (f : PolicyField) :
  f.explicit reading (project.defaults.deepMerge own)
    = (f.explicit reading own).or (f.explicit reading project.defaults)
  := by
  obtain ⟨_, hdefaults⟩ := hdefaults
  obtain ⟨_, hinherited⟩ := hinherited
  apply PolicyField.explicit_deepMerge hown ((modelValidate_eq_ok.mp hdefaults).2 f)
    ((modelValidate_eq_ok.mp hinherited).2 f)

/-- The policy of a kind in the policy set of a project has the values of its own layers. -/
theorem get_goblin (hfile : file.modelValidate reading = .ok operator)
    (hdefaults : ∃ policy, modelValidate reading project.defaults = .ok policy)
    (hworkloads : ∀ workload ∈ project.inherited.workloads,
      ∃ policy, modelValidate reading workload.2 = .ok policy)
    (hgoblins : (project.inherited.workloads.filter (fun (_, resources) => !resources.isEmpty)).foldlM
      (layerWorkload reading) operator.goblins = .ok policies.goblins) (kind : String) :
  ((policies.goblins.lookup kind).getD {}).Valid ∧ ∀ f,
    ((policies.goblins.lookup kind).getD {}).get f
      = (ownValue reading file project kind f).getD f.default
  := by
  obtain ⟨-, hvalid, hget⟩ := PolicyFile.get_of_modelValidate hfile kind
  have hnodup := project.inherited.unique
  have hlookup : project.inherited.workloads.lookup kind
      = (project.workloads.lookup kind).map (fun own => project.defaults.deepMerge own) := by
    rw [← lookup_inherit, inherit, ProjectSettings.workloads, ProjectSettings.workloads,
      List.map_append]
    rfl
  have hfilter := lookup_filter hnodup (fun entry => !entry.2.isEmpty) kind
  rw [← ProjectSettings.workloads, hlookup] at hfilter
  have hinherited : ∀ own, project.workloads.lookup kind = some own →
      (Document.dict own).Distinct
        ∧ ∃ policy, modelValidate reading (project.defaults.deepMerge own) = .ok policy := by
    intro own hown
    constructor
    · obtain ⟨before, after, heq, -⟩ := List.lookup_eq_some_iff.mp hown
      apply project.workloads_distinct (kind, own)
      change (kind, own) ∈ project.workloads
      rw [heq]
      simp
    · rw [hown, Option.map_some] at hlookup
      obtain ⟨before, after, heq, -⟩ := List.lookup_eq_some_iff.mp hlookup
      apply hworkloads (kind, project.defaults.deepMerge own)
      rw [heq]
      simp
  rcases lookup_of_foldlM_layerWorkload
      (hnodup.sublist (List.filter_sublist.map Prod.fst)) hgoblins kind with
    ⟨hnone, hkeep⟩ | ⟨resources, policy, hsome, hpolicy, hlayered⟩
  · rw [hkeep]
    refine ⟨hvalid, ?_⟩
    intro f
    rw [hget, ownValue]
    cases hown : project.workloads.lookup kind with
    | none => rfl
    | some own =>
        -- the workload has no resources at all
        obtain ⟨hdistinct, hmerged⟩ := hinherited own hown
        have hempty : project.defaults.deepMerge own = [] := by
          have hnone' := hfilter.symm.trans hnone
          rw [hown, Option.map_some] at hnone'
          simpa [Option.filter] using hnone'
        have hexplicit := explicit_inherited hdistinct hdefaults hmerged f
        have hnothing : f.explicit reading [] = none := by
          cases f <;> rfl
        rw [hempty, hnothing] at hexplicit
        rw [Option.bind_some, ← hexplicit, Option.none_or]
  · rw [hpolicy, Option.getD_some]
    refine ⟨valid_of_modelValidate hlayered, ?_⟩
    intro f
    have hresources := hfilter.symm.trans hsome
    rw [Option.filter_eq_some_iff, Option.map_eq_some_iff] at hresources
    obtain ⟨⟨own, hown, rfl⟩, -⟩ := hresources
    obtain ⟨hdistinct, hmerged⟩ := hinherited own hown
    have hread := (modelValidate_eq_ok.mp hlayered).2 f
    rw [PolicyField.read_deepMerge (project.distinct.deepMerge hdistinct)
      (ResourcePolicy.read_modelDump _ true reading hvalid f) hread,
      explicit_inherited hdistinct hdefaults hmerged, hget, ownValue, hown, Option.bind_some]
    cases (f.explicit reading own).or (f.explicit reading project.defaults) <;> rfl

/-! ### Ceilings -/

end

/-- Quantities of processors as exact decimals. -/
def decimals (parse : String → Except String ℚ) : Floats where
  Number := ℚ
  parse := parse
  milli := fun q => q / 1000
  above := fun q r => decide (r < q)
  text := fun q => toString q

/-- The number that is a value, if it is one. -/
def FieldKind.count : (k : FieldKind) → k.Value → Option ℕ
  | .seconds, value | .natural, value => value
  | .positive, value => value.map PNat.val
  | .text, _ | .flag, _ | .texts, _ => none

/-- The number in a field, if there is one. -/
def ResourcePolicy.count (policy : ResourcePolicy) (f : PolicyField) : Option ℕ :=
  f.kind.count (policy.get f)

/-- The fields with numbers that are compared with a ceiling. -/
def checkedFields : List PolicyField :=
  [.timeoutSeconds, .maxRetries, .pidsLimit, .artifactMaxBytes, .artifactMaxFiles, .logsMaxBytes,
    .maxRunning, .maxProjectRunning]

/-- A policy is within ceilings: its numbers, and its limits of processors and of memory. -/
structure WithinCeilings (parse : String → Except String ℚ) (ceilings policy : ResourcePolicy) :
    Prop where
  counts : ∀ f ∈ checkedFields, ∀ ceiling ∈ ceilings.count f, ∀ value ∈ policy.count f,
    value ≤ ceiling
  cpu : ∃ value ceiling : Option ℚ, parseCpu (decimals parse) policy.cpu.limit = .ok value
    ∧ parseCpu (decimals parse) ceilings.cpu.limit = .ok ceiling
    ∧ ∀ c ∈ ceiling, ∀ v ∈ value, v ≤ c
  memory : ∃ value ceiling, parseBytes policy.memory.limit = .ok value
    ∧ parseBytes ceilings.memory.limit = .ok ceiling ∧ ∀ c ∈ ceiling, ∀ v ∈ value, v ≤ c

/-- An exact decimal that is not above its ceiling. -/
theorem le_of_aboveCeiling {text : ℚ → String} {field : String} {value maxValue : Option ℚ}
    (h : aboveCeiling (fun q r => decide (r < q)) text field value maxValue = none) :
  ∀ ceiling ∈ maxValue, ∀ q ∈ value, q ≤ ceiling
  := by
  rintro ceiling rfl q rfl
  by_contra habove
  simp [aboveCeiling, not_le.mp habove] at h

/-- A policy that is not rejected is within the ceilings. -/
theorem withinCeilings_of_validateWithinCeilings {parse : String → Except String ℚ}
    {ceilings policy : ResourcePolicy} {kind : String}
    (h : validateWithinCeilings (decimals parse) ceilings kind policy = .ok ()) :
  WithinCeilings parse ceilings policy
  := by
  obtain ⟨limits, maxLimits, hlimits, h⟩ := exceededCeilings_of_validateWithinCeilings h
  obtain ⟨hcpu, hcpuCeiling, hmemory, hmemoryCeiling⟩ := parseLimits_ok hlimits
  obtain ⟨htimeout, hretries, hcpuBound, hmemoryBound, hpids, hbytes, hfiles, hlogs, hrunning,
    hproject⟩ := exceededCeilings_eq_nil.mp h
  constructor
  case counts =>
    simp only [checkedFields, List.forall_mem_cons]
    exact ⟨natAboveCeiling_eq_none.mp htimeout, natAboveCeiling_eq_none.mp hretries,
      natAboveCeiling_eq_none.mp hpids, natAboveCeiling_eq_none.mp hbytes,
      natAboveCeiling_eq_none.mp hfiles, natAboveCeiling_eq_none.mp hlogs,
      natAboveCeiling_eq_none.mp hrunning, natAboveCeiling_eq_none.mp hproject, by simp⟩
  case cpu =>
    use limits.cpu, maxLimits.cpu, hcpu, hcpuCeiling
    apply le_of_aboveCeiling hcpuBound
  case memory =>
    use limits.memory, maxLimits.memory, hmemory, hmemoryCeiling
    apply natAboveCeiling_eq_none.mp hmemoryBound

/-! ### The layers of a policy -/

section

variable {reading : Reading} {parse : String → Except String ℚ} {operator policies : ResourcePolicySet}
  {project loaded : ProjectSettings} {resourceCeilings : Option ResourcePolicy} {kind : String}
  {timeoutSeconds maxRetries : Option ℤ} {policy : ResourcePolicy}

/-- An effective policy is within the ceilings of its set, and its values are allowed. -/
theorem of_effectiveOfDocuments
    (h : policies.effectiveOfDocuments reading (decimals parse) kind timeoutSeconds maxRetries
      = .ok policy) :
  WithinCeilings parse policies.ceilings policy ∧ policy.Valid
  := by
  obtain ⟨valid, hvalid, h⟩ := Except.bind_eq_ok.mp h
  obtain ⟨_, hwithin, h⟩ := Except.bind_eq_ok.mp h
  obtain rfl := Except.ok.inj h
  exact ⟨withinCeilings_of_validateWithinCeilings hwithin, valid_of_modelValidate hvalid⟩

/-- A policy is read back from the metadata it was compacted into. -/
theorem policyOfMetadata_compact (h : policy.Valid) :
  policyOfMetadata reading (some policy.compact) = .ok (some policy)
  := by
  rw [policyOfMetadata, ResourcePolicy.compact, policy.modelValidate_modelDump true reading h]

/-- Every field of an effective policy has the value of its layers; the policy is within the
ceilings of the policy file, and it is read back from the metadata of a job. -/
theorem policy_layering (reading : Reading) (parse : String → Except String ℚ)
    (file : Option PolicyFile) (project : ProjectSettings)
    (resourceCeilings : Option ResourcePolicy) (kind : String) (timeoutSeconds maxRetries : Option ℤ)
    (h : jobPolicy reading (decimals parse) file project resourceCeilings kind timeoutSeconds
      maxRetries = .ok (some policy)) :
  (∀ f, policy.get f
      = layeredValue reading (file.getD {}) project kind timeoutSeconds maxRetries f)
    ∧ (∃ ceilings, modelValidate reading (file.getD {}).ceilings = .ok ceilings
      ∧ WithinCeilings parse ceilings policy)
    ∧ policyOfMetadata reading (some policy.compact) = .ok (some policy)
  := by
  obtain ⟨operator, hoperator, h⟩ := Except.bind_eq_ok.mp h
  obtain ⟨loaded, hloaded, h⟩ := Except.bind_eq_ok.mp h
  obtain ⟨policies?, hpolicies, h⟩ := Except.bind_eq_ok.mp h
  cases policies? with
  | none => cases h
  | some policies =>
      obtain ⟨effective, hpolicy, h⟩ := Except.bind_eq_ok.mp h
      obtain rfl := Option.some.inj (Except.ok.inj h)
      have hfile : (file.getD {}).modelValidate reading = .ok (operator.getD {}) := by
        cases file with
        | none =>
            obtain rfl := Except.ok.inj hoperator
            apply PolicyFile.modelValidate_empty
        | some file =>
            obtain ⟨validated, hvalidated, hoperator⟩ := Except.bind_eq_ok.mp hoperator
            obtain rfl := Except.ok.inj hoperator
            apply hvalidated
      obtain ⟨rfl, hdefaults, hworkloads⟩ := of_withEffectiveResourceDefaults hloaded
      obtain ⟨hceilings, hshared, hgoblins⟩ := of_resourcePolicySet hpolicies
      obtain ⟨hwithin, hvalid⟩ := of_effectiveOfDocuments hpolicy
      obtain ⟨hgoblinValid, hgoblin⟩ := get_goblin hfile hdefaults hworkloads hgoblins kind
      refine ⟨?_, ⟨_, PolicyFile.modelValidate_ceilings hfile, hceilings ▸ hwithin⟩,
        policyOfMetadata_compact hvalid⟩
      intro f
      change modelValidate reading ((operator.getD {}).defaults.compact.deepMerge project.defaults)
        = .ok policies.defaults at hshared
      rw [get_effectiveOfDocuments (valid_of_modelValidate hshared) hgoblinValid hpolicy f, hgoblin,
        get_defaults hfile hshared, layeredValue]

end

/-- Documents are read without any text as a number or a truth value. -/
def plainReading : Reading where
  integerOfText := fun _ => none
  booleanOfText := fun _ => none
  message := fun _ => "validation error for ResourcePolicy"

/-- Quantities of processors in whole numbers. -/
def wholeNumbers (text : String) : Except String ℚ :=
  (intOfDigits text.toList).map (fun n => (n : ℚ))

/-- A policy file with a temporary mount for all kinds but one, which has a timeout. -/
def mountFile : PolicyFile where
  defaults := [("filesystem", .dict [("tmpfs", .leaf (.list (some ["/tmp"])))])]
  goblins := [("report", [("timeout_seconds", .leaf (.number 30)),
    ("filesystem", .dict [("tmpfs", .leaf (.list (some [])))])])]
  ceilings := [("cpu", .dict [("request", .leaf (.text "1"))])]

/-- A project with a timeout for all of its workloads, and one workload. -/
def reportProject : ProjectSettings where
  defaults := [("timeout_seconds", .leaf (.number 60))]
  goblins := [("report", [("cpu", .dict [("request", .leaf (.text "2"))])])]
  services := []
  unique := by decide
  distinct := by
    apply Document.Distinct.dict (by decide)
    simp only [List.forall_mem_cons, List.not_mem_nil, false_imp_iff, implies_true, and_true]
    apply Document.Distinct.leaf
  workloads_distinct := by
    simp only [List.append_nil, List.forall_mem_cons, List.not_mem_nil, false_imp_iff,
      implies_true, and_true]
    apply Document.Distinct.dict (by decide)
    simp only [List.forall_mem_cons, List.not_mem_nil, false_imp_iff, implies_true, and_true]
    apply Document.Distinct.dict (by decide)
    simp only [List.forall_mem_cons, List.not_mem_nil, false_imp_iff, implies_true, and_true]
    apply Document.Distinct.leaf

/-- The policy of a job of that workload. -/
theorem jobPolicy_report :
  jobPolicy plainReading (decimals wholeNumbers) (some mountFile) reportProject none "report" none
      (some 1)
    = .ok (some
      { timeoutSeconds := some 60
        maxRetries := some 1
        cpu := ⟨some "2", none⟩
        filesystem := { tmpfs := ["/tmp"] } })
  := by
  rfl

/-- The policy of that job has the values of its layers. -/
theorem policy_layering_report :
  layeredValue plainReading mountFile reportProject "report" none (some 1) .timeoutSeconds
      = some 60
    ∧ layeredValue plainReading mountFile reportProject "report" none (some 1) .tmpfs = ["/tmp"]
  := by
  obtain ⟨h, -, -⟩ := policy_layering plainReading wholeNumbers (some mountFile) reportProject none
    "report" none (some 1) jobPolicy_report
  exact ⟨(h .timeoutSeconds).symm, (h .tmpfs).symm⟩

/-- The value of the most specific layer that sets a field explicitly. -/
def mostSpecificValue (reading : Reading) (file : PolicyFile) (project : ProjectSettings)
    (kind : String) (timeoutSeconds maxRetries : Option ℤ) (f : PolicyField) : f.Value :=
  (((((f.explicit reading (requestDocument timeoutSeconds maxRetries)).or
      ((project.workloads.lookup kind).bind (f.explicit reading))).or
      ((file.goblins.lookup kind).bind (f.explicit reading))).or
      (f.explicit reading project.defaults)).or
      (f.explicit reading file.defaults)).getD f.default

/-- The override of the operator sets no temporary mounts and a timeout of 30 seconds, and neither
is the value of the policy, whose request for processors is above the ceiling. -/
theorem override_not_kept :
  ∃ policy ceilings, jobPolicy plainReading (decimals wholeNumbers) (some mountFile) reportProject
      none "report" none (some 1) = .ok (some policy)
    ∧ policy.get .tmpfs
      ≠ mostSpecificValue plainReading mountFile reportProject "report" none (some 1) .tmpfs
    ∧ policy.get .timeoutSeconds
      ≠ mostSpecificValue plainReading mountFile reportProject "report" none (some 1) .timeoutSeconds
    ∧ modelValidate plainReading mountFile.ceilings = .ok ceilings
    ∧ parseCpu (decimals wholeNumbers) policy.cpu.request = .ok (some (2 : ℚ))
    ∧ parseCpu (decimals wholeNumbers) ceilings.cpu.request = .ok (some (1 : ℚ))
  := by
  refine ⟨_, { cpu := ⟨some "1", none⟩ }, jobPolicy_report, ?_, ?_, rfl, ?_, ?_⟩
  · decide
  · decide
  · rfl
  · rfl

end GoblinKing
