import GoblinKing.Kubernetes.ArtifactCopies
import GoblinKing.Kubernetes.Manifest
import GoblinKing.Kubernetes.Names
import GoblinKing.Kubernetes.Restricted
import GoblinKing.Library.JsonTexts
import GoblinKing.Scheduler.Gate
import Mathlib.Data.Set.Function

/-!
# Validation identities

The identities that a validation is stored under: the hash of the source of a function, the hash that
binds it to an image, and the identity of an image under the settings of the Kubernetes runtime. The
serialisation of a contract determines it. But the parts of an identity are joined by separators that
the parts may contain, so two workloads have one identity when the parts of the one are those of the
other cut at another separator.
-/

open Utf8

namespace GoblinKing

/-! ### Contracts as JSON -/

/-- A string. -/
def jsonString (text : String) : Json :=
  .str (ofChars text.toList)

/-- A dictionary. -/
def jsonObject (fields : List (String × Json)) : Json :=
  .obj (fields.map (fun field => (ofChars field.1.toList, field.2)))

/-- A field of a dictionary where it has a value. -/
def jsonField (key : String) (value : Option Json) : List (String × Json) :=
  value.toList.map (Prod.mk key)

/-- Requests or limits of a container. -/
def ResourceList.json (resources : ResourceList) : Json :=
  jsonObject (jsonField "cpu" (resources.cpu.map jsonString)
    ++ jsonField "memory" (resources.memory.map jsonString))

/-- The resources of a container. -/
def Resources.json (resources : Resources) : Json :=
  jsonObject [("requests", resources.requests.json), ("limits", resources.limits.json)]

/-- A profile of system calls. -/
def seccompProfileJson (profile : String) : Json :=
  jsonObject [("type", jsonString profile)]

/-- The security context of a Pod. -/
def PodSecurityContext.json (context : PodSecurityContext) : Json :=
  jsonObject [
    ("runAsNonRoot", .bool context.runAsNonRoot),
    ("runAsUser", .int context.runAsUser),
    ("runAsGroup", .int context.runAsGroup),
    ("fsGroup", .int context.fsGroup),
    ("fsGroupChangePolicy", jsonString context.fsGroupChangePolicy),
    ("seccompProfile", seccompProfileJson context.seccompProfile)]

/-- The security context of a container. -/
def ContainerSecurityContext.json (context : ContainerSecurityContext) : Json :=
  jsonObject (
    jsonField "allowPrivilegeEscalation" (context.allowPrivilegeEscalation.map .bool)
    ++ jsonField "capabilities" (if context.capabilitiesDrop.isEmpty then none else
      some (jsonObject [("drop", .arr (context.capabilitiesDrop.map jsonString))]))
    ++ jsonField "privileged" (context.privileged.map .bool)
    ++ jsonField "readOnlyRootFilesystem" (context.readOnlyRootFilesystem.map .bool)
    ++ jsonField "runAsNonRoot" (context.runAsNonRoot.map .bool)
    ++ jsonField "runAsUser" (context.runAsUser.map (fun n => .int n))
    ++ jsonField "runAsGroup" (context.runAsGroup.map (fun n => .int n))
    ++ jsonField "seccompProfile" (context.seccompProfile.map seccompProfileJson))

/-- The value of a profile. -/
def WorkloadSecurityProfile.text : WorkloadSecurityProfile → String
  | .legacy => "legacy"
  | .restrictedV1 => "restricted-v1"

variable {library : KubernetesLibrary}

/-- The effective versioned security contract for validation proof. -/
def KubernetesRuntimeSettings.effectiveWorkloadSecurity (settings : KubernetesRuntimeSettings library)
    (kind : Option String) : Json :=
  match settings.workloadSecurityProfile with
  | .legacy => jsonObject [("profile", jsonString "legacy")]
  | .restrictedV1 =>
      let serviceAccountName := settings.restrictedWorkload.serviceAccountFor kind
      jsonObject [
        ("profile", jsonString settings.workloadSecurityProfile.text),
        ("automount_service_account_token", .bool false),
        ("service_account_name", (serviceAccountName.map jsonString).getD .null),
        ("worker_service_account_token_projected", .bool serviceAccountName.isSome),
        ("pod_security_context", settings.restrictedWorkload.podSecurityContext.json),
        ("container_security_context", settings.restrictedWorkload.containerSecurityContext.json),
        ("worker_resources", settings.restrictedWorkload.workerResources.manifest.json),
        ("result_forwarder_resources",
          settings.restrictedWorkload.resultForwarderResources.manifest.json)]

/-- The normalized settings that change the retained workload boundary. -/
def KubernetesArtifactRetention.identityContract (retention : KubernetesArtifactRetention) : Json :=
  jsonObject [
    ("claim_name", jsonString retention.claimName),
    ("volume_subdirectory", jsonString (purePosixText retention.volumeSubdirectory)),
    ("uri_root", jsonString (purePosixText retention.uriRoot)),
    ("volume_mount_path", jsonString (purePosixText retention.volumeMountPath))]

/-! ### Identities -/

/-- `contract` in `validation_image_identity` -/
def KubernetesRuntimeSettings.contract (settings : KubernetesRuntimeSettings library)
    (kind : Option String) : Json :=
  match settings.artifactRetention with
  | none => settings.effectiveWorkloadSecurity kind
  | some retention =>
      jsonObject [
        ("workload_security", settings.effectiveWorkloadSecurity kind),
        ("artifact_retention", retention.identityContract)]

/-- `payload` in `validation_image_identity` -/
def KubernetesRuntimeSettings.payload (settings : KubernetesRuntimeSettings library)
    (kind : Option String) : String :=
  String.ofList (toChars (Json.write Json.escapeAscii (settings.contract kind).sortKeys))

/-- The settings have no contract that an identity is bound to. -/
def KubernetesRuntimeSettings.unbound (settings : KubernetesRuntimeSettings library) : Bool :=
  decide (settings.workloadSecurityProfile = .legacy) && settings.artifactRetention.isNone

/-- Bind restricted validation proof to its effective security contract. -/
def KubernetesRuntimeSettings.validationImageIdentity (sha256 : String → Digest)
    (settings : KubernetesRuntimeSettings library) (image : String) (kind : Option String) : String :=
  let base := "kubernetes:" ++ image
  if settings.unbound then
    base
  else
    base ++ ":workload-security:" ++ (sha256 (settings.payload kind)).text


/-! ### The serialisation of a contract determines it -/

/-- The strings of a value have no surrogates. -/
abbrev Serialisable (value : Json) : Prop :=
  Json.Exact (fun c => ¬ IsSurrogate c) value

theorem serialisable_string (text : String) :
  Serialisable (jsonString text)
  := .str (encodable_ofChars text.toList)

theorem serialisable_object {fields : List (String × Json)}
    (h : ∀ field ∈ fields, Serialisable field.2) :
  Serialisable (jsonObject fields)
  := by
  apply Json.Exact.obj
  · intro field hfield
    obtain ⟨field, -, rfl⟩ := List.mem_map.mp hfield
    exact encodable_ofChars field.1.toList
  · intro field hfield
    obtain ⟨field, hmem, rfl⟩ := List.mem_map.mp hfield
    exact h field hmem

theorem serialisable_field {key : String} {value : Option Json} (h : ∀ v ∈ value, Serialisable v) :
  ∀ field ∈ jsonField key value, Serialisable field.2
  := by
  intro field hfield
  obtain ⟨v, hv, rfl⟩ := List.mem_map.mp hfield
  exact h v (Option.mem_toList.mp hv)

theorem serialisable_seccompProfile (profile : String) :
  Serialisable (seccompProfileJson profile)
  := serialisable_object (List.forall_mem_singleton.mpr (serialisable_string profile))

/-- What is written for a value that is there. -/
theorem serialisable_map {α : Type} {value : Option α} {json : α → Json}
    (h : ∀ a, Serialisable (json a)) :
  ∀ v ∈ value.map json, Serialisable v
  := by
  intro v hv
  obtain ⟨a, -, rfl⟩ := Option.mem_map.mp hv
  exact h a

theorem ResourceList.serialisable (resources : ResourceList) :
  Serialisable resources.json
  := by
  apply serialisable_object
  have hstring : ∀ key : String, ∀ value : Option String,
      ∀ field ∈ jsonField key (value.map jsonString), Serialisable field.2 :=
    fun _ _ => serialisable_field (serialisable_map serialisable_string)
  exact List.forall_mem_append.mpr ⟨hstring _ _, hstring _ _⟩

theorem Resources.serialisable (resources : Resources) :
  Serialisable resources.json
  := by
  apply serialisable_object
  simp only [List.forall_mem_cons, List.not_mem_nil, false_imp_iff, implies_true, and_true]
  exact ⟨resources.requests.serialisable, resources.limits.serialisable⟩

theorem PodSecurityContext.serialisable (context : PodSecurityContext) :
  Serialisable context.json
  := by
  apply serialisable_object
  simp only [List.forall_mem_cons, List.not_mem_nil, false_imp_iff, implies_true, and_true]
  exact ⟨.bool _, .int _, .int _, .int _, serialisable_string _, serialisable_seccompProfile _⟩

theorem ContainerSecurityContext.serialisable (context : ContainerSecurityContext) :
  Serialisable context.json
  := by
  apply serialisable_object
  simp only [List.forall_mem_append]
  refine ⟨⟨⟨⟨⟨⟨⟨?_, ?_⟩, ?_⟩, ?_⟩, ?_⟩, ?_⟩, ?_⟩, ?_⟩
  case refine_2 =>
    apply serialisable_field
    intro v hv
    split at hv
    · cases hv
    · obtain rfl := Option.some.inj hv
      have hdrop : Serialisable (.arr (context.capabilitiesDrop.map jsonString)) := by
        apply Json.Exact.arr
        intro item hitem
        obtain ⟨capability, -, rfl⟩ := List.mem_map.mp hitem
        exact serialisable_string capability
      exact serialisable_object (List.forall_mem_singleton.mpr hdrop)
  case refine_8 => exact serialisable_field (serialisable_map serialisable_seccompProfile)
  case refine_6 | refine_7 => exact serialisable_field (serialisable_map (fun _ => .int _))
  all_goals exact serialisable_field (serialisable_map .bool)

theorem KubernetesRuntimeSettings.serialisable_security (settings : KubernetesRuntimeSettings library)
    (kind : Option String) :
  Serialisable (settings.effectiveWorkloadSecurity kind)
  := by
  rw [effectiveWorkloadSecurity]
  split
  · exact serialisable_object (List.forall_mem_singleton.mpr (serialisable_string "legacy"))
  · apply serialisable_object
    simp only [List.forall_mem_cons, List.not_mem_nil, false_imp_iff, implies_true, and_true]
    have hname : Serialisable
        (((settings.restrictedWorkload.serviceAccountFor kind).map jsonString).getD .null) := by
      cases settings.restrictedWorkload.serviceAccountFor kind with
      | none => exact .null
      | some name => exact serialisable_string name
    exact ⟨serialisable_string _, .bool _, hname, .bool _, PodSecurityContext.serialisable _,
      ContainerSecurityContext.serialisable _, Resources.serialisable _, Resources.serialisable _⟩

theorem KubernetesArtifactRetention.serialisable (retention : KubernetesArtifactRetention) :
  Serialisable retention.identityContract
  := by
  apply serialisable_object
  simp only [List.forall_mem_cons, List.not_mem_nil, false_imp_iff, implies_true, and_true]
  exact ⟨serialisable_string _, serialisable_string _, serialisable_string _, serialisable_string _⟩

theorem KubernetesRuntimeSettings.serialisable (settings : KubernetesRuntimeSettings library)
    (kind : Option String) :
  Serialisable (settings.contract kind)
  := by
  rw [contract]
  split
  · exact settings.serialisable_security kind
  case h_2 retention _ =>
    apply serialisable_object
    simp only [List.forall_mem_cons, List.not_mem_nil, false_imp_iff, implies_true, and_true]
    exact ⟨settings.serialisable_security kind, retention.serialisable⟩

/-- Settings with the same payload have the same contract. -/
theorem same_contract {settings settings' : KubernetesRuntimeSettings library}
    {kind kind' : Option String} (h : settings.payload kind = settings'.payload kind') :
  Json.Same (settings.contract kind) (settings'.contract kind')
  := by
  have hencodable : ∀ value : Json, Utf8.Encodable (Json.write Json.escapeAscii value) :=
    fun value c hc => (Json.isPrintable_write value c hc).not_isSurrogate
  have hchars := congrArg ofChars (String.ofList_injective h)
  rw [ofChars_toChars (hencodable _), ofChars_toChars (hencodable _)] at hchars
  exact (settings.serialisable kind).same_of_write_eq Json.separates_escapeAscii
    (settings'.serialisable kind') hchars

/-- The same dictionaries have the same fields. -/
theorem exists_field_of_same {fields fields' : List (String × Json)}
    (h : Json.Same (jsonObject fields) (jsonObject fields')) {key : String} {value : Json}
    (hfield : (key, value) ∈ fields) :
  ∃ value', (key, value') ∈ fields' ∧ Json.Same value value'
  := by
  have hmem := List.mem_map_of_mem (f := fun field : String × Json => (ofChars field.1.toList, field.2))
    hfield
  obtain ⟨value', hvalue', hsame⟩ := h.exists_field hmem
  obtain ⟨field, hfield', heq⟩ := List.mem_map.mp hvalue'
  obtain ⟨hkey, rfl⟩ := Prod.mk.inj heq
  have hchars := congrArg toChars hkey
  rw [toChars_ofChars, toChars_ofChars] at hchars
  obtain rfl := String.toList_injective hchars
  exact ⟨field.2, hfield', hsame⟩

/-- The security contract has a profile. -/
theorem exists_profile (settings : KubernetesRuntimeSettings library) (kind : Option String) :
  ∃ fields profile, settings.effectiveWorkloadSecurity kind = jsonObject fields
    ∧ ("profile", profile) ∈ fields
  := by
  rw [KubernetesRuntimeSettings.effectiveWorkloadSecurity]
  split
  · exact ⟨_, _, rfl, List.mem_cons_self⟩
  · exact ⟨_, _, rfl, List.mem_cons_self⟩

/-- A security contract is not the same as one with a retention contract. -/
theorem not_same_bound (settings : KubernetesRuntimeSettings library) (kind : Option String)
    (security retention : Json) :
  ¬ Json.Same (settings.effectiveWorkloadSecurity kind)
    (jsonObject [("workload_security", security), ("artifact_retention", retention)])
  := by
  intro h
  obtain ⟨fields, profile, hfields, hprofile⟩ := exists_profile settings kind
  rw [hfields] at h
  obtain ⟨value, hvalue, -⟩ := exists_field_of_same h hprofile
  simp at hvalue

/-- The same contracts have the same parts. -/
theorem same_parts {settings settings' : KubernetesRuntimeSettings library}
    {kind kind' : Option String}
    (h : Json.Same (settings.contract kind) (settings'.contract kind')) :
  Json.Same (settings.effectiveWorkloadSecurity kind) (settings'.effectiveWorkloadSecurity kind')
    ∧ Option.Rel Json.Same
      (settings.artifactRetention.map KubernetesArtifactRetention.identityContract)
      (settings'.artifactRetention.map KubernetesArtifactRetention.identityContract)
  := by
  rw [KubernetesRuntimeSettings.contract, KubernetesRuntimeSettings.contract] at h
  cases hretention : settings.artifactRetention with
  | none =>
      cases hretention' : settings'.artifactRetention with
      | none =>
          rw [hretention, hretention'] at h
          exact ⟨h, .none⟩
      | some retention' =>
          rw [hretention, hretention'] at h
          exact absurd h (not_same_bound settings kind _ _)
  | some retention =>
      cases hretention' : settings'.artifactRetention with
      | none =>
          rw [hretention, hretention'] at h
          exact absurd h.symm (not_same_bound settings' kind' _ _)
      | some retention' =>
          rw [hretention, hretention'] at h
          obtain ⟨security, hsecurity, hsame⟩ := exists_field_of_same h List.mem_cons_self
          obtain ⟨contract, hcontract, hsame'⟩ :=
            exists_field_of_same h (List.mem_cons_of_mem _ List.mem_cons_self)
          obtain rfl : security = settings'.effectiveWorkloadSecurity kind' := by
            simpa using hsecurity
          obtain rfl : contract = retention'.identityContract := by
            simpa using hcontract
          exact ⟨hsame, .some hsame'⟩

/-! ### Parts that are joined -/

/-- The first parts are the second ones, cut at an earlier separator. -/
def Recut (a b c d : String) : Prop :=
  ∃ x, c = a ++ "\x00" ++ x ∧ b = x ++ "\x00" ++ d

theorem Recut.ne {a b c d : String} (h : Recut a b c d) :
  c ≠ a
  := by
  obtain ⟨x, rfl, -⟩ := h
  intro heq
  have hlength := congrArg String.length heq
  simp only [String.length_append] at hlength
  have hseparator : "\x00".length = 1 := rfl
  omega

/-- Where the first part of joined parts is not longer, it is the first part of the others or is cut
earlier. -/
theorem recut_of_append {a b c d : String} {as : List Char} (hfront : c.toList = a.toList ++ as)
    (hback : '\x00' :: b.toList = as ++ '\x00' :: d.toList) :
  (a = c ∧ b = d) ∨ Recut a b c d
  := by
  cases as with
  | nil =>
      left
      constructor
      · apply String.toList_injective
        rw [hfront, List.append_nil]
      · exact String.toList_injective (List.tail_eq_of_cons_eq hback)
  | cons e as =>
      obtain rfl := List.head_eq_of_cons_eq hback
      right
      use String.ofList as
      constructor
      · apply String.toList_injective
        simp [hfront]
      · apply String.toList_injective
        simp [List.tail_eq_of_cons_eq hback]

/-- Joined parts are equal when the parts are, or when the ones are the others cut elsewhere. -/
theorem joined_eq_iff {a b c d : String} :
  a ++ "\x00" ++ b = c ++ "\x00" ++ d ↔ (a = c ∧ b = d) ∨ Recut a b c d ∨ Recut c d a b
  := by
  constructor
  · intro h
    have hlist : a.toList ++ '\x00' :: b.toList = c.toList ++ '\x00' :: d.toList := by
      simpa using congrArg String.toList h
    rcases List.append_eq_append_iff.mp hlist with ⟨as, hfront, hback⟩ | ⟨as, hfront, hback⟩
    · rcases recut_of_append hfront hback with heq | hrecut
      · exact .inl heq
      · exact .inr (.inl hrecut)
    · rcases recut_of_append hfront hback with ⟨rfl, rfl⟩ | hrecut
      · exact .inl ⟨rfl, rfl⟩
      · exact .inr (.inr hrecut)
  · rintro (⟨rfl, rfl⟩ | ⟨x, rfl, rfl⟩ | ⟨x, rfl, rfl⟩)
    · rfl
    · simp only [String.append_assoc]
    · simp only [String.append_assoc]

/-! ### The identities of sources and of images -/

/-- The hash in hexadecimal digits. -/
def hexdigest (sha256 : String → Digest) (text : String) : String :=
  (sha256 text).text

/-- A hash that is injective on some texts has different digits for different ones of them. -/
theorem hexdigest_eq_iff {sha256 : String → Digest} {texts : Set String}
    (h : Set.InjOn sha256 texts) {a b : String} (ha : a ∈ texts) (hb : b ∈ texts) :
  hexdigest sha256 a = hexdigest sha256 b ↔ a = b
  := by
  constructor
  · intro heq
    apply h ha hb
    cases hdigest : sha256 a
    cases hdigest' : sha256 b
    simpa [hexdigest, hdigest, hdigest'] using heq
  · rintro rfl
    rfl

/-- An identity of an image that counts as absent, or that stands for the absent ones. -/
def Unresolved (imageIdentity : Option String) : Prop :=
  imageIdentity = none ∨ imageIdentity = some "" ∨ imageIdentity = some "<unresolved-runner-image>"

/-- `image_part` in `notebook_validation_identity` -/
def imagePart (imageIdentity : Option String) : String :=
  (truthy imageIdentity).getD "<unresolved-runner-image>"

/-- The part for an image determines its identity, except for those that are not resolved. -/
theorem imagePart_eq_iff {a b : Option String} :
  imagePart a = imagePart b ↔ a = b ∨ (Unresolved a ∧ Unresolved b)
  := by
  have hresolved : ∀ a, ¬ Unresolved a → a = some (imagePart a) := by
    intro a ha
    cases a with
    | none => exact absurd (.inl rfl) ha
    | some text =>
        have htext : text ≠ "" := by
          rintro rfl
          exact ha (.inr (.inl rfl))
        have htruthy : truthy (some text) = some text := by
          rw [truthy, Option.filter, if_pos (by simpa using htext)]
        rw [imagePart, htruthy, Option.getD_some]
  have hunresolved : ∀ a, Unresolved a ↔ imagePart a = "<unresolved-runner-image>" := by
    intro a
    constructor
    · rintro (rfl | rfl | rfl) <;> rfl
    · intro h
      by_contra ha
      apply ha
      rw [hresolved a ha, h]
      exact .inr (.inr rfl)
  constructor
  · intro h
    by_cases ha : Unresolved a
    · exact .inr ⟨ha, (hunresolved b).mpr (h ▸ (hunresolved a).mp ha)⟩
    · left
      have hb : ¬ Unresolved b := by
        rw [hunresolved, ← h, ← hunresolved]
        exact ha
      rw [hresolved a ha, hresolved b hb, h]
  · rintro (rfl | ⟨ha, hb⟩)
    · rfl
    · rw [(hunresolved a).mp ha, (hunresolved b).mp hb]

/-! ### The identities of images in Kubernetes -/

/-- What an identity in Kubernetes is made for. -/
structure IdentifiedWorkload (library : KubernetesLibrary) where
  settings : KubernetesRuntimeSettings library
  image : String
  kind : Option String

namespace IdentifiedWorkload

variable (sha256 : String → Digest) (w w' : IdentifiedWorkload library)

/-- The identity of a workload. -/
def identity : String :=
  w.settings.validationImageIdentity sha256 w.image w.kind

/-- The workloads have the same image and the same contracts. -/
structure SameContent : Prop where
  image : w.image = w'.image
  security : Json.Same (w.settings.effectiveWorkloadSecurity w.kind)
    (w'.settings.effectiveWorkloadSecurity w'.kind)
  retention : Option.Rel Json.Same
    (w.settings.artifactRetention.map KubernetesArtifactRetention.identityContract)
    (w'.settings.artifactRetention.map KubernetesArtifactRetention.identityContract)

/-- The first workload has no contract, and its image is the one of the second with the digest of a
contract behind it. -/
structure Imitates : Prop where
  unbound : w.settings.unbound = true
  bound : w'.settings.unbound = false
  image : w.image = w'.image ++ ":workload-security:" ++ hexdigest sha256 (w'.settings.payload w'.kind)

variable {sha256 w w'}

theorem length_hexdigest (text : String) :
  (hexdigest sha256 text).length = 64
  := by
  have hvalid := (sha256 text).valid
  rw [isSha256, Bool.and_eq_true, decide_eq_true_iff] at hvalid
  exact hvalid.1

/-- Workloads without contracts have the same ones. -/
theorem same_of_unbound (h : w.settings.unbound = true) (h' : w'.settings.unbound = true)
    (himage : w.image = w'.image) :
  SameContent w w'
  := by
  rw [KubernetesRuntimeSettings.unbound, Bool.and_eq_true, decide_eq_true_iff,
    Option.isNone_iff_eq_none] at h h'
  constructor
  · exact himage
  · rw [KubernetesRuntimeSettings.effectiveWorkloadSecurity, h.1,
      KubernetesRuntimeSettings.effectiveWorkloadSecurity, h'.1]
    rfl
  · rw [h.2, h'.2]
    exact .none

/-- What stands behind the image in an identity. -/
def boundPart (sha256 : String → Digest) (w : IdentifiedWorkload library) : String :=
  if w.settings.unbound then ""
  else ":workload-security:" ++ hexdigest sha256 (w.settings.payload w.kind)

/-- Identities are equal when the images and what stands behind them are. -/
theorem identity_eq_iff :
  identity sha256 w = identity sha256 w'
    ↔ w.image ++ boundPart sha256 w = w'.image ++ boundPart sha256 w'
  := by
  have hidentity : ∀ w : IdentifiedWorkload library,
      identity sha256 w = "kubernetes:" ++ (w.image ++ boundPart sha256 w) := by
    intro w
    rw [identity, KubernetesRuntimeSettings.validationImageIdentity, boundPart]
    split
    · rw [String.append_empty]
    · simp only [String.append_assoc, hexdigest]
  rw [hidentity, hidentity, String.append_right_inj]

/-- A workload that imitates another one has its identity and another image. -/
theorem Imitates.clash (h : Imitates sha256 w w') :
  identity sha256 w = identity sha256 w' ∧ w.image ≠ w'.image
  := by
  constructor
  · rw [identity_eq_iff, boundPart, if_pos h.unbound, boundPart, if_neg (by simp [h.bound]), h.image,
      String.append_empty, String.append_assoc]
  · intro heq
    have hlength := congrArg String.length (h.image.symm.trans heq)
    simp only [String.length_append, length_hexdigest] at hlength
    omega

/-- Digests at the end of a text can be split off. -/
theorem append_hexdigest_inj {a b text text' : String}
    (h : a ++ hexdigest sha256 text = b ++ hexdigest sha256 text') :
  a = b ∧ hexdigest sha256 text = hexdigest sha256 text'
  := by
  have hlist := congrArg String.toList h
  rw [String.toList_append, String.toList_append] at hlist
  have hlength : (hexdigest sha256 text).toList.length = (hexdigest sha256 text').toList.length := by
    rw [String.length_toList, length_hexdigest, String.length_toList, length_hexdigest]
  obtain ⟨hfront, hback⟩ := List.append_inj' hlist hlength
  exact ⟨String.toList_injective hfront, String.toList_injective hback⟩

/-- Workloads with the same identity have the same content, unless the one imitates the other. -/
theorem same_or_imitates {texts : Set String} (hsha : Set.InjOn sha256 texts)
    (hw : w.settings.payload w.kind ∈ texts) (hw' : w'.settings.payload w'.kind ∈ texts)
    (h : identity sha256 w = identity sha256 w') :
  SameContent w w' ∨ Imitates sha256 w w' ∨ Imitates sha256 w' w
  := by
  rw [identity_eq_iff, boundPart, boundPart] at h
  cases hunbound : w.settings.unbound with
  | true =>
      cases hunbound' : w'.settings.unbound with
      | true =>
          rw [if_pos hunbound, if_pos hunbound', String.append_empty, String.append_empty] at h
          exact .inl (same_of_unbound hunbound hunbound' h)
      | false =>
          rw [if_pos hunbound, if_neg (by simp [hunbound']), String.append_empty,
            ← String.append_assoc] at h
          exact .inr (.inl ⟨hunbound, hunbound', h⟩)
  | false =>
      cases hunbound' : w'.settings.unbound with
      | true =>
          rw [if_neg (by simp [hunbound]), if_pos hunbound', String.append_empty,
            ← String.append_assoc] at h
          exact .inr (.inr ⟨hunbound', hunbound, h.symm⟩)
      | false =>
          rw [if_neg (by simp [hunbound]), if_neg (by simp [hunbound']), ← String.append_assoc,
            ← String.append_assoc] at h
          obtain ⟨hfront, hdigest⟩ := append_hexdigest_inj h
          have hpayload := (hexdigest_eq_iff hsha hw hw').mp hdigest
          obtain ⟨hsecurity, hretention⟩ := same_parts (same_contract hpayload)
          exact .inl ⟨(String.append_left_inj _).mp hfront, hsecurity, hretention⟩

end IdentifiedWorkload

/-! ### What an identity determines -/

section Determined

variable {sha256 : String → Digest} {texts : Set String}

/-- The hash of a source determines the source and the name of the function, unless they are cut at
another separator. -/
theorem notebookSourceHash_determines (hsha : Set.InjOn sha256 texts) {settings : ApiSettings}
    (hsettings : settings.sha256 = hexdigest sha256) {s f s' f' : String}
    (hf : f ++ "\x00" ++ s ∈ texts) (hf' : f' ++ "\x00" ++ s' ∈ texts) :
  (notebookSourceHash settings s f = notebookSourceHash settings s' f' → s = s' ∧ f = f')
    ↔ ¬ (Recut f s f' s' ∨ Recut f' s' f s)
  := by
  rw [notebookSourceHash, notebookSourceHash, hsettings, hexdigest_eq_iff hsha hf hf', joined_eq_iff]
  constructor
  · rintro h (hrecut | hrecut)
    · exact hrecut.ne (h (.inr (.inl hrecut))).2.symm
    · exact hrecut.ne (h (.inr (.inr hrecut))).2
  · rintro h (⟨rfl, rfl⟩ | hrecut)
    · exact ⟨rfl, rfl⟩
    · exact absurd hrecut h

/-- The identity that binds a source to an image determines both, unless they are cut at another
separator or the images are not resolved. -/
theorem notebookValidationIdentity_determines (hsha : Set.InjOn sha256 texts)
    {a b : Option String} {h h' : String} (ha : imagePart a ++ "\x00" ++ h ∈ texts)
    (hb : imagePart b ++ "\x00" ++ h' ∈ texts) :
  (notebookValidationIdentity (hexdigest sha256) a h = notebookValidationIdentity (hexdigest sha256) b h'
      → a = b ∧ h = h')
    ↔ ¬ (Recut (imagePart a) h (imagePart b) h' ∨ Recut (imagePart b) h' (imagePart a) h
      ∨ (h = h' ∧ a ≠ b ∧ Unresolved a ∧ Unresolved b))
  := by
  have hidentity : notebookValidationIdentity (hexdigest sha256) a h
      = notebookValidationIdentity (hexdigest sha256) b h'
      ↔ (imagePart a = imagePart b ∧ h = h') ∨ Recut (imagePart a) h (imagePart b) h'
        ∨ Recut (imagePart b) h' (imagePart a) h :=
    (hexdigest_eq_iff hsha ha hb).trans joined_eq_iff
  rw [hidentity, imagePart_eq_iff]
  constructor
  · rintro hdetermined (hrecut | hrecut | ⟨hhash, hne, hunresolved⟩)
    · exact hrecut.ne (congrArg imagePart (hdetermined (.inr (.inl hrecut))).1).symm
    · exact hrecut.ne (congrArg imagePart (hdetermined (.inr (.inr hrecut))).1)
    · exact hne (hdetermined (.inl ⟨.inr hunresolved, hhash⟩)).1
  · rintro hnot (⟨heq | hunresolved, hhash⟩ | hrecut)
    · exact ⟨heq, hhash⟩
    · by_cases heq : a = b
      · exact ⟨heq, hhash⟩
      · exact absurd (.inr (.inr ⟨hhash, heq, hunresolved⟩)) hnot
    · rcases hrecut with hrecut | hrecut
      · exact absurd (.inl hrecut) hnot
      · exact absurd (.inr (.inl hrecut)) hnot

/-- The identity of an image determines the image and the contracts, unless the one workload imitates
the other. -/
theorem validationImageIdentity_determines (hsha : Set.InjOn sha256 texts)
    {w w' : IdentifiedWorkload library} (hw : w.settings.payload w.kind ∈ texts)
    (hw' : w'.settings.payload w'.kind ∈ texts) :
  (w.identity sha256 = w'.identity sha256 → w.SameContent w')
    ↔ ¬ (w.Imitates sha256 w' ∨ w'.Imitates sha256 w)
  := by
  constructor
  · rintro h (himitates | himitates)
    · exact himitates.clash.2 (h himitates.clash.1).image
    · exact himitates.clash.2 (h himitates.clash.1.symm).image.symm
  · intro h hidentity
    rcases IdentifiedWorkload.same_or_imitates hsha hw hw' hidentity with hsame | himitates
    · exact hsame
    · exact absurd himitates h

end Determined

/-- With a hash that is injective on the texts that are hashed, an identity determines what it is made
for, unless the parts of the one are those of the other cut at another separator, two identities of
images are not resolved, or the image of a workload without a contract ends with the digest of the
contract of the other. -/
theorem identities_determine (sha256 : String → Digest) (texts : Set String)
    (hsha : Set.InjOn sha256 texts) :
  (∀ settings : ApiSettings, settings.sha256 = hexdigest sha256 →
    ∀ source functionName source' functionName',
    functionName ++ "\x00" ++ source ∈ texts → functionName' ++ "\x00" ++ source' ∈ texts →
    ((notebookSourceHash settings source functionName
        = notebookSourceHash settings source' functionName'
      → source = source' ∧ functionName = functionName')
    ↔ ¬ (Recut functionName source functionName' source'
      ∨ Recut functionName' source' functionName source)))
  ∧ (∀ imageIdentity imageIdentity' sourceHash sourceHash',
    imagePart imageIdentity ++ "\x00" ++ sourceHash ∈ texts →
    imagePart imageIdentity' ++ "\x00" ++ sourceHash' ∈ texts →
    ((notebookValidationIdentity (hexdigest sha256) imageIdentity sourceHash
        = notebookValidationIdentity (hexdigest sha256) imageIdentity' sourceHash'
      → imageIdentity = imageIdentity' ∧ sourceHash = sourceHash')
    ↔ ¬ (Recut (imagePart imageIdentity) sourceHash (imagePart imageIdentity') sourceHash'
      ∨ Recut (imagePart imageIdentity') sourceHash' (imagePart imageIdentity) sourceHash
      ∨ (sourceHash = sourceHash' ∧ imageIdentity ≠ imageIdentity' ∧ Unresolved imageIdentity
        ∧ Unresolved imageIdentity'))))
  ∧ ∀ (library : KubernetesLibrary) (w w' : IdentifiedWorkload library),
    w.settings.payload w.kind ∈ texts → w'.settings.payload w'.kind ∈ texts →
    ((w.identity sha256 = w'.identity sha256 → w.SameContent w')
    ↔ ¬ (w.Imitates sha256 w' ∨ w'.Imitates sha256 w))
  := by
  constructor
  · intro settings hsettings source functionName source' functionName'
    exact notebookSourceHash_determines hsha hsettings
  · constructor
    · intro imageIdentity imageIdentity' sourceHash sourceHash'
      exact notebookValidationIdentity_determines hsha
    · intro library w w'
      exact validationImageIdentity_determines hsha

/-- Parts that are cut elsewhere begin alike. -/
theorem Recut.isPrefix {a b c d : String} (h : Recut a b c d) :
  a.toList <+: c.toList
  := by
  obtain ⟨x, rfl, -⟩ := h
  rw [String.append_assoc, String.toList_append]
  apply List.prefix_append

/-- The payload of an identity has no separator. -/
theorem KubernetesRuntimeSettings.payload_ne (settings : KubernetesRuntimeSettings library)
    (kind : Option String) {text : String} (h : '\x00' ∈ text.toList) :
  settings.payload kind ≠ text
  := by
  rintro rfl
  rw [payload, String.toList_ofList] at h
  obtain ⟨c, hc, hzero⟩ := List.mem_map.mp h
  obtain ⟨hlow, hhigh⟩ := Json.isPrintable_write _ c hc
  have hvalid : c.val.isValidChar := .inl (by omega)
  have hnat := congrArg Char.toNat hzero
  rw [Char.ofNat, dif_pos hvalid] at hnat
  change c.val = 0 at hnat
  omega

/-- The digests of the texts that the identities below are made of. -/
def sampleSha256 (text : String) : Digest :=
  if text = "run\x00pass" then
    ⟨"c4d9c8898f096be14678d13d76ad3302fb635bdc84a105e73c0b306b76983bde", by decide⟩
  else if text = "main\x00pass" then
    ⟨"23c1879f9fcdc106c5df29cca1b01103db09af71aa5cf20c8dc3e77bc798ca97", by decide⟩
  else if text = "runner:1\x00c4d9c8898f096be14678d13d76ad3302fb635bdc84a105e73c0b306b76983bde" then
    ⟨"6bb9af1cc829b6ac21d0e2a90a31c8efda5c8b68f2515d1374b27d21b2e779f9", by decide⟩
  else if text = "runner:2\x00c4d9c8898f096be14678d13d76ad3302fb635bdc84a105e73c0b306b76983bde" then
    ⟨"996219d3b8fc0689029b183f69b7fa9cc8f452c24637f0566dff15697104858f", by decide⟩
  else
    ⟨"e332c07da3b00883bb130643d4d2c6cf83aaf1f308adbe6d5774e5fb72a9741b", by decide⟩

/-- A report under the settings for restricted workloads. -/
def restrictedReport (image : String) : IdentifiedWorkload quantityCluster :=
  ⟨restrictedSettings, image, some "report"⟩

/-- Those texts. -/
def sampleTexts : Set String :=
  {"run\x00pass", "main\x00pass",
    "runner:1\x00c4d9c8898f096be14678d13d76ad3302fb635bdc84a105e73c0b306b76983bde",
    "runner:2\x00c4d9c8898f096be14678d13d76ad3302fb635bdc84a105e73c0b306b76983bde",
    restrictedSettings.payload (some "report")}

/-- The text of a digest. -/
def sampleText (digest : Digest) : String :=
  if digest.text = "c4d9c8898f096be14678d13d76ad3302fb635bdc84a105e73c0b306b76983bde" then "run\x00pass"
  else if digest.text = "23c1879f9fcdc106c5df29cca1b01103db09af71aa5cf20c8dc3e77bc798ca97" then
    "main\x00pass"
  else if digest.text = "6bb9af1cc829b6ac21d0e2a90a31c8efda5c8b68f2515d1374b27d21b2e779f9" then
    "runner:1\x00c4d9c8898f096be14678d13d76ad3302fb635bdc84a105e73c0b306b76983bde"
  else if digest.text = "996219d3b8fc0689029b183f69b7fa9cc8f452c24637f0566dff15697104858f" then
    "runner:2\x00c4d9c8898f096be14678d13d76ad3302fb635bdc84a105e73c0b306b76983bde"
  else restrictedSettings.payload (some "report")

/-- The texts have different digests. -/
theorem injOn_sampleSha256 : Set.InjOn sampleSha256 sampleTexts
  := by
  have hleft : Set.LeftInvOn sampleText sampleSha256 sampleTexts := by
    rintro text (rfl | rfl | rfl | rfl | rfl)
    · rfl
    · rfl
    · rfl
    · rfl
    · rw [sampleSha256, if_neg (restrictedSettings.payload_ne _ (by decide)),
        if_neg (restrictedSettings.payload_ne _ (by decide)),
        if_neg (restrictedSettings.payload_ne _ (by decide)),
        if_neg (restrictedSettings.payload_ne _ (by decide))]
      rfl
  exact hleft.injOn

/-- Two functions with one source, two images with one function, and two images under one contract have
different identities. -/
theorem identities_determine_sample :
  notebookSourceHash { asciiSettings with sha256 := hexdigest sampleSha256 } "pass" "run"
      ≠ notebookSourceHash { asciiSettings with sha256 := hexdigest sampleSha256 } "pass" "main"
    ∧ notebookValidationIdentity (hexdigest sampleSha256) (some "runner:1")
        "c4d9c8898f096be14678d13d76ad3302fb635bdc84a105e73c0b306b76983bde"
      ≠ notebookValidationIdentity (hexdigest sampleSha256) (some "runner:2")
        "c4d9c8898f096be14678d13d76ad3302fb635bdc84a105e73c0b306b76983bde"
    ∧ (restrictedReport "report:1").identity sampleSha256
      ≠ (restrictedReport "report:2").identity sampleSha256
  := by
  obtain ⟨hsource, hnotebook, hworkload⟩ :=
    identities_determine sampleSha256 sampleTexts injOn_sampleSha256
  refine ⟨?_, ?_, ?_⟩
  · intro heq
    have hdetermined := (hsource { asciiSettings with sha256 := hexdigest sampleSha256 } rfl "pass" "run"
      "pass" "main" (by simp [sampleTexts]) (by simp [sampleTexts])).mpr (by
        rintro (hrecut | hrecut) <;> exact absurd hrecut.isPrefix (by decide))
    exact absurd (hdetermined heq).2 (by decide)
  · intro heq
    have hdetermined := (hnotebook (some "runner:1") (some "runner:2")
      "c4d9c8898f096be14678d13d76ad3302fb635bdc84a105e73c0b306b76983bde"
      "c4d9c8898f096be14678d13d76ad3302fb635bdc84a105e73c0b306b76983bde"
      (.inr (.inr (.inl rfl))) (.inr (.inr (.inr (.inl rfl))))).mpr (by
        rintro (hrecut | hrecut | ⟨-, -, hunresolved, -⟩)
        · exact absurd hrecut.isPrefix (by decide)
        · exact absurd hrecut.isPrefix (by decide)
        · simp [Unresolved] at hunresolved)
    exact absurd (hdetermined heq).1 (by decide)
  · intro heq
    have hpayload : restrictedSettings.payload (some "report") ∈ sampleTexts :=
      .inr (.inr (.inr (.inr rfl)))
    have hdetermined := (hworkload quantityCluster (restrictedReport "report:1")
      (restrictedReport "report:2") hpayload hpayload).mpr (by
        rintro (himitates | himitates) <;> exact absurd himitates.unbound (by decide))
    exact absurd (hdetermined heq).image (by decide)

/-- Two functions have one source hash, and an absent image has the identity of one that is called like
its placeholder. -/
theorem cut_elsewhere :
  (∀ settings : ApiSettings, notebookSourceHash settings "c" "a\x00b"
      = notebookSourceHash settings "b\x00c" "a")
    ∧ "c" ≠ "b\x00c" ∧ "a\x00b" ≠ "a"
    ∧ (∀ sha256 sourceHash, notebookValidationIdentity sha256 none sourceHash
      = notebookValidationIdentity sha256 (some "<unresolved-runner-image>") sourceHash)
  := by
  refine ⟨?_, by decide, by decide, ?_⟩
  · intro settings
    have htext : "a\x00b" ++ "\x00" ++ "c" = "a" ++ "\x00" ++ "b\x00c" := by decide
    rw [notebookSourceHash, notebookSourceHash, htext]
  · intro sha256 sourceHash
    rfl

end GoblinKing
