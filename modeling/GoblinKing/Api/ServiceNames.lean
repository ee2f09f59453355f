import GoblinKing.Api.ServiceCustody
import GoblinKing.Kubernetes.Names

/-!
# Names of service runtimes

The name of the runtime of a notebook service is made of its kind and the first twelve digits
of its source hash. A validation and a start through the repository add a suffix, for which
the name is cut shorter. A start deletes the runtime that has its name, whatever service it
belongs to. Here it is determined for which services the names of all runtimes differ.
-/

namespace GoblinKing

open Labels

/-- A hexadecimal digest. -/
def isDigest (text : String) : Bool :=
  decide (text.toList.length = 64) && text.toList.all isHexChar

/-- A notebook service whose kind the validators accept, with the digest of its source. -/
structure ServiceBundle where
  record : NotebookServiceRecord
  accepted : matchesKindPattern record.kind = true
  digest : isDigest record.sourceHash = true
  deriving DecidableEq

/-- The kind of a service. -/
def ServiceBundle.kind (bundle : ServiceBundle) : GoblinKind :=
  ⟨bundle.record.kind, bundle.accepted⟩

/-- Eight hexadecimal digits of a `uuid4`. -/
structure RouteToken where
  text : String
  hex : (decide (text.toList.length = 8) && text.toList.all isHexChar) = true
  deriving DecidableEq

/-- What a runtime is started for: its own service, a validation, or a route of the
repository. -/
inductive RuntimeUse where
  | managed
  | validation
  | route (token : RouteToken)
  deriving DecidableEq

/-- The suffix of the name of a runtime. -/
def RuntimeUse.suffix : RuntimeUse → Option String
  | .managed => none
  | .validation => some "validate"
  | .route token => some ("route-" ++ token.text)

/-- The runtime that is started for a service. -/
def ServiceBundle.runtime (config : ServiceConfig) (bundle : ServiceBundle) (use : RuntimeUse) :
    Runtime :=
  managedRuntime config bundle.record use.suffix

/-- The kind of a service and the first twelve digits of its source hash, with the dots of the
kind read as dashes. -/
def ServiceBundle.label (bundle : ServiceBundle) : List Char :=
  bundle.kind.label ++ '-' :: bundle.record.sourceHash.toList.take 12

/-- A service is named like a runtime of another one that was started with a suffix. -/
def Mimics (a b : ServiceBundle) : Prop :=
  cut '-' 54 a.label = cut '-' 45 b.label ++ "-validate".toList
    ∨ ∃ token : RouteToken,
        cut '-' 54 a.label = cut '-' 39 b.label ++ "-route-".toList ++ token.text.toList

/-- Two services are told apart by the first 39 characters of the kind and the source hash,
and neither is named like a runtime of the other with a suffix. -/
def ServicesToldApart (a b : ServiceBundle) : Prop :=
  cut '-' 39 a.label ≠ cut '-' 39 b.label ∧ ¬ Mimics a b ∧ ¬ Mimics b a

/-! ### Names -/

/-- The source hash of a service consists of hexadecimal digits. -/
theorem ServiceBundle.hash_chars (bundle : ServiceBundle) :
  ∀ c ∈ bundle.record.sourceHash.toList, isHexChar c = true
  := by
  have h := bundle.digest
  rw [isDigest, Bool.and_eq_true, List.all_eq_true] at h
  apply h.2

/-- Twelve digits of the source hash are visible in the label. -/
theorem ServiceBundle.length_hash (bundle : ServiceBundle) :
  (bundle.record.sourceHash.toList.take 12).length = 12
  := by
  have h := bundle.digest
  rw [isDigest, Bool.and_eq_true, decide_eq_true_eq] at h
  rw [List.length_take, h.1]
  rfl

/-- A text of hexadecimal digits is tidy. -/
theorem tidy_hex {chars : List Char} (hne : chars ≠ []) (h : ∀ c ∈ chars, isHexChar c = true) :
  Tidy '-' chars
  := by
  apply tidy_of_not_mem hne
  intro hdash
  exact absurd (h '-' hdash) (by decide)

/-- The digits of the source hash are a word. -/
theorem ServiceBundle.tidy_hash (bundle : ServiceBundle) :
  Tidy '-' (bundle.record.sourceHash.toList.take 12)
  := by
  apply tidy_hex
  · intro hnil
    have hlength := bundle.length_hash
    rw [hnil] at hlength
    cases hlength
  · intro c hc
    apply bundle.hash_chars c (List.mem_of_mem_take hc)

/-- The label of a service is tidy. -/
theorem ServiceBundle.tidy_label (bundle : ServiceBundle) :
  Tidy '-' bundle.label
  := tidy_append.mpr ⟨bundle.kind.tidy_label, bundle.tidy_hash⟩

/-- The base of a name, cut to 63 characters. -/
theorem ServiceBundle.toList_base {settings : ApiSettings} (hascii : settings.AsciiText)
    (bundle : ServiceBundle) :
  (kubernetesName settings ("gk-nbsvc-" ++ bundle.record.kind ++ "-"
      ++ String.ofList (bundle.record.sourceHash.toList.take 12))).toList
    = cut '-' 63 ("gk-nbsvc-".toList ++ bundle.label)
  := by
  have hback : (String.ofList (bundle.record.sourceHash.toList.take 12)).toList
      = bundle.record.sourceHash.toList.take 12 := String.toList_ofList
  have hvalue : ("gk-nbsvc-" ++ bundle.record.kind ++ "-"
        ++ String.ofList (bundle.record.sourceHash.toList.take 12)).toList
      = "gk-nbsvc".toList ++ '-' :: (bundle.kind.text.toList
        ++ '-' :: (String.ofList (bundle.record.sourceHash.toList.take 12)).toList) := by
    simp [String.toList_append, ServiceBundle.kind]
  have hname := kubernetesName_kind hascii bundle.kind "gk-nbsvc" _ hvalue
    (labelChars_of_all (by decide)) (by decide)
    (by
      rw [hback]
      intro c hc
      left
      apply isKindChar_of_isHexChar (bundle.hash_chars c (List.mem_of_mem_take hc)))
    (by
      rw [hback]
      apply bundle.tidy_hash)
  rw [hname, hback]
  rfl

/-- Removing the dashes at both ends changes nothing where there are none. -/
theorem stripDashes_eq_self {chars : List Char} (hhead : chars.head? ≠ some '-')
    (hlast : chars.getLast? ≠ some '-') :
  stripDashes chars = chars
  := by
  have hdrop : chars.dropWhile (fun c => c = '-') = chars := by
    cases chars with
    | nil => rfl
    | cons c rest =>
        apply List.dropWhile_cons_of_neg
        intro hc
        apply hhead
        rw [of_decide_eq_true hc]
        rfl
  rw [stripDashes, hdrop, List.rdropWhile_eq_self_iff]
  intro hne hc
  apply hlast
  rw [List.getLast?_eq_some_getLast hne, of_decide_eq_true hc]

/-- The name of a tidy text of label characters that is short enough is the text. -/
theorem kubernetesName_eq_self {settings : ApiSettings} (hascii : settings.AsciiText)
    {text : String} (htidy : Tidy '-' text.toList) (hchars : ∀ c ∈ text.toList, LabelChar c)
    (hlength : text.toList.length ≤ 63) :
  (kubernetesName settings text).toList = text.toList
  := by
  have hwords : words '-' text.toList ≠ [] := by
    rw [htidy.words_eq]
    apply List.splitOn_ne_nil
  rw [kubernetesName_eq hascii _ (by rw [dashed_eq_self hchars]; apply hwords),
    String.toList_ofList, dashed_eq_self hchars, htidy.collapse_eq, htidy.cut_of_length_le hlength]
  intro c hc
  apply (hchars c hc).ascii

/-- A cut of the base of a name is a cut of the label. -/
theorem ServiceBundle.cut_base (bundle : ServiceBundle) {n : ℕ} (hn : n ≠ 0) :
  cut '-' (9 + n) ("gk-nbsvc-".toList ++ bundle.label)
    = "gk-nbsvc-".toList ++ cut '-' n bundle.label
  := cut_append "gk-nbsvc-".toList bundle.label (bundle.tidy_label.cut_ne_nil hn)

/-- The base of a name does not begin with a dash. -/
theorem ServiceBundle.head_base (bundle : ServiceBundle) :
  (cut '-' 63 ("gk-nbsvc-".toList ++ bundle.label)).head? ≠ some '-'
  := by
  rw [bundle.cut_base (n := 54) (by decide)]
  simp

/-- The name of the runtime of a service itself. -/
theorem ServiceBundle.toList_managed {settings : ApiSettings} (hascii : settings.AsciiText)
    (bundle : ServiceBundle) :
  (notebookServiceRuntimeName settings bundle.record.kind bundle.record.sourceHash none).toList
    = "gk-nbsvc-".toList ++ cut '-' 54 bundle.label
  := by
  have hhead := bundle.head_base
  have hcut := bundle.cut_base (n := 54) (by decide)
  rw [hcut] at hhead
  rw [notebookServiceRuntimeName, String.toList_ofList, bundle.toList_base hascii, hcut,
    stripDashes_take hhead, ← hcut, cut_cut _ (le_refl 63)]

/-- The name of a runtime with a suffix. -/
theorem ServiceBundle.toList_suffixed {settings : ApiSettings} (hascii : settings.AsciiText)
    (bundle : ServiceBundle) (suffix : String) (htidy : Tidy '-' suffix.toList)
    (hchars : ∀ c ∈ suffix.toList, LabelChar c) (hlength : suffix.toList.length ≤ 52) :
  (notebookServiceRuntimeName settings bundle.record.kind bundle.record.sourceHash
      (some suffix)).toList
    = "gk-nbsvc-".toList ++ (cut '-' (53 - suffix.toList.length) bundle.label
      ++ '-' :: suffix.toList)
  := by
  have hroom : 53 - suffix.toList.length ≠ 0 := by omega
  have hbase := bundle.toList_base hascii
  have hpart := kubernetesName_eq_self hascii htidy hchars (by omega)
  have hsum : 63 - suffix.toList.length - 1 = 9 + (53 - suffix.toList.length) := by omega
  simp only [notebookServiceRuntimeName, String.toList_ofList]
  rw [hbase, hpart, stripDashes_take bundle.head_base, cut_cut _ (by omega), hsum,
    bundle.cut_base hroom, stripDashes_eq_self, List.append_assoc]
  · simp
  · -- the last character is that of the suffix
    intro hlast
    rw [List.getLast?_append, List.getLast?_cons_of_ne_nil htidy.ne_nil,
      List.getLast?_eq_some_getLast htidy.ne_nil, Option.some_or, Option.some.injEq] at hlast
    have hsplit := List.dropLast_append_getLast htidy.ne_nil
    rw [hlast] at hsplit
    rw [← hsplit] at htidy
    apply not_tidy_concat _ htidy

/-! ### Telling services apart -/

/-- What is visible of a service in the name of a runtime, and the suffix. -/
def ServiceBundle.visible (bundle : ServiceBundle) : RuntimeUse → List Char
  | .managed => cut '-' 54 bundle.label
  | .validation => cut '-' 45 bundle.label ++ "-validate".toList
  | .route token => cut '-' 39 bundle.label ++ "-route-".toList ++ token.text.toList

/-- A route token consists of eight hexadecimal digits. -/
theorem RouteToken.spec (token : RouteToken) :
  token.text.toList.length = 8 ∧ ∀ c ∈ token.text.toList, isHexChar c = true
  := by
  have h := token.hex
  rw [Bool.and_eq_true, decide_eq_true_eq, List.all_eq_true] at h
  apply h

/-- The suffix of a route is a tidy text of label characters. -/
theorem RouteToken.tidy (token : RouteToken) :
  Tidy '-' ("route-" ++ token.text).toList
    ∧ (∀ c ∈ ("route-" ++ token.text).toList, LabelChar c)
    ∧ ("route-" ++ token.text).toList.length = 14
  := by
  obtain ⟨hlength, hhex⟩ := token.spec
  have hsplit : ("route-" ++ token.text).toList = "route".toList ++ '-' :: token.text.toList := by
    simp [String.toList_append]
  rw [hsplit]
  refine ⟨?_, ?_, ?_⟩
  · apply tidy_append.mpr
    use by decide
    apply tidy_hex _ hhex
    intro hnil
    rw [hnil] at hlength
    cases hlength
  · have hfront : ∀ c ∈ "route".toList, LabelChar c := labelChars_of_all (by decide)
    intro c hc
    rcases List.mem_append.mp hc with hc | hc
    · apply hfront c hc
    · rcases List.mem_cons.mp hc with rfl | hc
      · exact .inr rfl
      · exact .inl (isKindChar_of_isHexChar (hhex c hc))
  · rw [List.length_append, List.length_cons, hlength]
    rfl

/-- The name of a runtime shows what is visible of its service. -/
theorem ServiceBundle.toList_name {config : ServiceConfig} (hascii : config.settings.AsciiText)
    (bundle : ServiceBundle) (use : RuntimeUse) :
  (bundle.runtime config use).name.toList = "gk-nbsvc-".toList ++ bundle.visible use
  := by
  cases use with
  | managed => apply bundle.toList_managed hascii
  | validation =>
      apply bundle.toList_suffixed hascii "validate" (by decide) (labelChars_of_all (by decide))
        (by decide)
  | route token =>
      obtain ⟨htidy, hchars, hlength⟩ := token.tidy
      have hname := bundle.toList_suffixed hascii _ htidy hchars (by omega)
      rw [hlength] at hname
      rw [visible, List.append_assoc, runtime, managedRuntime, RuntimeUse.suffix, hname,
        String.toList_append]
      rfl

/-- A name with the suffix of a validation is none with the suffix of a route. -/
theorem validation_ne_route (a b : List Char) (token : RouteToken) :
  a ++ "-validate".toList ≠ b ++ "-route-".toList ++ token.text.toList
  := by
  obtain ⟨hlength, hhex⟩ := token.spec
  intro h
  have hsplit : "-validate".toList = ['-'] ++ "validate".toList := rfl
  rw [hsplit, ← List.append_assoc] at h
  have htext := List.append_inj_right' h (by rw [hlength]; rfl)
  have hv : isHexChar 'v' = true := by
    apply hhex
    rw [← htext]
    decide
  revert hv
  decide

/-- Two services show different things in the names of all their runtimes when they are told
apart, and only then. -/
theorem visible_ne_iff {a b : ServiceBundle} :
  (∀ s t : RuntimeUse, a.visible s ≠ b.visible t) ↔ ServicesToldApart a b
  := by
  constructor
  · intro h
    refine ⟨?_, ?_, ?_⟩
    · intro hcut
      apply h (.route ⟨"00000000", by decide⟩) (.route ⟨"00000000", by decide⟩)
      rw [ServiceBundle.visible, ServiceBundle.visible, hcut]
    · rintro (hvalidate | ⟨token, hroute⟩)
      · apply h .managed .validation hvalidate
      · apply h .managed (.route token) hroute
    · rintro (hvalidate | ⟨token, hroute⟩)
      · apply h .validation .managed hvalidate.symm
      · apply h (.route token) .managed hroute.symm
  · rintro ⟨hcut, hab, hba⟩ s t heq
    have hshorter : ∀ n, 39 ≤ n → cut '-' n a.label ≠ cut '-' n b.label :=
      fun n hn h => hcut (cut_eq_of_le hn h)
    cases s with
    | managed =>
        cases t with
        | managed => apply hshorter 54 (by decide) heq
        | validation => apply hab (.inl heq)
        | route token => apply hab (.inr ⟨token, heq⟩)
    | validation =>
        cases t with
        | managed => apply hba (.inl heq.symm)
        | validation => apply hshorter 45 (by decide) (List.append_cancel_right heq)
        | route token => apply validation_ne_route _ _ token heq
    | route token =>
        cases t with
        | managed => apply hba (.inr ⟨token, heq.symm⟩)
        | validation => apply validation_ne_route _ _ token heq.symm
        | route token' =>
            have hlength : token.text.toList.length = token'.text.toList.length := by
              rw [token.spec.1, token'.spec.1]
            have hfront := List.append_inj_left' heq hlength
            apply hcut (List.append_cancel_right hfront)

/-- What is visible of a service with a short kind ends with digits of the source hash, at
least nine of them. -/
theorem ServiceBundle.exists_visible_hash {bundle : ServiceBundle}
    (h : bundle.kind.label.length ≤ 44) :
  ∃ digits : List Char, cut '-' 54 bundle.label = (bundle.kind.label ++ ['-']) ++ digits
    ∧ 9 ≤ digits.length ∧ '-' ∉ digits
  := by
  have hroom : 53 - bundle.kind.label.length ≠ 0 := by omega
  have hsum : 54 = (bundle.kind.label ++ ['-']).length + (53 - bundle.kind.label.length) := by
    rw [List.length_append, List.length_singleton]
    omega
  have hlabel : bundle.label
      = (bundle.kind.label ++ ['-']) ++ bundle.record.sourceHash.toList.take 12 := by
    rw [List.append_assoc]
    rfl
  have hhex : ∀ c ∈ (bundle.record.sourceHash.toList.take 12).take (53 - bundle.kind.label.length),
      c ≠ '-' := by
    rintro c hc rfl
    have := bundle.hash_chars '-' (List.mem_of_mem_take (List.mem_of_mem_take hc))
    revert this
    decide
  use (bundle.record.sourceHash.toList.take 12).take (53 - bundle.kind.label.length)
  refine ⟨?_, ?_, fun hdash => hhex '-' hdash rfl⟩
  · conv_lhs => rw [hlabel, hsum]
    rw [cut_append _ _ (bundle.tidy_hash.cut_ne_nil hroom), cut, List.rdropWhile_eq_self_iff.mpr]
    intro hne hlast
    apply hhex _ (List.getLast_mem hne) (of_decide_eq_true hlast)
  · rw [List.length_take, bundle.length_hash]
    omega

/-- Only services with long kinds are named like runtimes with a suffix. -/
theorem not_mimics_of_short {a b : ServiceBundle} (h : a.kind.label.length ≤ 44) :
  ¬ Mimics a b
  := by
  obtain ⟨digits, hvisible, hlength, hdash⟩ := ServiceBundle.exists_visible_hash h
  -- a suffix has a dash before its last eight characters
  have hends : ∀ front back : List Char, back.length = 8 →
      cut '-' 54 a.label ≠ front ++ '-' :: back := by
    intro front back hback heq
    rw [hvisible, ← List.take_append_drop (digits.length - 9) digits, ← List.append_assoc] at heq
    have hlast := List.append_inj_right' heq
      (by rw [List.length_drop, List.length_cons, hback]; omega)
    apply hdash
    apply List.mem_of_mem_drop (i := digits.length - 9)
    rw [hlast]
    apply List.mem_cons_self
  rintro (hvalidate | ⟨token, hroute⟩)
  · apply hends (cut '-' 45 b.label) "validate".toList rfl hvalidate
  · apply hends (cut '-' 39 b.label ++ "-route".toList) token.text.toList token.spec.1
    rw [hroute, List.append_assoc, List.append_assoc]
    rfl

/-- A runtime of a service is left running by every start and every stop of another. -/
def ServiceSpares (config : ServiceConfig) (a b : ServiceBundle) : Prop :=
  ∀ (s t : RuntimeUse) (stage : StartStage) (outcome : CommandOutcome) (live : List Runtime),
    b.runtime config t ∈ live →
      b.runtime config t ∈ (startEffect (a.runtime config s) stage outcome).running live

/-- A stage of a start does nothing, launches the runtime, or removes what has its place. -/
theorem startEffect_cases (runtime : Runtime) (stage : StartStage) (outcome : CommandOutcome) :
  startEffect runtime stage outcome = .nothing ∨ startEffect runtime stage outcome = .launch runtime
    ∨ startEffect runtime stage outcome = .remove runtime
  := by
  cases stage with
  | clear | cleanup =>
      dsimp only [startEffect, stopEffect]
      split
      · exact .inr (.inr rfl)
      · exact .inl rfl
  | launch =>
      dsimp only [startEffect]
      split
      · exact .inr (.inl rfl)
      · exact .inl rfl
  | inspect | probe => exact .inl rfl

/-- The names of the runtimes of two services differ, whatever they are started for, and no
start or validation of the one removes a runtime of the other, when the services are told
apart, and only then. -/
theorem runtimeNames_identify_services {config : ServiceConfig}
    (hascii : config.settings.AsciiText) (a b : ServiceBundle) :
  ((∀ s t : RuntimeUse, (a.runtime config s).name ≠ (b.runtime config t).name)
    ∧ ServiceSpares config a b ∧ ServiceSpares config b a)
  ↔ ServicesToldApart a b
  := by
  have hnames : (∀ s t : RuntimeUse, (a.runtime config s).name ≠ (b.runtime config t).name)
      ↔ ServicesToldApart a b := by
    rw [← visible_ne_iff]
    apply forall_congr'
    intro s
    apply forall_congr'
    intro t
    rw [ne_eq, ← String.toList_inj, a.toList_name hascii, b.toList_name hascii,
      List.append_cancel_left_eq]
  have hspares : ∀ x y : ServiceBundle,
      (∀ s t : RuntimeUse, (x.runtime config s).name ≠ (y.runtime config t).name) →
      ServiceSpares config x y := by
    intro x y hne s t stage outcome live hlive
    have hplace : (y.runtime config t).place ≠ (x.runtime config s).place := by
      intro hplace
      apply hne s t (congrArg Prod.snd hplace).symm
    have hkept : ∀ effect : ServiceEffect, (effect = .nothing
        ∨ effect = .launch (x.runtime config s) ∨ effect = .remove (x.runtime config s)) →
        y.runtime config t ∈ effect.running live := by
      rintro effect (rfl | rfl | rfl)
      · apply hlive
      · apply List.mem_cons_of_mem _ hlive
      · apply Custody.mem_stop.mpr ⟨hlive, hplace⟩
    apply hkept
    apply startEffect_cases
  constructor
  · rintro ⟨h, -, -⟩
    apply hnames.mp h
  · intro h
    have hne := hnames.mpr h
    refine ⟨hne, hspares a b hne, hspares b a ?_⟩
    intro s t heq
    apply hne t s heq.symm

/-- A start of a service removes a running runtime of another that has its name. -/
theorem start_removes_of_name_eq {config : ServiceConfig} {a b : ServiceBundle}
    {s t : RuntimeUse} {outcome : CommandOutcome}
    (hbackend : (serviceBackend config.backend).isSome = true)
    (heffective : outcome.effective = true)
    (h : (a.runtime config s).name = (b.runtime config t).name) :
  b.runtime config t
    ∉ (startEffect (a.runtime config s) .clear outcome).running [b.runtime config t]
  := by
  have heffect : startEffect (a.runtime config s) .clear outcome
      = .remove (a.runtime config s) := by
    apply if_pos
    rw [heffective, Bool.and_true]
    apply hbackend
  rw [heffect]
  intro hmem
  apply (Custody.mem_stop.mp hmem).2
  rw [Runtime.place, Runtime.place, h]
  rfl

/-- A service with a short kind. -/
def weatherService : ServiceBundle where
  record :=
    { kind := "team.weather"
      source := "app = build()"
      sourceHash := "feb03cb3f1f05948a0867e9bbf69ae259ba779118b62bd8bf6bb843619ce998e" }
  accepted := by decide
  digest := by decide

/-- Another service with a short kind, of the same source. -/
def trafficService : ServiceBundle where
  record :=
    { kind := "team.traffic"
      source := "app = build()"
      sourceHash := "feb03cb3f1f05948a0867e9bbf69ae259ba779118b62bd8bf6bb843619ce998e" }
  accepted := by decide
  digest := by decide

/-- The settings of a runtime manager that runs services in Docker. -/
def dockerConfig : ServiceConfig where
  settings := asciiSettings
  backend := "docker"
  dockerNetwork := false

/-- The runtimes of the two services keep clear of each other. -/
theorem runtimeNames_weather_traffic :
  (∀ s t : RuntimeUse, (weatherService.runtime dockerConfig s).name
      ≠ (trafficService.runtime dockerConfig t).name)
    ∧ ServiceSpares dockerConfig weatherService trafficService
    ∧ ServiceSpares dockerConfig trafficService weatherService
  := by
  apply (runtimeNames_identify_services asciiText_asciiSettings _ _).mpr
  refine ⟨by decide, not_mimics_of_short (by decide), not_mimics_of_short (by decide)⟩

/-- A service whose kind has a dash where that of the other service has a dot. -/
def dashedService : ServiceBundle where
  record :=
    { kind := "team-weather"
      source := "app = build()"
      sourceHash := "feb03cb3f1f05948a0867e9bbf69ae259ba779118b62bd8bf6bb843619ce998e" }
  accepted := by decide
  digest := by decide

/-- Two services of different kinds have one name, and the start of the one removes the
running runtime of the other. -/
theorem dotted_and_dashed_share_name :
  weatherService.record.kind ≠ dashedService.record.kind
    ∧ (dashedService.runtime dockerConfig .managed).name
      = (weatherService.runtime dockerConfig .managed).name
    ∧ weatherService.runtime dockerConfig .managed
      ∉ (startEffect (dashedService.runtime dockerConfig .managed) .clear .done).running
        [weatherService.runtime dockerConfig .managed]
  := by
  have hkind : dashedService.kind.label = weatherService.kind.label := by decide
  have hlabel : dashedService.label = weatherService.label := by
    rw [ServiceBundle.label, ServiceBundle.label, hkind]
    rfl
  have hname : (dashedService.runtime dockerConfig .managed).name
      = (weatherService.runtime dockerConfig .managed).name := by
    rw [← String.toList_inj, dashedService.toList_name asciiText_asciiSettings,
      weatherService.toList_name asciiText_asciiSettings, ServiceBundle.visible,
      ServiceBundle.visible, hlabel]
  refine ⟨by decide, hname, ?_⟩
  apply start_removes_of_name_eq rfl rfl hname

end GoblinKing
