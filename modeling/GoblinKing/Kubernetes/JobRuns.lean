import GoblinKing.Kubernetes.Names

/-!
# Jobs of runs

A run creates a ConfigMap and a Job in the cluster, waits, and deletes what has its names,
whether it created anything or not. The runs of a population take their steps in any order.
An object belongs to the run that created it.

The name of a Job is made of the kind and the identifier of the run, and is cut to 63
characters. Whether the names of two runs differ depends on what is left of the identifiers.
-/

namespace GoblinKing

open Labels Transition

/-- The text of a `uuid4`: five groups of hexadecimal digits, with dashes between them. -/
def isUuid (text : String) : Bool :=
  let groups := text.toList.splitOn '-'
  decide (groups.map List.length = [8, 4, 4, 4, 12])
    && groups.all (fun group => group.all isHexChar)

/-- The identifier of a run, which is the text of a `uuid4`. -/
structure RunId where
  text : String
  uuid : isUuid text = true
  deriving DecidableEq

/-- A run on Kubernetes: the kind of its worker and its identifier. -/
structure KubernetesRun where
  kind : GoblinKind
  runId : RunId
  deriving DecidableEq

/-- The name of the Job of a run. -/
def KubernetesRun.jobName (settings : ApiSettings) (run : KubernetesRun) : String :=
  kubernetesName settings ("gk-" ++ run.kind.text ++ "-" ++ run.runId.text)

/-- The name of the ConfigMap of a run. -/
def KubernetesRun.configName (settings : ApiSettings) (run : KubernetesRun) : String :=
  run.jobName settings ++ "-input"

/-! ### The cluster -/

/-- An object of the cluster, with the run of the population that created it. -/
structure ClusterObject where
  name : String
  owner : ℕ
  deriving DecidableEq

/-- The next call of a run to the cluster. -/
inductive JobPhase where
  | createConfigMap
  | createJob
  | wait
  | deleteJob
  | deleteConfigMap
  | finished
  deriving DecidableEq, Repr

/-- The Jobs and the ConfigMaps of the namespace, and how far the runs are. -/
structure Cluster where
  jobs : Table ClusterObject.name
  configMaps : Table ClusterObject.name
  phases : List JobPhase
  deriving DecidableEq

/-- A call of a run to the cluster: whether it takes effect, and whether it raises. A call
that raises may have taken effect all the same. -/
structure ClusterCall where
  run : ℕ
  effect : Bool
  raises : Bool
  deriving DecidableEq, Repr

/-- Create an object. A name that is taken is refused. The Boolean tells whether the call
returns. -/
def createObject (objects : Table ClusterObject.name) (object : ClusterObject)
    (call : ClusterCall) : Bool × Table ClusterObject.name :=
  match if call.effect then objects.insert? object else none with
  | some objects' => (!call.raises, objects')
  | none => (false, objects)

/-- Delete what has a name. Exceptions are passed over. -/
def deleteObject (objects : Table ClusterObject.name) (name : String) (call : ClusterCall) :
    Table ClusterObject.name :=
  if call.effect then objects.delete (fun object => decide (object.name = name)) else objects

/-- A call of a run: `run_observed`, with `_cleanup` at its end. A creation that raises is
followed by the cleanup as well. -/
def runObserved (settings : ApiSettings) (run : KubernetesRun) (call : ClusterCall)
    (cluster : Cluster) : JobPhase → Option (JobPhase × Cluster)
  | .createConfigMap =>
      let (returns, configMaps) :=
        createObject cluster.configMaps ⟨run.configName settings, call.run⟩ call
      some (if returns then .createJob else .deleteJob, { cluster with configMaps := configMaps })
  | .createJob =>
      let (returns, jobs) := createObject cluster.jobs ⟨run.jobName settings, call.run⟩ call
      some (if returns then .wait else .deleteJob, { cluster with jobs := jobs })
  | .wait => some (.deleteJob, cluster)
  | .deleteJob =>
      some (.deleteConfigMap,
        { cluster with jobs := deleteObject cluster.jobs (run.jobName settings) call })
  | .deleteConfigMap =>
      some (.finished,
        { cluster with
          configMaps := deleteObject cluster.configMaps (run.configName settings) call })
  | .finished => none

/-- A step of the runs of a population. -/
def clusterStep (settings : ApiSettings) (runs : List KubernetesRun) (cluster : Cluster)
    (call : ClusterCall) : Option Cluster :=
  match runs[call.run]?, cluster.phases[call.run]? with
  | some run, some phase =>
      (runObserved settings run call cluster phase).map (fun (phase', cluster') =>
        { cluster' with phases := cluster.phases.set call.run phase' })
  | _, _ => none

/-- No run has begun. -/
def Cluster.initial (runs : List KubernetesRun) : Cluster :=
  ⟨.empty, .empty, runs.map (fun _ => .createConfigMap)⟩

/-- A step of a run leaves the Jobs and the ConfigMaps of all other runs in place. -/
def SparesOthers (cluster : Cluster) (call : ClusterCall) (cluster' : Cluster) : Prop :=
  (∀ object ∈ cluster.jobs.rows, object.owner ≠ call.run → object ∈ cluster'.jobs.rows)
    ∧ ∀ object ∈ cluster.configMaps.rows, object.owner ≠ call.run →
        object ∈ cluster'.configMaps.rows

/-! ### Telling runs apart -/

/-- The kind and the identifier of a run, with the dots of the kind read as dashes. -/
def KubernetesRun.label (run : KubernetesRun) : List Char :=
  run.kind.label ++ '-' :: run.runId.text.toList

/-- Two runs are told apart by what is left of them in a name. For two runs of one kind these
are the first characters of the identifiers, as many as the kind leaves of 59. For runs of
different kinds they are the first 60 characters of the kind and the identifier, without a
dash at the end. -/
def ToldApart (a b : KubernetesRun) : Prop :=
  if a.kind.label = b.kind.label then
    a.runId.text.toList.take (59 - a.kind.label.length)
      ≠ b.runId.text.toList.take (59 - a.kind.label.length)
  else
    cut '-' 60 a.label ≠ cut '-' 60 b.label

instance (a b : KubernetesRun) : Decidable (ToldApart a b) :=
  inferInstanceAs (Decidable (ite _ _ _))

/-! ### Names of runs -/

/-- The groups of the text of a run identifier. -/
theorem RunId.groups (runId : RunId) :
  (runId.text.toList.splitOn '-').map List.length = [8, 4, 4, 4, 12]
    ∧ ∀ group ∈ runId.text.toList.splitOn '-', ∀ c ∈ group, isKindChar c = true
  := by
  have h := runId.uuid
  simp only [isUuid, Bool.and_eq_true, decide_eq_true_eq, List.all_eq_true] at h
  use h.1
  intro group hgroup c hc
  apply isKindChar_of_isHexChar (h.2 group hgroup c hc)

/-- The text of a run identifier is tidy. -/
theorem RunId.tidy (runId : RunId) :
  Tidy '-' runId.text.toList
  := by
  rintro group hgroup rfl
  have hlength := List.mem_map_of_mem (f := List.length) hgroup
  rw [runId.groups.1] at hlength
  simp at hlength

/-- The text of a run identifier has 36 characters. -/
theorem RunId.length_text (runId : RunId) :
  runId.text.toList.length = 36
  := by
  have hjoined : ['-'].intercalate (runId.text.toList.splitOn '-') = runId.text.toList :=
    List.intercalate_splitOn '-'
  have hlengths := runId.groups.1
  generalize runId.text.toList.splitOn '-' = groups at hjoined hlengths
  obtain ⟨a, rest, rfl, ha, hlengths⟩ := List.map_eq_cons_iff.mp hlengths
  obtain ⟨b, rest, rfl, hb, hlengths⟩ := List.map_eq_cons_iff.mp hlengths
  obtain ⟨c, rest, rfl, hc, hlengths⟩ := List.map_eq_cons_iff.mp hlengths
  obtain ⟨d, rest, rfl, hd, hlengths⟩ := List.map_eq_cons_iff.mp hlengths
  obtain ⟨e, rest, rfl, he, hlengths⟩ := List.map_eq_cons_iff.mp hlengths
  obtain rfl := List.map_eq_nil_iff.mp hlengths
  rw [← hjoined]
  simp [ha, hb, hc, hd, he]

/-- The label of a run is tidy. -/
theorem KubernetesRun.tidy_label (run : KubernetesRun) :
  Tidy '-' run.label
  := tidy_append.mpr ⟨run.kind.tidy_label, run.runId.tidy⟩

/-- The name of the Job of a run is cut to 63 characters. -/
theorem KubernetesRun.toList_jobName {settings : ApiSettings} (hascii : settings.AsciiText)
    (run : KubernetesRun) :
  (run.jobName settings).toList = cut '-' 63 ("gk".toList ++ '-' :: run.label)
  := by
  have hvalue : ("gk-" ++ run.kind.text ++ "-" ++ run.runId.text).toList
      = "gk".toList ++ '-' :: (run.kind.text.toList ++ '-' :: run.runId.text.toList) := by
    simp [String.toList_append]
  apply kubernetesName_kind hascii run.kind "gk" run.runId.text hvalue
    (labelChars_of_all (by decide)) (by decide)
    (labelChar_of_splitOn run.runId.groups.2) run.runId.tidy

/-- The name of the Job of a run keeps 60 characters of its label. -/
theorem KubernetesRun.toList_jobName_eq {settings : ApiSettings} (hascii : settings.AsciiText)
    (run : KubernetesRun) :
  (run.jobName settings).toList = "gk-".toList ++ cut '-' 60 run.label
  := by
  have hlabel : cut '-' 60 run.label ≠ [] := run.tidy_label.cut_ne_nil (by decide)
  rw [run.toList_jobName hascii, ← cut_append "gk-".toList run.label hlabel]
  rfl

/-- The names of two Jobs are the same when the cuts of the labels of the runs are. -/
theorem jobName_eq_iff {settings : ApiSettings} (hascii : settings.AsciiText)
    {a b : KubernetesRun} :
  a.jobName settings = b.jobName settings ↔ cut '-' 60 a.label = cut '-' 60 b.label
  := by
  rw [← String.toList_inj, a.toList_jobName_eq hascii, b.toList_jobName_eq hascii,
    List.append_cancel_left_eq]

/-- The name of a Job is a DNS label. -/
theorem KubernetesRun.isDnsLabel_jobName {settings : ApiSettings} (hascii : settings.AsciiText)
    (run : KubernetesRun) :
  isDnsLabel (run.jobName settings) = true
  := by
  have hchars : ∀ c ∈ run.label, LabelChar c := by
    intro c hc
    rcases List.mem_append.mp hc with hc | hc
    · apply run.kind.label_chars c hc
    · rcases List.mem_cons.mp hc with rfl | hc
      · exact .inr rfl
      · apply labelChar_of_splitOn run.runId.groups.2 c hc
  apply isDnsLabel_cut (run.toList_jobName hascii)
  · apply tidy_append.mpr ⟨by decide, run.tidy_label⟩
  · intro c hc
    rcases List.mem_append.mp hc with hc | hc
    · have hfront : ∀ c ∈ "gk".toList, LabelChar c := labelChars_of_all (by decide)
      apply hfront c hc
    · rcases List.mem_cons.mp hc with rfl | hc
      · exact .inr rfl
      · apply hchars c hc

/-- Of a run of a kind the name keeps the first characters of the identifier, as many as the
kind leaves of 59. -/
theorem cut_label_eq_iff {a b : KubernetesRun} (h : a.kind.label = b.kind.label) :
  cut '-' 60 a.label = cut '-' 60 b.label
    ↔ a.runId.text.toList.take (59 - a.kind.label.length)
      = b.runId.text.toList.take (59 - a.kind.label.length)
  := by
  have hlength : a.runId.text.toList.length = b.runId.text.toList.length := by
    rw [a.runId.length_text, b.runId.length_text]
  have hsplit : ∀ run : KubernetesRun,
      run.label = (run.kind.label ++ ['-']) ++ run.runId.text.toList := by
    intro run
    rw [List.append_assoc]
    rfl
  rw [hsplit a, hsplit b, ← h]
  by_cases hroom : 59 ≤ a.kind.label.length
  · -- nothing of the identifier is left
    have hle : 60 ≤ (a.kind.label ++ ['-']).length := by
      rw [List.length_append, List.length_singleton]
      omega
    rw [cut_append_of_le _ _ hle, cut_append_of_le _ _ hle, Nat.sub_eq_zero_of_le hroom,
      List.take_zero, List.take_zero]
    simp
  · have hrest : 59 - a.kind.label.length ≠ 0 := by omega
    have hsum : 60 = (a.kind.label ++ ['-']).length + (59 - a.kind.label.length) := by
      rw [List.length_append, List.length_singleton]
      omega
    conv_lhs => rw [hsum]
    rw [cut_append _ _ (a.runId.tidy.cut_ne_nil hrest),
      cut_append _ _ (b.runId.tidy.cut_ne_nil hrest), List.append_cancel_left_eq,
      cut_eq_cut_iff hlength]

/-- Two runs are told apart when the cuts of their labels differ. -/
theorem toldApart_iff {a b : KubernetesRun} :
  ToldApart a b ↔ cut '-' 60 a.label ≠ cut '-' 60 b.label
  := by
  unfold ToldApart
  split
  case isTrue h => apply not_congr (cut_label_eq_iff h).symm
  case isFalse => rfl

/-- Two runs of one kind are told apart when the kind has at most 23 characters. -/
theorem toldApart_of_short {a b : KubernetesRun} (h : a.kind.label = b.kind.label)
    (hne : a.runId ≠ b.runId) (hshort : a.kind.label.length ≤ 23) :
  ToldApart a b
  := by
  unfold ToldApart
  rw [if_pos h, List.take_of_length_le, List.take_of_length_le]
  · intro heq
    apply hne
    have htext := String.toList_inj.mp heq
    cases hr : a.runId
    cases hr' : b.runId
    simp_all
  · rw [b.runId.length_text]
    omega
  · rw [a.runId.length_text]
    omega

/-! ### Cleanups -/

/-- Every object has the name that its owner gave it. -/
structure Owned (settings : ApiSettings) (runs : List KubernetesRun) (cluster : Cluster) :
    Prop where
  jobs : ∀ object ∈ cluster.jobs.rows, ∃ run, runs[object.owner]? = some run
    ∧ object.name = run.jobName settings
  configMaps : ∀ object ∈ cluster.configMaps.rows, ∃ run, runs[object.owner]? = some run
    ∧ object.name = run.configName settings

/-- What is there after a creation: what was there before, and maybe the new object. -/
theorem mem_createObject {objects : Table ClusterObject.name} {object other : ClusterObject}
    {call : ClusterCall} :
  (other ∈ objects.rows → other ∈ (createObject objects object call).2.rows)
    ∧ (other ∈ (createObject objects object call).2.rows → other ∈ objects.rows ∨ other = object)
  := by
  unfold createObject
  cases hinsert : (if call.effect then objects.insert? object else none) with
  | none => exact ⟨id, .inl⟩
  | some objects' =>
      split at hinsert
      case isFalse => cases hinsert
      case isTrue =>
        rw [Table.rows_insert? hinsert, List.mem_append, List.mem_singleton]
        exact ⟨.inl, id⟩

/-- What is there after a deletion was there before, and what has another name stays. -/
theorem mem_deleteObject {objects : Table ClusterObject.name} {name : String}
    {other : ClusterObject} {call : ClusterCall} :
  (other ∈ objects.rows → other.name ≠ name → other ∈ (deleteObject objects name call).rows)
    ∧ (other ∈ (deleteObject objects name call).rows → other ∈ objects.rows)
  := by
  unfold deleteObject
  split
  case isFalse => exact ⟨fun h _ => h, id⟩
  case isTrue =>
    constructor
    · intro h hname
      apply Table.mem_delete.mpr
      use h
      simpa using hname
    · intro h
      apply (Table.mem_delete.mp h).1

/-- The names of two runs of a population differ when no two of them have one name. -/
theorem name_ne_of_nodup {settings : ApiSettings} {runs : List KubernetesRun}
    (h : (runs.map (KubernetesRun.jobName settings)).Nodup) {i j : ℕ} {a b : KubernetesRun}
    (ha : runs[i]? = some a) (hb : runs[j]? = some b) (hij : i ≠ j) :
  a.jobName settings ≠ b.jobName settings
  := by
  intro heq
  have hi : (runs.map (KubernetesRun.jobName settings))[i]? = some (a.jobName settings) := by
    rw [List.getElem?_map, ha]
    rfl
  have hj : (runs.map (KubernetesRun.jobName settings))[j]? = some (b.jobName settings) := by
    rw [List.getElem?_map, hb]
    rfl
  apply hij
  apply (List.getElem?_inj (List.getElem?_eq_some_iff.mp hi).1 h).mp
  rw [hi, hj, heq]

/-- A call of a run keeps the names of all objects, and takes nothing from another run, if no
two runs have one name. -/
theorem Owned.step {settings : ApiSettings} {runs : List KubernetesRun}
    (hnodup : (runs.map (KubernetesRun.jobName settings)).Nodup) {cluster cluster' : Cluster}
    {call : ClusterCall} (h : Owned settings runs cluster)
    (hstep : clusterStep settings runs cluster call = some cluster') :
  Owned settings runs cluster' ∧ SparesOthers cluster call cluster'
  := by
  unfold clusterStep at hstep
  split at hstep
  case h_2 => cases hstep
  case h_1 run phase hrun hphase =>
    obtain ⟨⟨phase', after⟩, hobserved, rfl⟩ := Option.map_eq_some_iff.mp hstep
    -- an object of another run has another name
    have hjob : ∀ object ∈ cluster.jobs.rows, object.owner ≠ call.run →
        object.name ≠ run.jobName settings := by
      intro object hobject howner
      obtain ⟨other, hother, hname⟩ := h.jobs object hobject
      rw [hname]
      apply name_ne_of_nodup hnodup hother hrun howner
    have hconfig : ∀ object ∈ cluster.configMaps.rows, object.owner ≠ call.run →
        object.name ≠ run.configName settings := by
      intro object hobject howner heq
      obtain ⟨other, hother, hname⟩ := h.configMaps object hobject
      apply name_ne_of_nodup hnodup hother hrun howner
      rw [hname] at heq
      apply String.append_left_inj "-input" |>.mp heq
    cases phase with
    | createConfigMap =>
        cases hobserved
        constructor
        · constructor
          · apply h.jobs
          · intro object hobject
            rcases mem_createObject.2 hobject with hobject | rfl
            · apply h.configMaps object hobject
            · use run
        · exact ⟨fun _ hobject _ => hobject, fun _ hobject _ => mem_createObject.1 hobject⟩
    | createJob =>
        cases hobserved
        constructor
        · constructor
          · intro object hobject
            rcases mem_createObject.2 hobject with hobject | rfl
            · apply h.jobs object hobject
            · use run
          · apply h.configMaps
        · exact ⟨fun _ hobject _ => mem_createObject.1 hobject, fun _ hobject _ => hobject⟩
    | wait =>
        cases hobserved
        exact ⟨⟨h.jobs, h.configMaps⟩, fun _ hobject _ => hobject, fun _ hobject _ => hobject⟩
    | deleteJob =>
        cases hobserved
        constructor
        · constructor
          · intro object hobject
            apply h.jobs object (mem_deleteObject.2 hobject)
          · apply h.configMaps
        · constructor
          · intro object hobject howner
            apply mem_deleteObject.1 hobject (hjob object hobject howner)
          · intro object hobject howner
            apply hobject
    | deleteConfigMap =>
        cases hobserved
        constructor
        · constructor
          · apply h.jobs
          · intro object hobject
            apply h.configMaps object (mem_deleteObject.2 hobject)
        · constructor
          · intro object hobject howner
            apply hobject
          · intro object hobject howner
            apply mem_deleteObject.1 hobject (hconfig object hobject howner)
    | finished => cases hobserved

/-- The names of the Jobs of runs are DNS labels, they are pairwise different, and no run ever
deletes a Job or a ConfigMap of another one, when the runs are pairwise told apart, and only
then. -/
theorem jobNames_identify_runs {settings : ApiSettings} (hascii : settings.AsciiText)
    (runs : List KubernetesRun) :
  ((runs.map (KubernetesRun.jobName settings)).Nodup
    ∧ (∀ run ∈ runs, isDnsLabel (run.jobName settings) = true)
    ∧ ∀ calls, Along (clusterStep settings runs) SparesOthers (.initial runs) calls)
  ↔ runs.Pairwise ToldApart
  := by
  have hnames : (runs.map (KubernetesRun.jobName settings)).Nodup ↔ runs.Pairwise ToldApart := by
    rw [List.Nodup, List.pairwise_map]
    apply List.Pairwise.iff
    intro a b
    rw [toldApart_iff, ne_eq, jobName_eq_iff hascii]
  constructor
  · rintro ⟨hnodup, -, -⟩
    apply hnames.mp hnodup
  · intro hpairwise
    have hnodup := hnames.mpr hpairwise
    use hnodup, fun run _ => run.isDnsLabel_jobName hascii
    intro calls
    apply along_of_invariant (I := Owned settings runs) _ _ along_true
    · intro cluster call cluster' h _ hstep
      apply h.step hnodup hstep
    · constructor
      · intro object hobject
        cases hobject
      · intro object hobject
        cases hobject

/-- Two runs of a short kind, with identifiers that differ in the last character. -/
def shortRuns : List KubernetesRun :=
  [⟨⟨"notebook.report", by decide⟩, ⟨"0b9f8c1e-6a52-4d0e-9d3b-2f6f0e7a1c55", by decide⟩⟩,
    ⟨⟨"notebook.report", by decide⟩, ⟨"0b9f8c1e-6a52-4d0e-9d3b-2f6f0e7a1c56", by decide⟩⟩]

/-- The two runs of a short kind keep clear of each other. -/
theorem jobNames_shortRuns :
  (shortRuns.map (KubernetesRun.jobName asciiSettings)).Nodup
    ∧ (∀ run ∈ shortRuns, isDnsLabel (run.jobName asciiSettings) = true)
    ∧ ∀ calls, Along (clusterStep asciiSettings shortRuns) SparesOthers (.initial shortRuns) calls
  := by
  apply (jobNames_identify_runs asciiText_asciiSettings shortRuns).mpr
  apply List.pairwise_pair.mpr
  decide

/-- The first run creates its ConfigMap and its Job. The second run finds the name of its
ConfigMap taken, and deletes the Job with its name. -/
def refusedCalls : List ClusterCall :=
  [⟨0, true, false⟩, ⟨0, true, false⟩, ⟨1, true, false⟩]

/-- When two runs have one name, the cleanup of the second, of which nothing was created,
deletes the Job of the first. -/
theorem refused_deletes_other {settings : ApiSettings} {a b : KubernetesRun}
    (h : a.jobName settings = b.jobName settings) :
  ∃ cluster cluster', run (clusterStep settings [a, b]) (.initial [a, b]) refusedCalls = some cluster
    ∧ clusterStep settings [a, b] cluster ⟨1, true, false⟩ = some cluster'
    ∧ ¬ SparesOthers cluster ⟨1, true, false⟩ cluster'
  := by
  refine ⟨⟨⟨[⟨b.jobName settings, 0⟩], List.nodup_singleton _⟩,
    ⟨[⟨b.configName settings, 0⟩], List.nodup_singleton _⟩, [.wait, .deleteJob]⟩,
    ⟨.empty, ⟨[⟨b.configName settings, 0⟩], List.nodup_singleton _⟩, [.wait, .deleteConfigMap]⟩,
    ?_, ?_, ?_⟩
  · have hconfig : a.configName settings = b.configName settings := by
      rw [KubernetesRun.configName, h]
      rfl
    simp [run, refusedCalls, clusterStep, runObserved, createObject, Table.insert?, Table.empty,
      Cluster.initial, h, hconfig]
  · simp [clusterStep, runObserved, deleteObject, Table.delete, Table.empty]
  · intro hspares
    have hmem := hspares.1 ⟨b.jobName settings, 0⟩ List.mem_cons_self Nat.zero_ne_one
    cases hmem

/-- All runs of a kind of 59 or more characters have one name. -/
theorem jobName_eq_of_long {settings : ApiSettings} (hascii : settings.AsciiText)
    {a b : KubernetesRun} (hkind : a.kind.label = b.kind.label)
    (hlong : 59 ≤ a.kind.label.length) :
  a.jobName settings = b.jobName settings
  := by
  rw [jobName_eq_iff hascii, cut_label_eq_iff hkind, Nat.sub_eq_zero_of_le hlong,
    List.take_zero, List.take_zero]

/-- A kind of 60 characters. -/
def longKind : GoblinKind :=
  ⟨"notebook.quarterly.revenue.reconciliation.by.region.and.desk", by decide⟩

/-- A run of the long kind. -/
def longRun : KubernetesRun :=
  ⟨longKind, ⟨"0b9f8c1e-6a52-4d0e-9d3b-2f6f0e7a1c55", by decide⟩⟩

/-- Another run of the long kind. -/
def otherLongRun : KubernetesRun :=
  ⟨longKind, ⟨"7d1a2b3c-4e5f-4a6b-8c7d-9e0f1a2b3c4d", by decide⟩⟩

/-- Two runs of a kind of 60 characters have different identifiers and one name, and the
cleanup of the one deletes the Job of the other. -/
theorem longRuns_share_name :
  longRun.runId ≠ otherLongRun.runId
    ∧ longRun.jobName asciiSettings = otherLongRun.jobName asciiSettings
    ∧ ∃ cluster cluster',
        run (clusterStep asciiSettings [longRun, otherLongRun]) (.initial [longRun, otherLongRun])
          refusedCalls = some cluster
        ∧ clusterStep asciiSettings [longRun, otherLongRun] cluster ⟨1, true, false⟩ = some cluster'
        ∧ ¬ SparesOthers cluster ⟨1, true, false⟩ cluster'
  := by
  have hlong : 59 ≤ longKind.label.length := by decide +kernel
  have hname : longRun.jobName asciiSettings = otherLongRun.jobName asciiSettings :=
    jobName_eq_of_long asciiText_asciiSettings (a := longRun) (b := otherLongRun) rfl hlong
  refine ⟨by decide, hname, ?_⟩
  apply refused_deletes_other (a := longRun) (b := otherLongRun) hname

end GoblinKing
