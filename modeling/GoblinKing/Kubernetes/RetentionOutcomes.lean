import GoblinKing.Kubernetes.RetainedCopies
import Mathlib.Algebra.BigOperators.Group.List.Basic
import Mathlib.Algebra.Order.BigOperators.Group.List
import Mathlib.Algebra.Order.Ring.Nat

/-!
# All artifacts or none

A retention returns the result with all of its artifacts retained, or a failed result without
artifacts and with the retained directory as it was before, and what it has retained it retains
again, as long as nothing unexpected is on the way to a source, the modes of a new directory can be
set, files with the same digest are the same, and an artifact that is called `retained` has all the
bytes.
-/

namespace GoblinKing

open Posix Except

variable (host : RetentionHost) (result : WorkerResult) (request : ArtifactRetentionRequest)

/-! ### The property -/

/-- A file is kept for its artifact: it has the bytes of the source, it is stored, and its size and
its digest are among the metrics. -/
structure KeptFile.Kept (uriRoot : String) (returned : WorkerResult) (after : RetainedPlace)
    (file : KeptFile) : Prop where
  configured : request.uriRoot = some uriRoot
  source : ∃ sourceRoot, host.resolveRoot request.sourceRoot = .ok sourceRoot ∧
    SourceBytes host sourceRoot file.artifact file.bytes
  stored : ∃ directory, after = .directory directory ∧
    (file.storedName host, .file file.bytes) ∈ directory.rows
  size : returned.metrics (bytesMetric file.artifact.name) = some (.int file.bytes.size)
  digest : returned.metrics (sha256Metric file.artifact.name)
    = some (.text (host.sha256 file.bytes).text)

/-- The result is returned with one artifact for each declared one, all of them kept within the
limits and with addresses of their own. -/
def Retains (returned : WorkerResult) (after : RetainedPlace) : Prop :=
  ∃ (uriRoot : String) (kept : List KeptFile),
    returned = { result with
      artifacts := kept.map (KeptFile.record host uriRoot
        (retainedDirectory host request.projectId request.runId))
      metrics := returned.metrics } ∧
    kept.map KeptFile.artifact = result.artifacts ∧
    (returned.artifacts.map ArtifactRecord.uri).Nodup ∧
    (∀ file ∈ kept, file.Kept host request uriRoot returned after) ∧
    (((kept.map (fun file => file.bytes.size)).sum : ℕ) : ℤ) ≤ request.maxBytes ∧
    (kept.length : ℤ) ≤ request.maxFiles

/-- A failed result is returned without artifacts and without metrics of artifacts, and the
retained directory is as it was before. -/
structure Refuses (returned : WorkerResult) (before after : RetainedPlace) : Prop where
  status : returned.status = .failed
  artifacts : returned.artifacts = []
  metrics : ∀ name, isArtifactMetric name = true → returned.metrics name = none
  unchanged : after = before

/-- A retention returns and either retains all artifacts or refuses. -/
def AllOrNothing (before : RetainedPlace) : Prop :=
  ∃ returned, (retainResultArtifacts host result request before).1 = .ok returned ∧
    (Retains host result request returned (retainResultArtifacts host result request before).2 ∨
      Refuses returned before (retainResultArtifacts host result request before).2)

/-- What has been retained is retained again by a storage that does not fail, with the same result
and the same files. -/
def Repeatable (before : RetainedPlace) : Prop :=
  ∀ returned, (retainResultArtifacts host result request before).1 = .ok returned →
    Retains host result request returned (retainResultArtifacts host result request before).2 →
    retainResultArtifacts host.reliable result request
        (retainResultArtifacts host result request before).2
      = (.ok returned, (retainResultArtifacts host result request before).2)

/-! ### The condition -/

/-- A result without artifacts can be returned: the limits are not negative, or it is a failure
without metrics of artifacts. -/
def UndeclaredContained : Prop :=
  (0 ≤ request.maxBytes ∧ 0 ≤ request.maxFiles) ∨
    (result.status = .failed ∧ ∀ name, isArtifactMetric name = true → result.metrics name = none)

/-- The names under which the artifacts are stored. -/
def storedNames : List String :=
  result.artifacts.zipIdx.map (fun entry => storedName host entry.2 entry.1.name)

/-- There are some bytes in the source of the artifact that is stored under a name. -/
def StoredBytes (name : String) (bytes : ByteArray) : Prop :=
  ∃ entry ∈ result.artifacts.zipIdx, storedName host entry.2 entry.1.name = name ∧
    ∃ sourceRoot, host.resolveRoot request.sourceRoot = .ok sourceRoot ∧
      SourceBytes host sourceRoot entry.1 bytes

/-- An artifact that is called `retained` has all the bytes: the sources of the others are
empty. -/
def SummaryFits : Prop :=
  ∀ artifact ∈ result.artifacts, artifact.name = "retained" →
    ∀ other ∈ result.artifacts, other.name ≠ "retained" →
      ∀ sourceRoot bytes, host.resolveRoot request.sourceRoot = .ok sourceRoot →
        SourceBytes host sourceRoot other bytes → bytes.size = 0

/-- The modes of a directory with files of some names can be set. -/
def ModesReliable (names : List String) : Prop :=
  host.fault .chmodRetained = none ∧ host.fault .listModes = none ∧
    ∀ name ∈ names, host.fault (.chmodEntry name) = none

/-- The files of a directory have the bytes of the sources with the same digests. -/
def SameBytes (directory : Directory) : Prop :=
  ∀ name bytes contents, StoredBytes host result request name bytes →
    (name, .file contents) ∈ directory.rows →
      (host.sha256 contents).text = (host.sha256 bytes).text → contents = bytes

/-- What has been staged can take the place of the retained directory, or is there already. -/
def CommitContained (state : Retaining) (before : RetainedPlace) : Prop :=
  match before with
  | .other => True
  | .absent =>
      host.fault .lookUp = none → host.fault .rename = none →
        ModesReliable host (storedNames host result) ∧ SummaryFits host result request
  | .directory directory =>
      host.fault .lookUp = none → confirmRetained host state.staging directory = .ok () →
        SameBytes host result request directory ∧ SummaryFits host result request

/-- Nothing stands in the way of all artifacts or none. -/
def RetentionContained (before : RetainedPlace) : Prop :=
  if result.artifacts = [] then
    UndeclaredContained result request
  else
    RootsContained host request result ∧
      (∀ preparation, prepareStaging host result request = .ok preparation →
        SourcesContained host request result.metrics preparation 0 result.artifacts
          (.initial result.metrics)) ∧
      ∀ state, stageArtifacts host result request = .ok state →
        CommitContained host result request state before

/-! ### Staging -/

/-- What is known when all artifacts are staged. -/
structure Staged (preparation : Preparation) (kept : List KeptFile) (state : Retaining) : Prop where
  sourceRoot : host.resolveRoot request.sourceRoot = .ok preparation.sourceRoot
  uriRoot : request.uriRoot = some preparation.uriRoot
  relativeDirectory : preparation.relativeDirectory
    = retainedDirectory host request.projectId request.runId
  entries : kept.map KeptFile.entry = result.artifacts.zipIdx
  names : (result.artifacts.map ArtifactRecord.name).Nodup
  extension : Extends host preparation (.initial result.metrics) kept state
  maxFiles : (result.artifacts.length : ℤ) ≤ request.maxFiles
  maxBytes : (state.totalBytes : ℤ) ≤ request.maxBytes

section

variable {host} {result} {request} {state : Retaining}

/-- A checked request has a destination and limits that are kept. -/
theorem checkRequest_ok {destinationRoot : Path} {uriRoot : String}
    (h : checkRequest result request = .ok (destinationRoot, uriRoot)) :
  request.uriRoot = some uriRoot ∧ 0 ≤ request.maxBytes ∧
    (result.artifacts.length : ℤ) ≤ request.maxFiles ∧
    (result.artifacts.map ArtifactRecord.name).Nodup
  := by
  unfold checkRequest at h
  split at h
  case h_1 hdestination huri =>
    simp only [bind_eq_ok] at h
    obtain ⟨⟨⟩, hlimits, ⟨⟩, hfiles, ⟨⟩, hnames, h⟩ := h
    cases h
    rw [refuseIf_ok, decide_eq_false_iff_not, not_or, not_lt, not_lt] at hlimits
    rw [refuseIf_ok, decide_eq_false_iff_not, not_lt] at hfiles
    rw [refuseIf_ok, decide_eq_false_iff_not, not_not] at hnames
    exact ⟨huri, hlimits.2, hfiles, hnames⟩
  case h_2 => cases h

/-- All artifacts are staged as kept files. -/
theorem stageArtifacts_ok (h : stageArtifacts host result request = .ok state) :
  ∃ preparation kept, Staged host result request preparation kept state
  := by
  obtain ⟨preparation, hprepare, hloop⟩ := bind_eq_ok.mp h
  obtain ⟨kept, hkept, hextends, hlimit⟩ := retainFrom_ok hloop
  use preparation, kept
  simp only [prepareStaging, bind_eq_ok] at hprepare
  obtain ⟨⟨destinationRoot, uriRoot⟩, hcheck, sourceRoot, hroot, -, -, -, -, -, -, -, -, -, -,
    hprepare⟩ := hprepare
  cases hprepare
  obtain ⟨huri, hmaxBytes, hmaxFiles, hnames⟩ := checkRequest_ok hcheck
  exact {
    sourceRoot := hroot
    uriRoot := huri
    relativeDirectory := rfl
    entries := hkept
    names := hnames
    extension := hextends
    maxFiles := hmaxFiles
    maxBytes := hlimit (by simpa [Retaining.initial] using hmaxBytes) }

/-- The summary overrides the size of an artifact that is called `retained`. -/
theorem summary_bytesMetric (name : String) :
  state.summary (bytesMetric name)
    = if name = "retained" then some (.int state.totalBytes) else state.metrics (bytesMetric name)
  := by
  rw [Retaining.summary, retainedBytes_eq]
  by_cases hname : name = "retained"
  · rw [if_pos hname, hname, Function.update_self]
  · rw [if_neg hname, Function.update_of_ne (fun h => hname (bytesMetric_inj.mp h)),
      Function.update_of_ne (retainedFiles_ne name).1]

/-- The summary does not override a digest. -/
theorem summary_sha256Metric (name : String) :
  state.summary (sha256Metric name) = state.metrics (sha256Metric name)
  := by
  rw [Retaining.summary, retainedBytes_eq,
    Function.update_of_ne (bytesMetric_ne_sha256Metric _ _).symm,
    Function.update_of_ne (retainedFiles_ne name).2]

end

/-! ### Commits -/

section

variable {host} {staging : Staging} {directory : Directory}

/-- Files that match have the same digests. -/
theorem digestsMatch_ok {names : List String}
    (h : digestsMatch host staging directory names = .ok true) :
  ∀ name ∈ names, stagedDigest host staging name = retainedDigest host directory name
  := by
  induction names with
  | nil =>
      intro name hname
      cases hname
  | cons first names ih =>
      simp only [digestsMatch, bind_eq_ok] at h
      obtain ⟨-, -, -, -, h⟩ := h
      split at h
      case isTrue hfirst =>
        intro name hname
        rcases List.mem_cons.mp hname with rfl | hname
        · exact hfirst
        · exact ih h name hname
      case isFalse => cases h

/-- Entries whose modes are set are files and no links. -/
theorem chmodEntries_ok {entries : List (String × RetainedEntry)}
    (h : chmodEntries host entries = .ok ()) :
  ∀ entry ∈ entries, entry.2.isPlain = true
  := by
  induction entries with
  | nil =>
      intro entry hentry
      cases hentry
  | cons first entries ih =>
      simp only [chmodEntries, bind_eq_ok] at h
      obtain ⟨⟨⟩, hplain, -, -, h⟩ := h
      intro entry hentry
      rcases List.mem_cons.mp hentry with rfl | hentry
      · simpa using refuseIf_ok.mp hplain
      · exact ih h entry hentry

/-- The modes of files are set exactly when no operation fails. -/
theorem chmodEntries_plain {entries : List (String × RetainedEntry)}
    (hplain : ∀ entry ∈ entries, entry.2.isPlain = true) :
  chmodEntries host entries = .ok () ↔ ∀ entry ∈ entries, host.fault (.chmodEntry entry.1) = none
  := by
  induction entries with
  | nil => simp [chmodEntries]
  | cons first entries ih =>
      rw [List.forall_mem_cons] at hplain
      obtain ⟨hfirst, hrest⟩ := hplain
      simp only [chmodEntries, bind_eq_ok, List.forall_mem_cons]
      rw [← ih hrest, ← attempt_ok]
      constructor
      · rintro ⟨_, _, ⟨⟩, hattempt, h⟩
        exact ⟨hattempt, h⟩
      · rintro ⟨hattempt, h⟩
        exact ⟨(), by rw [hfirst]; rfl, (), hattempt, h⟩

/-- The entries of a staged directory are files. -/
theorem isPlain_of_mem_stagedDirectory :
  ∀ entry ∈ (stagedDirectory staging).rows, entry.2.isPlain = true
  := by
  intro entry hentry
  obtain ⟨file, -, rfl⟩ := List.mem_map.mp hentry
  rfl

/-- The modes of a staged directory are set exactly when no operation fails. -/
theorem applyRetainedModes_stagedDirectory :
  applyRetainedModes host (stagedDirectory staging) = .ok () ↔
    ModesReliable host (staging.rows.map Prod.fst)
  := by
  simp only [applyRetainedModes, bind_eq_ok, ModesReliable, List.forall_mem_map, ← attempt_ok]
  have hentries := @chmodEntries_plain host _ (@isPlain_of_mem_stagedDirectory staging)
  simp only [stagedDirectory, List.forall_mem_map, ← attempt_ok] at hentries
  rw [← hentries]
  constructor
  · rintro ⟨⟨⟩, hchmod, ⟨⟩, hlist, h⟩
    exact ⟨hchmod, hlist, h⟩
  · rintro ⟨hchmod, hlist, h⟩
    exact ⟨(), hchmod, (), hlist, h⟩

/-- A confirmed directory has a file with the same digest for every staged file. -/
theorem confirmRetained_ok (h : confirmRetained host staging directory = .ok ()) :
  ∀ file ∈ staging.rows, ∃ contents, (file.1, .file contents) ∈ directory.rows ∧
    (host.sha256 contents).text = (host.sha256 file.2).text
  := by
  simp only [confirmRetained, bind_eq_ok, applyRetainedModes] at h
  obtain ⟨same, hmatch, ⟨⟩, hsame, -, -, -, -, -, -, hmodes⟩ := h
  rw [refuseIf_ok, Bool.not_eq_false'] at hsame
  subst hsame
  simp only [directoriesMatch, bind_eq_ok] at hmatch
  obtain ⟨-, -, -, -, hmatch⟩ := hmatch
  split at hmatch
  case isFalse => cases hmatch
  case isTrue hnames =>
    intro file hfile
    have hname : file.1 ∈ sortedNames staging.rows := by
      rw [sortedNames, List.mem_insertionSort]
      exact List.mem_map_of_mem hfile
    have hdigest := digestsMatch_ok hmatch _ hname
    rw [hnames.2, sortedNames, List.mem_insertionSort, List.mem_map] at hname
    obtain ⟨⟨name, entry⟩, hentry, rfl⟩ := hname
    have hplain := chmodEntries_ok hmodes _ hentry
    cases entry with
    | file contents =>
        use contents, hentry
        rw [stagedDigest, retainedDigest, Table.find?_of_mem hfile] at hdigest
        rw [show directory.find? file.1 = _ from Table.find?_of_mem hentry] at hdigest
        exact (Option.some.inj hdigest).symm
    | link contents => cases hplain
    | other => cases hplain

/-- A confirmed directory holds the staged files exactly when there are the same bytes under the
same digests. -/
theorem rows_subset_iff (h : confirmRetained host staging directory = .ok ()) :
  (∀ file ∈ staging.rows, (file.1, .file file.2) ∈ directory.rows) ↔
    ∀ file ∈ staging.rows, ∀ contents, (file.1, .file contents) ∈ directory.rows →
      (host.sha256 contents).text = (host.sha256 file.2).text → contents = file.2
  := by
  constructor
  · intro hrows file hfile contents hcontents _
    have heq := directory.eq_of_key_eq hcontents (hrows file hfile) rfl
    rw [Prod.mk.injEq, RetainedEntry.file.injEq] at heq
    exact heq.2
  · intro hsame file hfile
    obtain ⟨contents, hcontents, hdigest⟩ := confirmRetained_ok h file hfile
    rw [← hsame file hfile contents hcontents hdigest]
    exact hcontents

/-- The digests in a staged directory are those of the staged files. -/
theorem retainedDigest_stagedDirectory (name : String) :
  retainedDigest host (stagedDirectory staging) name = stagedDigest host staging name
  := by
  have hfind : (stagedDirectory staging).find? name
      = (staging.find? name).map (fun file => (file.1, .file file.2)) := List.find?_map
  rw [retainedDigest, stagedDigest, hfind]
  cases staging.find? name <;> rfl

/-- A reliable storage confirms the directory that has been staged. -/
theorem confirmRetained_reliable :
  confirmRetained host.reliable staging (stagedDirectory staging) = .ok ()
  := by
  have hdigests : ∀ names,
      digestsMatch host.reliable staging (stagedDirectory staging) names = .ok true := by
    intro names
    induction names with
    | nil => rfl
    | cons name names ih =>
        simp only [digestsMatch, retainedDigest_stagedDirectory, if_true, ih]
        rfl
  have hmatch : directoriesMatch host.reliable staging (stagedDirectory staging) = .ok true := by
    have hfiles : ((stagedDirectory staging).rows.all (fun entry => entry.2.isFile)) = true ∧
        sortedNames staging.rows = sortedNames (stagedDirectory staging).rows := by
      constructor
      · rw [List.all_eq_true]
        intro entry hentry
        obtain ⟨file, -, rfl⟩ := List.mem_map.mp hentry
        rfl
      · rw [sortedNames, sortedNames, stagedDirectory, List.map_map]
        rfl
    rw [directoriesMatch, if_pos hfiles, hdigests]
    rfl
  have hmodes : applyRetainedModes host.reliable (stagedDirectory staging) = .ok () :=
    applyRetainedModes_stagedDirectory.mpr ⟨rfl, rfl, fun _ _ => rfl⟩
  rw [confirmRetained, hmatch, hmodes]
  rfl

end

/-- A commit is refused or fails with an `OSError`. -/
theorem within_commitStaging (staging : Staging) (before : RetainedPlace) :
  Within Caught (commitStaging host staging before).1
  := by
  have hmodes : ∀ directory, Within Caught (applyRetainedModes host directory) := by
    intro directory
    apply (within_attempt host _).andThen
    intro _
    apply (within_attempt host _).andThen
    intro _
    generalize directory.rows = entries
    induction entries with
    | nil => apply within_ok
    | cons entry entries ih =>
        rw [chmodEntries]
        apply (within_refuseIf _ _).andThen
        intro _
        apply (within_attempt host _).andThen
        intro _
        exact ih
  have hdigests : ∀ directory names, Within Caught (digestsMatch host staging directory names) := by
    intro directory names
    induction names with
    | nil => apply within_ok
    | cons name names ih =>
        rw [digestsMatch]
        apply (within_attempt host _).andThen
        intro _
        apply (within_attempt host _).andThen
        intro _
        split
        · exact ih
        · apply within_ok
  have hconfirm : ∀ directory, Within Caught (confirmRetained host staging directory) := by
    intro directory
    unfold confirmRetained directoriesMatch
    apply Within.andThen
    · apply (within_attempt host _).andThen
      intro _
      apply (within_attempt host _).andThen
      intro _
      split
      · apply hdigests
      · apply within_ok
    · intro same
      apply (within_refuseIf _ _).andThen
      intro _
      apply (within_attempt host _).andThen
      intro _
      apply hmodes
  unfold commitStaging
  split
  case h_1 error h => exact within_error.mpr (within_attempt host _ error h)
  case h_2 =>
    cases before with
    | directory directory => apply hconfirm
    | other => exact within_error.mpr (caught_storageError _)
    | absent =>
        dsimp only
        split
        case h_1 error h => exact within_error.mpr (within_attempt host _ error h)
        case h_2 => apply hmodes

/-! ### Outcomes -/

section

variable {host} {result} {request} {before after : RetainedPlace} {state : Retaining}

/-- A failure refuses exactly when the retained directory is as it was before. -/
theorem refuses_artifactRetentionFailure {reason : String} :
  Refuses (artifactRetentionFailure result reason) before after ↔ after = before
  := by
  constructor
  · intro h
    exact h.unchanged
  · intro h
    constructor
    case status => rfl
    case artifacts => rfl
    case metrics =>
      intro name hname
      exact if_pos hname
    case unchanged => exact h

/-- Nothing is retained by a result without artifacts, unless none are declared. -/
theorem not_retains_of_nil {returned : WorkerResult} (hartifacts : result.artifacts ≠ [])
    (hreturned : returned.artifacts = []) :
  ¬ Retains host result request returned after
  := by
  rintro ⟨uriRoot, kept, heq, hkept, -⟩
  apply hartifacts
  rw [heq] at hreturned
  rw [← hkept, List.map_eq_nil_iff.mp hreturned, List.map_nil]

variable (hartifacts : result.artifacts ≠ [])
include hartifacts

/-- A refusal or an `OSError` is turned into a failed result. -/
theorem retainResultArtifacts_of_caught {error : Raised} (hcaught : Caught error)
    (h : retainAll host result request before = (.error error, after)) :
  ∃ reason, retainResultArtifacts host result request before
    = (.ok (artifactRetentionFailure result reason), after)
  := by
  rw [retainResultArtifacts, if_neg hartifacts, h]
  rcases hcaught with hkind | hkind
  · use error.message
    simp only [hkind]
  · use "artifact storage I/O did not complete"
    simp only [hkind]

/-- All or nothing holds of a failure exactly when the retained directory is as it was before. -/
theorem allOrNothing_of_caught {error : Raised} (hcaught : Caught error)
    (h : retainAll host result request before = (.error error, after)) :
  AllOrNothing host result request before ↔ after = before
  := by
  obtain ⟨reason, hretain⟩ := retainResultArtifacts_of_caught hartifacts hcaught h
  rw [AllOrNothing, hretain]
  simp only [Except.ok.injEq, exists_eq_left', refuses_artifactRetentionFailure]
  apply or_iff_right
  exact not_retains_of_nil hartifacts rfl

/-- Another exception is raised. -/
theorem not_allOrNothing_of_raised {error : Raised} (hraised : ¬ Caught error)
    (h : retainAll host result request before = (.error error, after)) :
  ¬ AllOrNothing host result request before
  := by
  rintro ⟨returned, hreturned, -⟩
  rw [retainResultArtifacts, if_neg hartifacts, h] at hreturned
  unfold Caught at hraised
  cases hkind : error.kind <;> simp_all

/-- All or nothing holds of a success exactly when all artifacts are retained. -/
theorem allOrNothing_of_retained {artifacts : List ArtifactRecord} {metrics : Metrics}
    (hretained : artifacts ≠ [])
    (h : retainAll host result request before = (.ok (artifacts, metrics), after)) :
  AllOrNothing host result request before ↔
    Retains host result request { result with artifacts := artifacts, metrics := metrics } after
  := by
  rw [AllOrNothing, retainResultArtifacts, if_neg hartifacts, h]
  simp only [Except.ok.injEq, exists_eq_left']
  apply or_iff_left
  intro hrefuses
  apply hretained hrefuses.artifacts

end

/-! ### Kept files -/

/-- Lists with the same images under two functions have elements with the same images. -/
theorem exists_of_map_eq {α β γ : Type} {f : α → β} {g : α → γ} {l l' : List α}
    (hf : l.map f = l'.map f) (hg : l.map g = l'.map g) {a : α} (ha : a ∈ l) :
  ∃ b ∈ l', f b = f a ∧ g b = g a
  := by
  induction l generalizing l' with
  | nil => cases ha
  | cons first l ih =>
      cases l' with
      | nil => cases hf
      | cons first' l' =>
          obtain ⟨hf, hf'⟩ := List.cons.inj hf
          obtain ⟨hg, hg'⟩ := List.cons.inj hg
          rcases List.mem_cons.mp ha with rfl | ha
          · exact ⟨first', List.mem_cons_self, hf.symm, hg.symm⟩
          · obtain ⟨b, hb, hb'⟩ := ih hf' hg' ha
            exact ⟨b, List.mem_cons_of_mem first' hb, hb'⟩

section

variable {host} {result} {request} {preparation : Preparation} {kept : List KeptFile}
  {state : Retaining} (h : Staged host result request preparation kept state)
include h

/-- There is one kept file for each artifact. -/
theorem Staged.artifacts :
  kept.map KeptFile.artifact = result.artifacts
  := by
  have hfirst := congrArg (List.map Prod.fst) h.entries
  rw [List.map_map, List.zipIdx_map_fst] at hfirst
  exact hfirst

/-- The indices of the kept files are increasing. -/
theorem Staged.indices :
  kept.Pairwise (fun file other => file.index < other.index)
  := by
  have hsecond := congrArg (List.map Prod.snd) h.entries
  rw [List.map_map, List.zipIdx_map_snd] at hsecond
  rw [← List.pairwise_map (f := KeptFile.index), show kept.map KeptFile.index = _ from hsecond]
  exact List.pairwise_lt_range'

/-- The artifacts that are retained are the records of the kept files. -/
theorem Staged.retained :
  state.retained = kept.map (KeptFile.record host preparation.uriRoot
    (retainedDirectory host request.projectId request.runId))
  := by
  rw [h.extension.retained, ← h.relativeDirectory]
  rfl

/-- The staged files are the kept files. -/
theorem Staged.mem_rows {name : String} {bytes : ByteArray} :
  (name, bytes) ∈ state.staging.rows ↔
    ∃ file ∈ kept, file.storedName host = name ∧ file.bytes = bytes
  := by
  rw [h.extension.rows]
  simp [Retaining.initial, Table.empty]

/-- The number of bytes is the sum of the sizes. -/
theorem Staged.totalBytes :
  state.totalBytes = (kept.map (fun file => file.bytes.size)).sum
  := by
  rw [h.extension.totalBytes]
  simp [Retaining.initial]

/-- The kept files have addresses of their own. -/
theorem Staged.nodup_uris :
  (state.retained.map ArtifactRecord.uri).Nodup
  := by
  rw [h.retained, List.map_map, List.Nodup, List.pairwise_map]
  apply h.indices.imp
  intro file other hindices heq
  apply hindices.ne
  exact index_of_retainedUri host heq

/-- The names of the kept files are different. -/
theorem Staged.nodup_names :
  (kept.map (fun file => file.artifact.name)).Nodup
  := by
  have hnames := h.names
  rw [← h.artifacts, List.map_map] at hnames
  exact hnames

/-- The metrics of a kept file are its size and its digest, unless the summary overrides the
size. -/
theorem Staged.summary {file : KeptFile} (hfile : file ∈ kept) :
  state.summary (bytesMetric file.artifact.name)
      = (if file.artifact.name = "retained" then
          some (.int state.totalBytes)
        else
          some (.int file.bytes.size)) ∧
    state.summary (sha256Metric file.artifact.name)
      = some (.text (host.sha256 file.bytes).text)
  := by
  obtain ⟨hbytes, hsha256⟩ := foldl_addMetrics_of_mem host h.nodup_names hfile
  rw [summary_bytesMetric, summary_sha256Metric, h.extension.metrics, hbytes, hsha256]
  exact ⟨rfl, rfl⟩

/-- A kept file has the bytes of its source. -/
theorem Staged.source {file : KeptFile} (hfile : file ∈ kept) :
  ∃ sourceRoot, host.resolveRoot request.sourceRoot = .ok sourceRoot ∧
    SourceBytes host sourceRoot file.artifact file.bytes
  := ⟨_, h.sourceRoot, h.extension.source file hfile⟩

/-- The names of the staged files. -/
theorem Staged.names_rows :
  state.staging.rows.map Prod.fst = storedNames host result
  := by
  rw [h.extension.rows, storedNames, ← h.entries, List.map_map]
  simp only [Retaining.initial, Table.empty, List.nil_append, List.map_map]
  rfl

/-- The staged files have the bytes of the sources. -/
theorem Staged.mem_rows_iff {name : String} {bytes : ByteArray} :
  (name, bytes) ∈ state.staging.rows ↔ StoredBytes host result request name bytes
  := by
  rw [h.mem_rows, StoredBytes, ← h.entries]
  simp only [List.mem_map, exists_exists_and_eq_and, h.sourceRoot, Except.ok.injEq,
    exists_eq_left']
  constructor
  · rintro ⟨file, hfile, hname, rfl⟩
    exact ⟨file, hfile, hname, h.extension.source file hfile⟩
  · rintro ⟨file, hfile, hname, hsource⟩
    exact ⟨file, hfile, hname, (h.extension.source file hfile).unique hsource⟩

/-- A kept file has all the bytes exactly when the others are empty. -/
theorem Staged.size_eq_iff {file : KeptFile} (hfile : file ∈ kept) :
  file.bytes.size = state.totalBytes ↔
    ∀ other ∈ kept, other.artifact.name ≠ file.artifact.name → other.bytes.size = 0
  := by
  classical
  rw [h.totalBytes, ← List.sum_map_erase (fun file => file.bytes.size) hfile, left_eq_add,
    List.sum_eq_zero_iff, List.forall_mem_map]
  apply forall_congr'
  intro other
  rw [(List.Nodup.of_map _ h.nodup_names).mem_erase_iff, and_comm, and_imp]
  apply imp_congr_right
  intro hother
  apply imp_congr_left
  apply not_congr
  constructor
  · exact congrArg (fun file : KeptFile => file.artifact.name)
  · exact List.inj_on_of_nodup_map h.nodup_names hother hfile

/-- The summary fits exactly when a kept file that is called `retained` has all the bytes. -/
theorem Staged.summaryFits_iff :
  SummaryFits host result request ↔
    ∀ file ∈ kept, file.artifact.name = "retained" → file.bytes.size = state.totalBytes
  := by
  simp only [SummaryFits, ← h.artifacts, List.forall_mem_map, h.sourceRoot, Except.ok.injEq]
  apply forall₂_congr
  intro file hfile
  apply imp_congr_right
  intro hname
  rw [h.size_eq_iff hfile, hname]
  apply forall₂_congr
  intro other hother
  apply imp_congr_right
  intro _
  constructor
  · intro hempty
    exact hempty _ _ rfl (h.extension.source other hother)
  · rintro hempty _ bytes rfl hbytes
    rw [hbytes.unique (h.extension.source other hother)]
    exact hempty

/-- A confirmed directory holds the staged files exactly when its files have the bytes of the
sources with the same digests. -/
theorem Staged.sameBytes_iff {directory : Directory}
    (hconfirm : confirmRetained host state.staging directory = .ok ()) :
  (∀ file ∈ state.staging.rows, (file.1, .file file.2) ∈ directory.rows) ↔
    SameBytes host result request directory
  := by
  rw [rows_subset_iff hconfirm, SameBytes]
  simp only [Prod.forall, h.mem_rows_iff]
  constructor
  · intro hsame name bytes contents hbytes
    exact hsame name bytes hbytes contents
  · intro hsame name bytes hbytes contents
    exact hsame name bytes contents hbytes

/-- All artifacts are retained exactly when the staged files are in the directory and the summary
fits. -/
theorem Staged.retains_iff {directory : Directory} :
  Retains host result request
      { result with artifacts := state.retained, metrics := state.summary } (.directory directory) ↔
    (∀ file ∈ state.staging.rows, (file.1, .file file.2) ∈ directory.rows) ∧
      SummaryFits host result request
  := by
  rw [h.summaryFits_iff]
  constructor
  · rintro ⟨uriRoot, others, hreturned, hartifacts, -, hothers, -, -⟩
    have hrecords : state.retained = others.map (KeptFile.record host uriRoot
        (retainedDirectory host request.projectId request.runId)) :=
      congrArg WorkerResult.artifacts hreturned
    constructor
    · rintro ⟨name, bytes⟩ hmem
      obtain ⟨file, hfile, rfl, rfl⟩ := h.mem_rows.mp hmem
      have huriRoot : uriRoot = preparation.uriRoot := by
        cases others with
        | nil =>
            rw [h.retained, List.map_nil, List.map_eq_nil_iff] at hrecords
            rw [hrecords] at hfile
            cases hfile
        | cons other others =>
            have hconfigured := (hothers other List.mem_cons_self).configured
            rw [h.uriRoot, Option.some.injEq] at hconfigured
            exact hconfigured.symm
      rw [h.retained, huriRoot] at hrecords
      obtain ⟨other, hother, hartifact, hrecord⟩ :=
        exists_of_map_eq (h.artifacts.trans hartifacts.symm) hrecords hfile
      obtain ⟨-, ⟨sourceRoot, hroot, hsource⟩, ⟨directory', hdirectory, hstored⟩, -, -⟩ :=
        hothers other hother
      cases hdirectory
      have hindex := index_of_retainedUri host (congrArg ArtifactRecord.uri hrecord)
      rw [h.sourceRoot, Except.ok.injEq] at hroot
      subst hroot
      rw [hartifact] at hsource
      rw [KeptFile.storedName, hartifact, hindex,
        hsource.unique (h.extension.source file hfile)] at hstored
      exact hstored
    · intro file hfile hname
      have hartifact : file.artifact ∈ others.map KeptFile.artifact := by
        rw [hartifacts, ← h.artifacts]
        exact List.mem_map_of_mem hfile
      obtain ⟨other, hother, heq⟩ := List.mem_map.mp hartifact
      obtain ⟨-, ⟨sourceRoot, hroot, hsource⟩, -, hsize, -⟩ := hothers other hother
      rw [h.sourceRoot, Except.ok.injEq] at hroot
      subst hroot
      rw [heq] at hsource
      dsimp only at hsize
      rw [heq, summary_bytesMetric, if_pos hname, Option.some.injEq, JsonScalar.int.injEq,
        Nat.cast_inj] at hsize
      rw [(h.extension.source file hfile).unique hsource, hsize]
  · rintro ⟨hrows, hsummary⟩
    use preparation.uriRoot, kept
    refine ⟨by rw [h.retained], h.artifacts, h.nodup_uris, ?_, ?_, ?_⟩
    · intro file hfile
      obtain ⟨hsize, hdigest⟩ := h.summary hfile
      constructor
      case configured => exact h.uriRoot
      case source => exact h.source hfile
      case stored => exact ⟨directory, rfl, hrows _ (h.mem_rows.mpr ⟨file, hfile, rfl, rfl⟩)⟩
      case digest => exact hdigest
      case size =>
        dsimp only
        rw [hsize]
        split
        case isTrue hname => rw [hsummary file hfile hname]
        case isFalse => rfl
    · rw [← h.totalBytes]
      exact h.maxBytes
    · have hlength := h.maxFiles
      rw [← h.artifacts, List.length_map] at hlength
      exact hlength

end

/-! ### The theorem -/

section

variable {host} {result} {request} {before : RetainedPlace} {state : Retaining}

/-- What is retained by a commit. -/
theorem retainAll_of_staged (hstage : stageArtifacts host result request = .ok state)
    (before : RetainedPlace) :
  retainAll host result request before
    = ((commitStaging host state.staging before).1.map (fun _ => (state.retained, state.summary)),
      (commitStaging host state.staging before).2)
  := by
  rw [retainAll, hstage]

/-- Behind a look-up that fails, all or nothing is not at stake. -/
theorem commitContained_of_lookUp (h : host.fault .lookUp ≠ none) :
  CommitContained host result request state before
  := by
  cases before with
  | other => trivial
  | absent =>
      intro hlookUp
      cases h hlookUp
  | directory directory =>
      intro hlookUp
      cases h hlookUp

variable (hartifacts : result.artifacts ≠ [])
  (hstage : stageArtifacts host result request = .ok state)
include hartifacts hstage

/-- Some artifact has been retained. -/
theorem retained_ne_nil : state.retained ≠ []
  := by
  obtain ⟨preparation, kept, hstaged⟩ := stageArtifacts_ok hstage
  rw [hstaged.retained, ne_eq, List.map_eq_nil_iff]
  rintro rfl
  exact hartifacts hstaged.artifacts.symm

/-- Behind staged artifacts, all or nothing depends on the commit. -/
theorem allOrNothing_of_staged :
  AllOrNothing host result request before ↔ CommitContained host result request state before
  := by
  obtain ⟨preparation, kept, hstaged⟩ := stageArtifacts_ok hstage
  have hretain := retainAll_of_staged hstage before
  -- a commit that fails is judged by the retained directory
  have hfailed : ∀ error, (commitStaging host state.staging before).1 = .error error →
      (AllOrNothing host result request before ↔
        (commitStaging host state.staging before).2 = before) := by
    intro error herror
    rw [herror] at hretain
    exact allOrNothing_of_caught hartifacts (within_commitStaging host _ _ error herror) hretain
  -- a commit that succeeds is judged by what it has retained
  have hcommitted : (commitStaging host state.staging before).1 = .ok () →
      (AllOrNothing host result request before ↔
        Retains host result request
          { result with artifacts := state.retained, metrics := state.summary }
          (commitStaging host state.staging before).2) := by
    intro hok
    rw [hok] at hretain
    exact allOrNothing_of_retained hartifacts (retained_ne_nil hartifacts hstage) hretain
  cases hlookUp : host.attempt .lookUp with
  | error error =>
      have hcommit : commitStaging host state.staging before = (.error error, before) := by
        unfold commitStaging
        rw [hlookUp]
      rw [hfailed error (by rw [hcommit]), hcommit]
      refine iff_of_true rfl (commitContained_of_lookUp ?_)
      rw [ne_eq, ← attempt_ok, hlookUp]
      simp
  | ok _ =>
      have hlookUp' := (attempt_ok host).mp hlookUp
      cases before with
      | other =>
          have hcommit : commitStaging host state.staging .other
              = (.error (storageError "Not a directory"), .other) := by
            unfold commitStaging
            rw [hlookUp]
          rw [hfailed _ (by rw [hcommit]), hcommit]
          exact iff_of_true rfl trivial
      | directory directory =>
          have hcommit : commitStaging host state.staging (.directory directory)
              = (confirmRetained host state.staging directory, .directory directory) := by
            unfold commitStaging
            rw [hlookUp]
          cases hconfirm : confirmRetained host state.staging directory with
          | error error =>
              rw [hfailed error (by rw [hcommit, hconfirm]), hcommit]
              refine iff_of_true rfl ?_
              intro _ hok
              rw [hconfirm] at hok
              cases hok
          | ok _ =>
              rw [hcommitted (by rw [hcommit, hconfirm]), hcommit, hstaged.retains_iff,
                CommitContained, imp_iff_right hlookUp', imp_iff_right hconfirm]
              apply and_congr_left
              intro _
              exact hstaged.sameBytes_iff hconfirm
      | absent =>
          cases hrename : host.attempt .rename with
          | error error =>
              have hcommit : commitStaging host state.staging .absent = (.error error, .absent) := by
                unfold commitStaging
                rw [hlookUp]
                dsimp only
                rw [hrename]
              rw [hfailed error (by rw [hcommit]), hcommit]
              refine iff_of_true rfl ?_
              intro _ hnone
              rw [(attempt_ok host).mpr hnone] at hrename
              cases hrename
          | ok _ =>
              have hcommit : commitStaging host state.staging .absent
                  = (applyRetainedModes host (stagedDirectory state.staging),
                    .directory (stagedDirectory state.staging)) := by
                unfold commitStaging
                rw [hlookUp]
                dsimp only
                rw [hrename]
              rw [CommitContained, imp_iff_right hlookUp',
                imp_iff_right ((attempt_ok host).mp hrename), ← hstaged.names_rows,
                ← applyRetainedModes_stagedDirectory]
              cases hmodes : applyRetainedModes host (stagedDirectory state.staging) with
              | error error =>
                  rw [hfailed error (by rw [hcommit, hmodes]), hcommit]
                  exact iff_of_false (by simp) (by simp)
              | ok _ =>
                  rw [hcommitted (by rw [hcommit, hmodes]), hcommit, hstaged.retains_iff]
                  apply and_congr_left
                  intro _
                  refine iff_of_true ?_ rfl
                  intro file hfile
                  exact List.mem_map_of_mem hfile

end

/-- What has been committed is committed again by a reliable storage. -/
theorem commitStaging_again {host : RetentionHost} {staging : Staging} {before : RetainedPlace}
    (h : (commitStaging host staging before).1 = .ok ()) :
  commitStaging host.reliable staging (commitStaging host staging before).2
    = (.ok (), (commitStaging host staging before).2)
  := by
  unfold commitStaging at h ⊢
  cases hlookUp : host.attempt .lookUp with
  | error error =>
      rw [hlookUp] at h
      cases h
  | ok _ =>
      rw [hlookUp] at h
      rw [show host.reliable.attempt .lookUp = .ok () by rfl]
      cases before with
      | other => cases h
      | directory directory =>
          dsimp only
          rw [below_confirmRetained host staging directory () h]
      | absent =>
          dsimp only at h ⊢
          cases hrename : host.attempt .rename with
          | error error =>
              rw [hrename] at h
              cases h
          | ok _ =>
              dsimp only
              rw [confirmRetained_reliable]

/-- What has been retained is retained again. -/
theorem repeatable (before : RetainedPlace) :
  Repeatable host result request before
  := by
  intro returned hreturned hretains
  by_cases hartifacts : result.artifacts = []
  · simp only [retainResultArtifacts, if_pos hartifacts, Except.ok.injEq] at hreturned ⊢
    rw [hreturned]
  cases hretain : retainAll host result request before with
  | mk outcome after =>
      cases outcome with
      | error error =>
          exfalso
          by_cases hcaught : Caught error
          · obtain ⟨reason, hfailure⟩ := retainResultArtifacts_of_caught hartifacts hcaught hretain
            rw [hfailure, Except.ok.injEq] at hreturned
            apply not_retains_of_nil hartifacts _ hretains
            rw [← hreturned]
            rfl
          · rw [retainResultArtifacts, if_neg hartifacts, hretain] at hreturned
            unfold Caught at hcaught
            cases hkind : error.kind <;> simp_all
      | ok retained =>
          obtain ⟨artifacts, metrics⟩ := retained
          have hagain : retainAll host.reliable result request after
              = (.ok (artifacts, metrics), after) := by
            cases hstage : stageArtifacts host result request with
            | error error =>
                rw [retainAll, hstage] at hretain
                cases hretain
            | ok state =>
                rw [retainAll_of_staged hstage, Prod.mk.injEq] at hretain
                obtain ⟨houtcome, rfl⟩ := hretain
                have hcommit : (commitStaging host state.staging before).1 = .ok () := by
                  cases h : (commitStaging host state.staging before).1 with
                  | ok _ => rfl
                  | error error =>
                      rw [h] at houtcome
                      cases houtcome
                rw [hcommit] at houtcome
                cases houtcome
                rw [retainAll_of_staged (below_stageArtifacts host request result state hstage),
                  commitStaging_again hcommit]
                rfl
          have hrun : retainResultArtifacts host result request before
              = (.ok { result with artifacts := artifacts, metrics := metrics }, after) := by
            rw [retainResultArtifacts, if_neg hartifacts, hretain]
          rw [hrun] at hreturned ⊢
          rw [← Except.ok.inj hreturned, retainResultArtifacts, if_neg hartifacts, hagain]

/-- A result without artifacts is retained or refused exactly when it can be returned. -/
theorem allOrNothing_of_undeclared (hartifacts : result.artifacts = []) (before : RetainedPlace) :
  AllOrNothing host result request before ↔ UndeclaredContained result request
  := by
  have hrun : retainResultArtifacts host result request before = (.ok result, before) := by
    rw [retainResultArtifacts, if_pos hartifacts]
  rw [AllOrNothing, hrun]
  constructor
  · rintro ⟨returned, hreturned, hretains | hrefuses⟩
    · obtain ⟨uriRoot, kept, -, hkept, -, -, hbytes, hfiles⟩ := hretains
      rw [hartifacts, List.map_eq_nil_iff] at hkept
      subst hkept
      left
      simpa using And.intro hbytes hfiles
    · cases hreturned
      right
      exact ⟨hrefuses.status, hrefuses.metrics⟩
  · intro hcontained
    use result, rfl
    rcases hcontained with ⟨hbytes, hfiles⟩ | ⟨hstatus, hmetrics⟩
    · left
      use "", []
      refine ⟨?_, hartifacts.symm, ?_, ?_, ?_, ?_⟩
      · rw [List.map_nil, ← hartifacts]
      · rw [hartifacts]
        exact List.nodup_nil
      · intro file hfile
        cases hfile
      · simpa using hbytes
      · simpa using hfiles
    · right
      exact {
        status := hstatus
        artifacts := hartifacts
        metrics := hmetrics
        unchanged := rfl }

/-- A retention retains all artifacts or refuses, and it can be repeated, exactly when nothing
stands in its way. -/
theorem retainResultArtifacts_allOrNothing (before : RetainedPlace) :
  (AllOrNothing host result request before ∧ Repeatable host result request before) ↔
    RetentionContained host result request before
  := by
  rw [and_iff_left (repeatable host result request before), RetentionContained]
  split
  case isTrue hartifacts => exact allOrNothing_of_undeclared host result request hartifacts before
  case isFalse hartifacts =>
    rw [← and_assoc, ← within_stageArtifacts]
    cases hstage : stageArtifacts host result request with
    | ok state =>
        rw [allOrNothing_of_staged hartifacts hstage, and_iff_right (within_ok state)]
        simp
    | error error =>
        have hretain : retainAll host result request before = (.error error, before) := by
          rw [retainAll, hstage]
        rw [within_error, and_iff_left (by simp)]
        constructor
        · intro h
          by_contra hraised
          exact not_allOrNothing_of_raised hartifacts hraised hretain h
        · intro hcaught
          exact (allOrNothing_of_caught hartifacts hcaught hretain).mpr rfl

/-! ### An address that cannot be split -/

/-- A host without files, with a `urlsplit` that raises for an open bracket in an authority. -/
def bracketHost : RetentionHost where
  sha256 _ := ⟨"0000000000000000000000000000000000000000000000000000000000000000", by decide⟩
  repr text := "'" ++ text ++ "'"
  urlsplit uri :=
    if '[' ∈ uri.toList ∧ ']' ∉ uri.toList then .error "Invalid IPv6 URL" else .ok ⟨"", "", uri⟩
  unquote text := text
  guessType _ := none
  resolveRoot path := .ok path
  fault _ := none
  isPlainDirectory _ := true
  isLink _ := none
  resolve _ := .error .notFound
  stat _ := .error "No such file or directory"
  openFile _ _ := none

/-- A result with an artifact at an address with an open bracket. -/
def bracketResult : WorkerResult where
  status := .success
  artifacts := [{ name := "report.txt", uri := "file://[report.txt" }]

/-- A request for the retention of the artifacts of a run. -/
def bracketRequest : ArtifactRetentionRequest where
  sourceRoot := ⟨true, ["goblin", "artifacts"]⟩
  destinationRoot := some ⟨true, ["retained"]⟩
  uriRoot := some "file:///retained"
  runId := "run"

/-- The exception of `urlsplit` is not turned into a failed result. -/
theorem bracket_raises :
  ¬ AllOrNothing bracketHost bracketResult bracketRequest .absent
  := by
  have hstage : stageArtifacts bracketHost bracketResult bracketRequest
      = .error ⟨.valueError, "Invalid IPv6 URL"⟩ := by
    rfl
  have hretain : retainAll bracketHost bracketResult bracketRequest .absent
      = (.error ⟨.valueError, "Invalid IPv6 URL"⟩, .absent) := by
    rw [retainAll, hstage]
  refine not_allOrNothing_of_raised (List.cons_ne_nil _ _) ?_ hretain
  rintro (hkind | hkind) <;> cases hkind

end GoblinKing
