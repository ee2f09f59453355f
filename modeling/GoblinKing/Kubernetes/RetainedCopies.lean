import GoblinKing.Kubernetes.RetentionErrors
import GoblinKing.Library.Labels
import Mathlib.Algebra.BigOperators.Group.List.Basic
import Mathlib.Algebra.Order.Ring.Nat

/-!
# The copies of a retention

What the loop over the artifacts leaves behind: one copy for each artifact with the bytes of its
source, under a name and an address of its own, with its size and its digest among the metrics. The
metrics of different artifacts are different, but the artifact that is called `retained` shares one
with the summary.
-/

namespace GoblinKing

open Posix Except

/-! ### Names and addresses -/

/-- Indices with the same digits are the same. -/
theorem paddedIndex_injective {i j : ℕ} (h : paddedIndex i = paddedIndex j) :
  i = j
  := by
  have hvalue : ∀ n, Nat.ofDigitChars 10 (paddedIndex n) 0 = n := by
    intro n
    rw [paddedIndex, List.leftpad, Nat.ofDigitChars_append, Nat.ofDigitChars_replicate_zero,
      Nat.mul_zero, Nat.ofDigitChars_ten_toDigits]
  rw [← hvalue i, ← hvalue j, h]

/-- An index is written in digits. -/
theorem isDigit_of_mem_paddedIndex {index : ℕ} {c : Char} (h : c ∈ paddedIndex index) :
  c.isDigit = true
  := by
  rw [paddedIndex, List.leftpad, List.mem_append] at h
  rcases h with h | h
  · rw [List.eq_of_mem_replicate h]
    decide
  · apply Nat.isDigit_of_mem_toDigits (by decide) (by decide) h

/-- There is no dash in an index. -/
theorem dash_notMem_paddedIndex (index : ℕ) :
  '-' ∉ paddedIndex index
  := by
  intro h
  cases isDigit_of_mem_paddedIndex h

/-- A digit is kept when it is quoted. -/
theorem unreserved_of_isDigit {c : Char} (h : c.isDigit = true) :
  c ∈ unreserved
  := by
  have hbounds : 48 ≤ c.toNat ∧ c.toNat ≤ 57 := by
    simpa [Char.isDigit, UInt32.le_iff_toNat_le] using h
  have hc : c = Char.ofNat c.toNat := (Char.ofNat_toNat c).symm
  have hcases : c.toNat = 48 ∨ c.toNat = 49 ∨ c.toNat = 50 ∨ c.toNat = 51 ∨ c.toNat = 52 ∨
      c.toNat = 53 ∨ c.toNat = 54 ∨ c.toNat = 55 ∨ c.toNat = 56 ∨ c.toNat = 57 := by
    omega
  rw [hc]
  rcases hcases with h | h | h | h | h | h | h | h | h | h <;>
  · rw [h]
    decide

/-- A quoted text is quoted part by part. -/
theorem quote_append (safe text rest : List Char) :
  quote safe (text ++ rest) = quote safe text ++ quote safe rest
  := List.flatMap_append

/-- Characters that are always kept are kept. -/
theorem quote_eq_self {safe text : List Char} (h : ∀ c ∈ text, c ∈ unreserved) :
  quote safe text = text
  := by
  induction text with
  | nil => rfl
  | cons c text ih =>
      rw [← List.singleton_append, quote_append, ih (fun c' hc' => h c' (List.mem_cons_of_mem c hc'))]
      simp [quote, h c List.mem_cons_self]

variable (host : RetentionHost)

/-- The quoted name of a stored file begins with its index. -/
theorem quote_storedName (safe : List Char) (index : ℕ) (name : String) :
  quote safe (storedName host index name).toList
    = paddedIndex index ++ '-' :: quote safe (storedIdentity host name)
  := by
  have hdash : '-' ∈ unreserved := by decide
  rw [storedName, String.toList_ofList, quote_append,
    quote_eq_self (fun c hc => unreserved_of_isDigit (isDigit_of_mem_paddedIndex hc)),
    ← List.singleton_append, quote_append, quote_eq_self (List.forall_mem_singleton.mpr hdash)]
  rfl

/-- Files with the same address have the same index. -/
theorem index_of_retainedUri {uriRoot : String} {relativeDirectory : List String} {i j : ℕ}
    {name other : String}
    (h : retainedUri uriRoot relativeDirectory (storedName host i name)
      = retainedUri uriRoot relativeDirectory (storedName host j other)) :
  i = j
  := by
  have hquote : quote ['/'] (storedName host i name).toList
      = quote ['/'] (storedName host j other).toList := by
    have hslash : ∀ text, quote ['/'] ('/' :: text) = '/' :: quote ['/'] text := by
      intro text
      simp [quote]
    simp only [retainedUri, quote_append, hslash] at h
    split at h
    · simpa using congrArg String.toList h
    · simpa using congrArg String.toList h
  rw [quote_storedName, quote_storedName] at hquote
  apply paddedIndex_injective
  exact (Labels.append_cons_inj_first (dash_notMem_paddedIndex i) (dash_notMem_paddedIndex j)
    hquote).1

/-! ### Metrics -/

/-- A text between two others is determined by the whole, when the ends have the same length. -/
theorem eq_of_artifactMetric {name other ending ending' : String}
    (hlength : ending.toList.length = ending'.toList.length)
    (h : "artifact." ++ name ++ ending = "artifact." ++ other ++ ending') :
  name = other ∧ ending = ending'
  := by
  have hlist := congrArg String.toList h
  simp only [String.toList_append, List.append_assoc] at hlist
  obtain ⟨hname, hending⟩ := List.append_inj' (List.append_cancel_left hlist) hlength
  exact ⟨String.toList_inj.mp hname, String.toList_inj.mp hending⟩

/-- Different artifacts have different metrics for their sizes. -/
theorem bytesMetric_inj {name other : String} :
  bytesMetric name = bytesMetric other ↔ name = other
  := ⟨fun h => (eq_of_artifactMetric rfl h).1, congrArg _⟩

/-- Different artifacts have different metrics for their digests. -/
theorem sha256Metric_inj {name other : String} :
  sha256Metric name = sha256Metric other ↔ name = other
  := ⟨fun h => (eq_of_artifactMetric rfl h).1, congrArg _⟩

/-- The last character of a metric for a digest. -/
theorem getLast?_sha256Metric (name : String) :
  (sha256Metric name).toList.getLast? = some '6'
  := by
  rw [sha256Metric, String.toList_append, List.getLast?_append]
  rfl

/-- A metric for a size is no metric for a digest. -/
theorem bytesMetric_ne_sha256Metric (name other : String) :
  bytesMetric name ≠ sha256Metric other
  := by
  intro h
  have hlast := getLast?_sha256Metric other
  rw [← h, bytesMetric, String.toList_append, List.getLast?_append] at hlast
  cases hlast

/-- The number of retained files is no metric of an artifact. -/
theorem retainedFiles_ne (name : String) :
  bytesMetric name ≠ "artifact.retained.files" ∧ sha256Metric name ≠ "artifact.retained.files"
  := by
  constructor
  · intro h
    have hparts : "artifact.retained.files" = "artifact." ++ "retained" ++ ".files" := by simp
    have hlength : ".bytes".toList.length = ".files".toList.length := by simp
    rw [bytesMetric, hparts] at h
    have hends := (eq_of_artifactMetric hlength h).2
    simp at hends
  · intro h
    have hlast := getLast?_sha256Metric name
    rw [h] at hlast
    simp at hlast

/-- The number of retained bytes is the size of the artifact that is called `retained`. -/
theorem retainedBytes_eq :
  "artifact.retained.bytes" = bytesMetric "retained"
  := rfl

/-! ### Copies -/

/-- A file that is kept for an artifact. -/
structure KeptFile where
  index : ℕ
  artifact : ArtifactRecord
  mediaType : String
  bytes : ByteArray

/-- The artifact of a kept file and its index. -/
def KeptFile.entry (file : KeptFile) : ArtifactRecord × ℕ :=
  (file.artifact, file.index)

/-- The name of a kept file. -/
def KeptFile.storedName (file : KeptFile) : String :=
  GoblinKing.storedName host file.index file.artifact.name

/-- The artifact that a kept file is retained as. -/
def KeptFile.record (uriRoot : String) (relativeDirectory : List String) (file : KeptFile) :
    ArtifactRecord where
  name := file.artifact.name
  uri := retainedUri uriRoot relativeDirectory (file.storedName host)
  mediaType := some file.mediaType

/-- The metrics with those of a kept file. -/
def KeptFile.addMetrics (metrics : Metrics) (file : KeptFile) : Metrics :=
  Function.update
    (Function.update metrics (bytesMetric file.artifact.name) (some (.int file.bytes.size)))
    (sha256Metric file.artifact.name) (some (.text (host.sha256 file.bytes).text))

/-- The address of an artifact leads to a file behind a root, in which there are some bytes. -/
def SourceBytes (sourceRoot : Path) (artifact : ArtifactRecord) (bytes : ByteArray) : Prop :=
  ∃ source file, resolveSource host sourceRoot artifact = .ok source ∧
    host.openFile sourceRoot source.relative = some file ∧ file.contents = bytes

/-- There are no two sequences of bytes in the file of an artifact. -/
theorem SourceBytes.unique {host : RetentionHost} {sourceRoot : Path} {artifact : ArtifactRecord}
    {bytes other : ByteArray} (h : SourceBytes host sourceRoot artifact bytes)
    (h' : SourceBytes host sourceRoot artifact other) :
  bytes = other
  := by
  obtain ⟨source, file, hsource, hfile, rfl⟩ := h
  obtain ⟨source', file', hsource', hfile', rfl⟩ := h'
  rw [hsource, Except.ok.injEq] at hsource'
  rw [← hsource', hfile, Option.some.injEq] at hfile'
  rw [hfile']

/-- Other metrics are not touched by kept files. -/
theorem foldl_addMetrics_of_ne {kept : List KeptFile} {metrics : Metrics} {key : String}
    (h : ∀ file ∈ kept,
      key ≠ bytesMetric file.artifact.name ∧ key ≠ sha256Metric file.artifact.name) :
  kept.foldl (KeptFile.addMetrics host) metrics key = metrics key
  := by
  induction kept generalizing metrics with
  | nil => rfl
  | cons file kept ih =>
      obtain ⟨hbytes, hsha256⟩ := h file List.mem_cons_self
      rw [List.foldl_cons, ih (fun other hother => h other (List.mem_cons_of_mem file hother)),
        KeptFile.addMetrics, Function.update_of_ne hsha256, Function.update_of_ne hbytes]

/-- The size and the digest of every kept file are among the metrics. -/
theorem foldl_addMetrics_of_mem {kept : List KeptFile} {metrics : Metrics} {file : KeptFile}
    (hnames : (kept.map (fun file => file.artifact.name)).Nodup) (h : file ∈ kept) :
  kept.foldl (KeptFile.addMetrics host) metrics (bytesMetric file.artifact.name)
      = some (.int file.bytes.size) ∧
    kept.foldl (KeptFile.addMetrics host) metrics (sha256Metric file.artifact.name)
      = some (.text (host.sha256 file.bytes).text)
  := by
  induction kept generalizing metrics with
  | nil => cases h
  | cons first kept ih =>
      rw [List.map_cons, List.nodup_cons] at hnames
      obtain ⟨hfirst, hnames⟩ := hnames
      rcases List.mem_cons.mp h with rfl | h
      · have hother : ∀ other ∈ kept, file.artifact.name ≠ other.artifact.name := by
          intro other hother heq
          apply hfirst
          rw [heq]
          exact List.mem_map_of_mem hother
        rw [List.foldl_cons, foldl_addMetrics_of_ne, foldl_addMetrics_of_ne]
        · constructor
          · rw [KeptFile.addMetrics, Function.update_of_ne (bytesMetric_ne_sha256Metric _ _),
              Function.update_self]
          · rw [KeptFile.addMetrics, Function.update_self]
        · intro other hmem
          use (bytesMetric_ne_sha256Metric _ _).symm
          rw [ne_eq, sha256Metric_inj]
          exact hother other hmem
        · intro other hmem
          refine ⟨?_, bytesMetric_ne_sha256Metric _ _⟩
          rw [ne_eq, bytesMetric_inj]
          exact hother other hmem
      · rw [List.foldl_cons]
        exact ih hnames h

/-! ### The loop -/

/-- What has been written is what was read, and it does not exceed the limit. -/
theorem copyChunks_ok {host : RetentionHost} {storedName : String} {remaining : ℤ}
    {readError : Option String} {chunks : List ByteArray} {copied bytes : ByteArray}
    (h : copyChunks host storedName remaining readError chunks copied = .ok bytes) :
  bytes = chunks.foldl (· ++ ·) copied ∧
    ((copied.size : ℤ) ≤ remaining → (bytes.size : ℤ) ≤ remaining)
  := by
  induction chunks generalizing copied with
  | nil =>
      cases readError with
      | none =>
          cases h
          exact ⟨rfl, id⟩
      | some message => cases h
  | cons chunk chunks ih =>
      simp only [copyChunks, bind_eq_ok] at h
      obtain ⟨⟨⟩, hlimit, -, -, h⟩ := h
      obtain ⟨hbytes, hsize⟩ := ih h
      use hbytes
      intro _
      apply hsize
      simpa using refuseIf_ok.mp hlimit

/-- A copy has the bytes of its source and their digest, and does not exceed the limit. -/
theorem copyAndHash_ok {host : RetentionHost} {sourceRoot : Path} {source : ArtifactSource}
    {storedName : String} {remaining : ℤ} {name : String} {bytes : ByteArray} {digest : Digest}
    (h : copyAndHash host sourceRoot source storedName remaining name = .ok (bytes, digest)) :
  digest = host.sha256 bytes ∧ (0 ≤ remaining → (bytes.size : ℤ) ≤ remaining) ∧
    ∃ file, host.openFile sourceRoot source.relative = some file ∧ file.contents = bytes
  := by
  unfold copyAndHash at h
  split at h
  case h_1 => cases h
  case h_2 file hfile =>
    simp only [copyFdAndHash, bind_eq_ok] at h
    obtain ⟨-, -, -, -, -, -, -, -, copied, hcopied, -, -, h⟩ := h
    cases h
    obtain ⟨hbytes, hsize⟩ := copyChunks_ok hcopied
    exact ⟨rfl, hsize, file, hfile, hbytes.symm⟩

variable (preparation : Preparation)

/-- A state of the loop with some more kept files is another one. -/
structure Extends (state : Retaining) (kept : List KeptFile) (next : Retaining) : Prop where
  retained : next.retained = state.retained
    ++ kept.map (KeptFile.record host preparation.uriRoot preparation.relativeDirectory)
  metrics : next.metrics = kept.foldl (KeptFile.addMetrics host) state.metrics
  totalBytes : next.totalBytes = state.totalBytes + (kept.map (fun file => file.bytes.size)).sum
  rows : next.staging.rows
    = state.staging.rows ++ kept.map (fun file => (file.storedName host, file.bytes))
  source : ∀ file ∈ kept, SourceBytes host preparation.sourceRoot file.artifact file.bytes

section

variable {host} {preparation} {request : ArtifactRetentionRequest} {declared : Metrics}
  {state next : Retaining}

/-- A state is extended by no files to itself. -/
theorem Extends.refl : Extends host preparation state [] state
  := by
  constructor <;> simp

/-- A state that is extended by a file and then by others is extended by all of them. -/
theorem Extends.trans {middle : Retaining} {file : KeptFile} {kept : List KeptFile}
    (h : Extends host preparation state [file] middle)
    (h' : Extends host preparation middle kept next) :
  Extends host preparation state (file :: kept) next
  := by
  constructor
  case retained => simp [h'.retained, h.retained]
  case metrics => rw [h'.metrics, h.metrics, List.foldl_cons, List.foldl_cons, List.foldl_nil]
  case totalBytes => simp [h'.totalBytes, h.totalBytes, Nat.add_assoc]
  case rows => simp [h'.rows, h.rows]
  case source =>
    intro other hother
    rcases List.mem_cons.mp hother with rfl | hother
    · exact h.source other List.mem_cons_self
    · exact h'.source other hother

/-- An artifact is retained by one more kept file within the limit. -/
theorem retainOne_ok {index : ℕ} {artifact : ArtifactRecord}
    (h : retainOne host request declared preparation index artifact state = .ok next) :
  ∃ file : KeptFile, file.index = index ∧ file.artifact = artifact ∧
    Extends host preparation state [file] next ∧
    ((state.totalBytes : ℤ) ≤ request.maxBytes → (next.totalBytes : ℤ) ≤ request.maxBytes)
  := by
  simp only [retainOne, bind_eq_ok] at h
  obtain ⟨-, -, source, hsource, ⟨bytes, digest⟩, hcopy, staging, hstaging, -, -, mediaType, -, h⟩
    := h
  cases h
  obtain ⟨rfl, hsize, file, hfile, hcontents⟩ := copyAndHash_ok hcopy
  have hrows : staging.rows = state.staging.rows
      ++ [(storedName host index artifact.name, bytes)] := by
    unfold stageCopy at hstaging
    split at hstaging
    case h_1 inserted hinserted =>
      cases hstaging
      exact Table.rows_insert? hinserted
    case h_2 => cases hstaging
  use ⟨index, artifact, mediaType, bytes⟩, rfl, rfl
  constructor
  · constructor
    case retained => rfl
    case metrics => rfl
    case totalBytes => simp
    case rows => exact hrows
    case source =>
      intro other hother
      rw [List.mem_singleton.mp hother]
      exact ⟨source, file, hsource, hfile, hcontents⟩
  · intro hlimit
    have hbytes := hsize (by omega)
    push_cast
    omega

/-- The loop leaves one kept file for each artifact, within the limit. -/
theorem retainFrom_ok {index : ℕ} {artifacts : List ArtifactRecord}
    (h : retainFrom host request declared preparation index artifacts state = .ok next) :
  ∃ kept : List KeptFile, kept.map KeptFile.entry = artifacts.zipIdx index ∧
    Extends host preparation state kept next ∧
    ((state.totalBytes : ℤ) ≤ request.maxBytes → (next.totalBytes : ℤ) ≤ request.maxBytes)
  := by
  induction artifacts generalizing index state with
  | nil =>
      cases h
      exact ⟨[], rfl, .refl, id⟩
  | cons artifact artifacts ih =>
      obtain ⟨middle, hone, hrest⟩ := bind_eq_ok.mp h
      obtain ⟨file, rfl, rfl, hextends, hlimit⟩ := retainOne_ok hone
      obtain ⟨kept, hkept, hextends', hlimit'⟩ := ih hrest
      use file :: kept
      refine ⟨?_, hextends.trans hextends', hlimit' ∘ hlimit⟩
      rw [List.map_cons, hkept, List.zipIdx_cons]
      rfl

end

end GoblinKing
