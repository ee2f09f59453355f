import GoblinKing.Library.Utf8
import GoblinKing.Library.Except
import Mathlib.Data.Bool.AllAny

/-!
# Captured output

What is kept of the output of a container: the last bytes of the two streams, each within its share
of a budget. A cut may fall within a character, and every byte that is left of the character is
replaced by a character of three bytes.
-/

namespace GoblinKing.ContainerLogs

open Utf8

/-- A captured stream: a text or bytes. -/
inductive LogStream where
  | text (value : List CodePoint)
  | bytes (value : List UInt8)
  deriving DecidableEq

/-- The text of a stream. -/
def LogStream.decoded : LogStream → List CodePoint
  | .text value => value
  | .bytes value => decodeReplace value

/-- The text of a stream that may be absent. -/
def decodedText (value : Option LogStream) : List CodePoint :=
  value.elim [] LogStream.decoded

/-- The message of a `UnicodeEncodeError`. -/
def encodeError : String :=
  "'utf-8' codec can't encode character: surrogates not allowed"

/-- Return a UTF-8-safe best-effort tail and its observed byte count. -/
def tailText (value : Option LogStream) (maxBytes : ℕ) :
    Except String (List CodePoint × Bool × ℕ) :=
  match value with
  | none => .ok ([], false, 0)
  | some value =>
      match encode value.decoded with
      | none => .error encodeError
      | some encoded =>
          let byteCount := encoded.length
          if maxBytes = 0 then
            .ok ([], decide (0 < byteCount), byteCount)
          else if byteCount ≤ maxBytes then
            .ok (value.decoded, false, byteCount)
          else
            .ok (decodeReplace (encoded.drop (byteCount - maxBytes)), true, byteCount)

/-- How the streams of a container reach the runtime, if not apart. -/
inductive StreamMode where
  | combined
  deriving DecidableEq

/-- The arguments of `container_log_payload`. -/
structure LogCapture where
  kind : String
  image : String
  containerName : String
  stdout : Option LogStream
  stderr : Option LogStream
  exitCode : Option ℤ
  timedOut : Bool
  maxBytes : ℕ
  streamMode : Option StreamMode := none
  stdoutWasTruncated : Bool := false
  stderrWasTruncated : Bool := false
  stdoutObservedBytes : Option ℕ := none
  stderrObservedBytes : Option ℕ := none

/-- The event payload of captured output. -/
structure LogPayload where
  kind : String
  image : String
  containerName : String
  exitCode : Option ℤ
  timedOut : Bool
  stdout : List CodePoint
  stderr : List CodePoint
  stdoutTruncated : Bool
  stderrTruncated : Bool
  truncated : Bool
  maxBytes : ℕ
  stdoutBytes : ℕ
  stderrBytes : ℕ
  streamMode : Option StreamMode
  deriving DecidableEq

/-- The share of the standard output in the budget. -/
def LogCapture.stdoutLimit (capture : LogCapture) : ℕ :=
  if capture.streamMode = some .combined then capture.maxBytes else (capture.maxBytes + 1) / 2

/-- The share of the standard error in the budget. -/
def LogCapture.stderrLimit (capture : LogCapture) : ℕ :=
  if capture.streamMode = some .combined then 0 else capture.maxBytes / 2

/-- Build the stable bounded payload shared by container runtimes. -/
def containerLogPayload (capture : LogCapture) : Except String LogPayload := do
  let (stdoutTail, stdoutTruncated, stdoutBytes) ← tailText capture.stdout capture.stdoutLimit
  let (stderrTail, stderrTruncated, stderrBytes) ← tailText capture.stderr capture.stderrLimit
  let stdoutTruncated := stdoutTruncated || capture.stdoutWasTruncated
  let stderrTruncated := stderrTruncated || capture.stderrWasTruncated
  .ok {
    kind := capture.kind
    image := capture.image
    containerName := capture.containerName
    exitCode := capture.exitCode
    timedOut := capture.timedOut
    stdout := stdoutTail
    stderr := stderrTail
    stdoutTruncated := stdoutTruncated
    stderrTruncated := stderrTruncated
    truncated := stdoutTruncated || stderrTruncated
    maxBytes := capture.maxBytes
    stdoutBytes := capture.stdoutObservedBytes.getD stdoutBytes
    stderrBytes := capture.stderrObservedBytes.getD stderrBytes
    streamMode := capture.streamMode }

/-! ### The tail of one stream -/

/-- What is kept of a text within a limit. -/
def keptTail (text : List CodePoint) (limit : ℕ) : List CodePoint :=
  if size text ≤ limit then text else decodeReplace ((bytes text).drop (size text - limit))

/-- The number of bytes within the limit that belong to a character which begins before it. -/
def splitBytes (text : List CodePoint) (limit : ℕ) : ℕ :=
  (((bytes text).drop (size text - limit)).takeWhile IsContinuation).length

/-- The text begins with replacement characters, and the cut takes two bytes of three of each. -/
def Restored (text : List CodePoint) (limit : ℕ) : Prop :=
  ∃ n, (n = 1 ∨ n = 2) ∧ List.replicate n replacement <+: text ∧ size text = limit + 2 * n

variable {value : Option LogStream} {text tail : List CodePoint} {limit : ℕ}

@[simp]
theorem decodedText_some (value : LogStream) :
  decodedText (some value) = value.decoded
  := rfl

theorem tailText_eq (h : Encodable (decodedText value)) (limit : ℕ) :
  tailText value limit = .ok (keptTail (decodedText value) limit,
    decide (limit < size (decodedText value)), size (decodedText value))
  := by
  cases value with
  | none =>
    rfl
  | some value =>
    rw [decodedText_some] at h ⊢
    rw [tailText, encode_of_encodable h]
    dsimp only
    rw [length_bytes, keptTail]
    by_cases hzero : limit = 0
    · subst hzero
      rw [if_pos rfl]
      by_cases hsize : size value.decoded ≤ 0
      · rw [if_pos hsize, size_eq_zero.mp (Nat.le_zero.mp hsize)]
      · rw [if_neg hsize, Nat.sub_zero, ← length_bytes, List.drop_length]
        rfl
    · rw [if_neg hzero]
      by_cases hsize : size value.decoded ≤ limit
      · rw [if_pos hsize, if_pos hsize, decide_eq_false (not_lt.mpr hsize)]
      · rw [if_neg hsize, if_neg hsize, decide_eq_true (not_le.mp hsize)]

theorem tailText_error (h : ¬ Encodable (decodedText value)) (limit : ℕ) :
  tailText value limit = .error encodeError
  := by
  cases value with
  | none =>
    apply absurd _ h
    intro c hc
    exact absurd hc List.not_mem_nil
  | some value =>
    rw [decodedText_some] at h
    rw [tailText, encode_of_not_encodable h]

/-- What is kept in front of which bytes are cut. -/
theorem keptTail_of_lt (h : Encodable text) (hsize : limit < size text) {strays : List UInt8}
    {rest : List CodePoint} (hcut : Cut text (size text - limit) strays rest) :
  keptTail text limit = List.replicate strays.length replacement ++ rest
  := by
  rw [keptTail, if_neg (not_le.mpr hsize), hcut.decodeReplace h]

theorem splitBytes_eq {strays : List UInt8} {rest : List CodePoint}
    (hcut : Cut text (size text - limit) strays rest) :
  splitBytes text limit = strays.length
  := by
  rw [splitBytes, hcut.takeWhile]

/-- A text that is cut keeps the bytes within the limit, and the replacement characters are two
bytes longer than the bytes they replace. -/
theorem size_keptTail (h : Encodable text) (limit : ℕ) :
  size (keptTail text limit) = min (size text) limit + 2 * splitBytes text limit
  := by
  obtain ⟨strays, rest, hcut⟩ := exists_cut text (size text - limit)
  by_cases hsize : limit < size text
  · have hlength := hcut.length
    rw [keptTail_of_lt h hsize hcut, splitBytes_eq hcut, size_append, size_replicate_replacement]
    omega
  · have hdropped : size text - limit = 0 := by omega
    rw [splitBytes, hdropped, List.drop_zero, takeWhile_bytes, keptTail, if_pos (not_lt.mp hsize),
      List.length_nil]
    omega

/-- The end of a text that fits the limit is kept. -/
theorem suffix_keptTail (h : Encodable text) (htail : tail <:+ text) (hfits : size tail ≤ limit) :
  tail <:+ keptTail text limit
  := by
  by_cases hsize : limit < size text
  · obtain ⟨strays, rest, hcut⟩ := exists_cut text (size text - limit)
    rw [keptTail_of_lt h hsize hcut]
    apply (hcut.suffix_of_size_le htail (by omega)).trans
    apply List.suffix_append
  · rw [keptTail, if_pos (not_lt.mp hsize)]
    exact htail

/-- A text that is over the limit is kept as a whole exactly when it is restored. -/
theorem keptTail_eq_iff (h : Encodable text) (hsize : limit < size text) :
  keptTail text limit = text ↔ Restored text limit
  := by
  constructor
  · intro hkept
    obtain ⟨strays, rest, hcut⟩ := exists_cut text (size text - limit)
    rw [keptTail_of_lt h hsize hcut] at hkept
    have htext : size text = 3 * strays.length + size rest := by
      rw [← size_replicate_replacement, ← size_append, hkept]
    have hlength := hcut.length
    have hsome : strays ≠ [] := by
      rintro rfl
      rw [List.length_nil] at htext hlength
      omega
    obtain ⟨front, c, hfront, hwithin⟩ := hcut.within hsome
    have hchars : List.replicate strays.length replacement = front ++ [c] := by
      apply List.append_cancel_right
      rw [hkept, hfront, List.append_assoc, List.singleton_append]
    have hc : c = replacement := by
      apply List.eq_of_mem_replicate
      rw [hchars]
      apply List.mem_append_right _ (List.mem_singleton_self c)
    have hthree : (encodeChar c).length = 3 := by
      rw [hc]
      decide
    have hpos := List.length_pos_iff.mpr hsome
    use strays.length
    constructor
    · omega
    · use ⟨rest, hkept⟩
      omega
  · rintro ⟨n, hn, ⟨rest, rfl⟩, hover⟩
    have hstrays : ∀ b ∈ (bytes (List.replicate n replacement)).drop (2 * n),
        IsContinuation b = true := by
      obtain rfl | rfl := hn
      · exact List.all_iff_forall_prop.mp (by decide)
      · exact List.all_iff_forall_prop.mp (by decide)
    have hlength : ((bytes (List.replicate n replacement)).drop (2 * n)).length = n := by
      rw [List.length_drop, length_bytes, size_replicate_replacement]
      omega
    have hrest : Encodable rest := h.of_suffix (List.suffix_append _ _)
    rw [keptTail, if_neg (not_le.mpr hsize), hover, Nat.add_sub_cancel_left, bytes_append,
      List.drop_append_of_le_length, decodeReplace_continuations hstrays hrest, hlength]
    rw [length_bytes, size_replicate_replacement]
    omega

/-! ### The payload -/

/-- The payload is within the budget, it says whether something of the streams is missing, and it
has everything at their ends that fits. -/
structure Captures (capture : LogCapture) (payload : LogPayload) : Prop where
  bounded : size payload.stdout + size payload.stderr ≤ capture.maxBytes
  truncated : capture.stdoutWasTruncated = false → capture.stderrWasTruncated = false →
    (payload.truncated = true ↔ payload.stdout ≠ decodedText capture.stdout
      ∨ payload.stderr ≠ decodedText capture.stderr)
  stdout : ∀ tail, tail <:+ decodedText capture.stdout → size tail ≤ capture.stdoutLimit →
    tail <:+ payload.stdout
  stderr : ∀ tail, tail <:+ decodedText capture.stderr → size tail ≤ capture.stderrLimit →
    tail <:+ payload.stderr

/-- The bytes within the limit of a stream, and two more for every byte of a split character. -/
def room (text : List CodePoint) (limit : ℕ) : ℕ :=
  min (size text) limit + 2 * splitBytes text limit

/-- Some characters of a text over the limit do not come back. -/
def Loses (text : List CodePoint) (limit : ℕ) : Prop :=
  limit < size text ∧ ¬ Restored text limit

/-- Streams whose texts are encodable, for which the budget has room where they are cut, and which
lose something if they are cut at all. -/
structure Fits (capture : LogCapture) : Prop where
  stdout : Encodable (decodedText capture.stdout)
  stderr : Encodable (decodedText capture.stderr)
  room : room (decodedText capture.stdout) capture.stdoutLimit
    + room (decodedText capture.stderr) capture.stderrLimit ≤ capture.maxBytes
  loses : capture.stdoutWasTruncated = false → capture.stderrWasTruncated = false →
    capture.stdoutLimit < size (decodedText capture.stdout)
      ∨ capture.stderrLimit < size (decodedText capture.stderr) →
    Loses (decodedText capture.stdout) capture.stdoutLimit
      ∨ Loses (decodedText capture.stderr) capture.stderrLimit

theorem keptTail_ne_iff (h : Encodable text) :
  keptTail text limit ≠ text ↔ Loses text limit
  := by
  by_cases hsize : limit < size text
  · rw [Loses, Ne, keptTail_eq_iff h hsize]
    tauto
  · simp [keptTail, Loses, hsize, not_lt.mp hsize]

variable {capture : LogCapture} {payload : LogPayload}

/-- The streams of a payload that is built. -/
theorem containerLogPayload_eq_ok (h : containerLogPayload capture = .ok payload) :
  Encodable (decodedText capture.stdout) ∧ Encodable (decodedText capture.stderr)
    ∧ payload.stdout = keptTail (decodedText capture.stdout) capture.stdoutLimit
    ∧ payload.stderr = keptTail (decodedText capture.stderr) capture.stderrLimit
    ∧ payload.truncated
      = ((decide (capture.stdoutLimit < size (decodedText capture.stdout))
          || capture.stdoutWasTruncated)
        || (decide (capture.stderrLimit < size (decodedText capture.stderr))
          || capture.stderrWasTruncated))
  := by
  unfold containerLogPayload at h
  by_cases hstdout : Encodable (decodedText capture.stdout)
  · by_cases hstderr : Encodable (decodedText capture.stderr)
    · rw [tailText_eq hstdout, tailText_eq hstderr] at h
      use hstdout, hstderr
      cases h
      use rfl, rfl
    · rw [tailText_eq hstdout, tailText_error hstderr] at h
      cases h
  · rw [tailText_error hstdout] at h
    cases h

/-- A payload is built when the texts of the streams are encodable. -/
theorem exists_containerLogPayload (hstdout : Encodable (decodedText capture.stdout))
    (hstderr : Encodable (decodedText capture.stderr)) :
  ∃ payload, containerLogPayload capture = .ok payload
  := by
  unfold containerLogPayload
  rw [tailText_eq hstdout, tailText_eq hstderr]
  exact ⟨_, rfl⟩

/-- A payload captures the streams as far as the budget goes exactly when they fit. -/
theorem captures_iff (capture : LogCapture) :
  (∃ payload, containerLogPayload capture = .ok payload ∧ Captures capture payload)
    ↔ Fits capture
  := by
  constructor
  · rintro ⟨payload, hpayload, hcaptures⟩
    obtain ⟨hstdout, hstderr, hout, herr, htruncated⟩ := containerLogPayload_eq_ok hpayload
    constructor
    · exact hstdout
    · exact hstderr
    · have hbounded := hcaptures.bounded
      rw [hout, herr, size_keptTail hstdout, size_keptTail hstderr] at hbounded
      exact hbounded
    · intro hnoOut hnoErr hover
      have hmissing := hcaptures.truncated hnoOut hnoErr
      rw [hout, herr, keptTail_ne_iff hstdout, keptTail_ne_iff hstderr, htruncated, hnoOut, hnoErr]
        at hmissing
      apply hmissing.mp
      simpa using hover
  · intro hfits
    obtain ⟨payload, hpayload⟩ := exists_containerLogPayload hfits.stdout hfits.stderr
    obtain ⟨hstdout, hstderr, hout, herr, htruncated⟩ := containerLogPayload_eq_ok hpayload
    use payload, hpayload
    constructor
    · rw [hout, herr, size_keptTail hstdout, size_keptTail hstderr]
      exact hfits.room
    · intro hnoOut hnoErr
      rw [hout, herr, keptTail_ne_iff hstdout, keptTail_ne_iff hstderr, htruncated, hnoOut, hnoErr]
      constructor
      · intro hover
        apply hfits.loses hnoOut hnoErr
        simpa using hover
      · intro hloses
        simpa using hloses.imp And.left And.left
    · intro tail htail hsize
      rw [hout]
      exact suffix_keptTail hstdout htail hsize
    · intro tail htail hsize
      rw [herr]
      exact suffix_keptTail hstderr htail hsize

/-- The bytes of one accented character, of which the budget has room for one. -/
def accented : LogCapture where
  kind := "report"
  image := "goblin:1"
  containerName := "worker"
  stdout := some (.bytes [0xC3, 0xA9])
  stderr := none
  exitCode := some 0
  timedOut := false
  maxBytes := 1
  streamMode := none

/-- The byte that is kept becomes a character of three bytes. -/
theorem accented_not_captured :
  ¬ ∃ payload, containerLogPayload accented = .ok payload ∧ Captures accented payload
  := by
  rintro ⟨payload, hpayload, hcaptures⟩
  cases hpayload
  exact absurd hcaptures.bounded (by decide)

end GoblinKing.ContainerLogs
