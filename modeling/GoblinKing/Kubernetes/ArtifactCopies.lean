import GoblinKing.Library.Table
import GoblinKing.Runtime.DockerCommand
import GoblinKing.Runtime.Results
import Mathlib.Computability.RegularExpressions

/-!
# Copies of artifacts

The result forwarder of a Kubernetes worker copies the declared artifacts into a staging directory,
one after the other: the address of an artifact has to lead to a regular file inside of the
artifact root without any link, the copy must not exceed what is left of the limit, and its size
and its digest must not contradict the metrics of the result.
-/

namespace GoblinKing

open Posix

/-! ### The outside -/

/-- A digest: 64 lowercase hexadecimal digits. -/
def isSha256 (text : String) : Bool :=
  text.length = 64 && text.toList.all (fun c => "0123456789abcdef".toList.contains c)

/-- The hexadecimal text of a SHA-256 digest. -/
structure Digest where
  text : String
  valid : isSha256 text = true

/-- What `urlsplit` returns, as far as it is used. -/
structure SplitUrl where
  scheme : String
  netloc : String
  path : String

/-- What `os.stat` tells about a file. -/
structure FileStat where
  regular : Bool
  device : ℤ
  inode : ℤ
  size : ℤ
  mtimeNs : ℤ
  ctimeNs : ℤ

/-- `_opened_file_identity` -/
def openedFileIdentity (details : FileStat) : ℤ × ℤ × ℤ × ℤ :=
  (details.device, details.inode, details.size, details.mtimeNs)

/-- `_file_identity` -/
def fileIdentity (details : FileStat) : ℤ × ℤ × ℤ × ℤ × ℤ :=
  (details.device, details.inode, details.size, details.mtimeNs, details.ctimeNs)

/-- A file that is opened and read: what is told about it before and after, and what the reads
return. The last read can fail. -/
structure OpenedFile where
  before : FileStat
  reads : List ByteArray
  readError : Option String
  after : FileStat

/-- The bytes that are read from a file. -/
def OpenedFile.contents (file : OpenedFile) : ByteArray :=
  file.reads.foldl (· ++ ·) ByteArray.empty

/-- Why a path does not resolve. -/
inductive ResolveError where
  | notFound
  | osError (message : String)

/-- The operations on the destination that can fail with an `OSError`. -/
inductive StorageStep where
  | makeDestination
  | makeDirectory (names : List String)
  | chmodDirectory (names : List String)
  | makeStaging
  | chmodStaging
  | createCopy (storedName : String)
  | chmodCopy (storedName : String)
  | writeCopy (storedName : String)
  | lookUp
  | listStaging
  | listRetained
  | readStaged (storedName : String)
  | readRetained (storedName : String)
  | removeStaging
  | rename
  | chmodRetained
  | listModes
  | chmodEntry (storedName : String)

/-- What answers the forwarder. -/
structure RetentionHost where
  /-- the digest of bytes -/
  sha256 : ByteArray → Digest
  /-- `repr` of a text -/
  repr : String → String
  /-- `urlsplit`, or the message of its `ValueError` -/
  urlsplit : String → Except String SplitUrl
  unquote : String → String
  /-- `mimetypes.guess_type` -/
  guessType : String → Option String
  /-- `Path.resolve` of a root, which must exist -/
  resolveRoot : Path → Except Raised Path
  /-- the message of an operation that fails -/
  fault : StorageStep → Option String
  /-- a directory that is no link is at a place of the destination -/
  isPlainDirectory : List String → Bool
  /-- `Path.lstat`: whether there is a link; `none` when it fails -/
  isLink : Path → Option Bool
  /-- `Path.resolve` of a file, which must exist -/
  resolve : Path → Except ResolveError Path
  /-- `Path.stat`, or the message of its `OSError` -/
  stat : Path → Except String FileStat
  /-- open a file behind a root without following links; `none` when it fails -/
  openFile : Path → Path → Option OpenedFile

/-- One forwarder's source, destination, scope and limits. -/
structure ArtifactRetentionRequest where
  sourceRoot : Path
  destinationRoot : Option Path
  uriRoot : Option String
  runId : String
  projectId : Option String := none
  maxFiles : ℤ := 100
  maxBytes : ℤ := 100 * 1024 * 1024

/-- An `ArtifactRetentionError`. -/
def retentionError (message : String) : Raised :=
  ⟨.artifactRetentionError, message⟩

/-- An `OSError`. -/
def storageError (message : String) : Raised :=
  ⟨.osError, message⟩

/-- Raise an `ArtifactRetentionError` under a condition. -/
def refuseIf (condition : Bool) (message : String) : Except Raised Unit :=
  if condition then .error (retentionError message) else .ok ()

variable (host : RetentionHost)

/-- Operate on the destination. -/
def RetentionHost.attempt (step : StorageStep) : Except Raised Unit :=
  match host.fault step with
  | none => .ok ()
  | some message => .error (storageError message)

/-! ### Sources -/

/-- A text contains the character that no path can contain. -/
def hasNul (part : String) : Bool :=
  part.toList.contains '\x00'

/-- `_reject_symbolic_link_components` -/
def rejectSymbolicLinkComponents (name : String) : Path → List String → Except Raised Unit
  | _, [] => .ok ()
  | current, part :: parts => do
      let next : Path := { current with parts := current.parts ++ [part] }
      if hasNul part then
        .error ⟨.valueError, "embedded null byte"⟩
      else
        match host.isLink next with
        | none => .error (retentionError ("artifact " ++ host.repr name
            ++ " is missing or outside the worker artifact root"))
        | some true => .error (retentionError ("artifact " ++ host.repr name
            ++ " may not use symbolic links"))
        | some false => rejectSymbolicLinkComponents name next parts

/-- The error about an artifact that is not inside of the root. -/
def outsideError (name : String) : Raised :=
  retentionError ("artifact " ++ host.repr name ++ " is missing or outside the worker artifact root")

/-- The path in the address of an artifact. -/
def rawPath (artifact : ArtifactRecord) (parsed : SplitUrl) : String :=
  if parsed.scheme = "file" then host.unquote parsed.path else artifact.uri

/-- `urlsplit` with its exception. -/
def splitUri (uri : String) : Except Raised SplitUrl :=
  (host.urlsplit uri).mapError (fun message => ⟨.valueError, message⟩)

/-- The parts behind a root that the address of an artifact leads to. -/
def unresolvedRelative (sourceRoot : Path) (artifact : ArtifactRecord) : Except Raised Path := do
  let parsed ← splitUri host artifact.uri
  refuseIf (parsed.scheme ≠ "" ∧ parsed.scheme ≠ "file")
    ("artifact " ++ host.repr artifact.name ++ " must use a local file URI")
  refuseIf (parsed.scheme = "file" ∧ parsed.netloc ≠ "" ∧ parsed.netloc ≠ "localhost")
    ("artifact " ++ host.repr artifact.name ++ " has a remote file authority")
  match relativeTo (sourceRoot.join (Path.parse (rawPath host artifact parsed))) sourceRoot with
  | none => .error (outsideError host artifact.name)
  | some relative =>
      if ".." ∈ relative.parts then .error (outsideError host artifact.name) else .ok relative

/-- A validated source: where it is behind the root, and what file it was. -/
structure ArtifactSource where
  relative : Path
  validatedIdentity : ℤ × ℤ × ℤ × ℤ

/-- Resolve a path inside of a root. -/
def resolveInside (sourceRoot : Path) (name : String) (candidate : Path) : Except Raised Path :=
  match host.resolve candidate with
  | .error .notFound => .error (outsideError host name)
  | .error (.osError message) => .error (storageError message)
  | .ok resolved =>
      if (relativeTo resolved sourceRoot).isSome then
        .ok resolved
      else
        .error (outsideError host name)

/-- `_resolve_source` -/
def resolveSource (sourceRoot : Path) (artifact : ArtifactRecord) :
    Except Raised ArtifactSource := do
  let relative ← unresolvedRelative host sourceRoot artifact
  rejectSymbolicLinkComponents host artifact.name sourceRoot relative.parts
  let resolved ← resolveInside host sourceRoot artifact.name (sourceRoot.join relative)
  let sourceStat ← (host.stat resolved).mapError storageError
  refuseIf (!sourceStat.regular)
    ("artifact " ++ host.repr artifact.name ++ " is not a regular file")
  .ok ⟨relative, openedFileIdentity sourceStat⟩

/-! ### Copies -/

/-- The files of a staging directory under their names. -/
abbrev Staging := Table (fun file : String × ByteArray => file.1)

/-- Write the chunks of a file as long as they do not exceed what is left of the limit. -/
def copyChunks (storedName : String) (remaining : ℤ) (readError : Option String) :
    List ByteArray → ByteArray → Except Raised ByteArray
  | [], copied =>
      match readError with
      | none => .ok copied
      | some message => .error (storageError message)
  | chunk :: chunks, copied => do
      refuseIf (remaining < (copied ++ chunk).size) "artifact bytes exceed policy"
      host.attempt (.writeCopy storedName)
      copyChunks storedName remaining readError chunks (copied ++ chunk)

/-- Copy an opened file; the result is what has been written, and its digest. -/
def copyFdAndHash (file : OpenedFile) (storedName : String) (remaining : ℤ) (name : String)
    (validatedIdentity : ℤ × ℤ × ℤ × ℤ) : Except Raised (ByteArray × Digest) := do
  refuseIf (!file.before.regular) ("artifact " ++ host.repr name ++ " is not a regular file")
  refuseIf (openedFileIdentity file.before ≠ validatedIdentity)
    ("artifact " ++ host.repr name ++ " changed or became unsafe before retention")
  host.attempt (.createCopy storedName)
  host.attempt (.chmodCopy storedName)
  let copied ← copyChunks host storedName remaining file.readError file.reads ByteArray.empty
  refuseIf (fileIdentity file.before ≠ fileIdentity file.after ∨ (copied.size : ℤ) ≠ file.after.size)
    ("artifact " ++ host.repr name ++ " changed while it was retained")
  .ok (copied, host.sha256 copied)

/-- Open a source and copy it. -/
def copyAndHash (sourceRoot : Path) (source : ArtifactSource) (storedName : String)
    (remaining : ℤ) (name : String) : Except Raised (ByteArray × Digest) :=
  match host.openFile sourceRoot source.relative with
  | none => .error (retentionError
      ("artifact " ++ host.repr name ++ " changed or became unsafe before retention"))
  | some file => copyFdAndHash host file storedName remaining name source.validatedIdentity

/-! ### Metadata -/

/-- `_validate_artifact_name` -/
def validateArtifactName (name : String) : Except Raised Unit :=
  refuseIf (255 < name.length ∨ name = "." ∨ name = ".." ∨ '/' ∈ name.toList ∨ '\\' ∈ name.toList ∨
      name.toList.any (fun c => c.toNat < 32))
    "artifact names must be safe single path segments"

/-- The metric with the digest of an artifact. -/
def sha256Metric (name : String) : String :=
  "artifact." ++ name ++ ".sha256"

/-- A declared size is the actual one. -/
def declaredSizeMatches (declared : Option JsonScalar) (actual : ℕ) : Bool :=
  match declared with
  | none | some .null => true
  | some (.int size) => size = actual
  | some (.bool _) | some (.float _) | some (.text _) => false

/-- `str.removeprefix` -/
def removePrefix (start text : List Char) : List Char :=
  if start.isPrefixOf text then text.drop start.length else text

/-- A declared digest in lowercase and without the name of the function in front of it. -/
def normalizedDigest (declared : String) : String :=
  String.ofList (removePrefix "sha256:".toList (declared.toList.map Char.toLower))

/-- `_verify_declared_metrics` -/
def verifyDeclaredMetrics (metrics : Metrics) (name : String) (actualSize : ℕ)
    (actualDigest : Digest) : Except Raised Unit := do
  refuseIf (!declaredSizeMatches (metrics (bytesMetric name)) actualSize)
    ("artifact " ++ host.repr name ++ " byte count does not match its metadata")
  match metrics (sha256Metric name) with
  | none | some .null => .ok ()
  | some (.text declared) =>
      refuseIf (!isSha256 (normalizedDigest declared) || normalizedDigest declared ≠ actualDigest.text)
        ("artifact " ++ host.repr name ++ " SHA-256 digest does not match")
  | some (.bool _) | some (.int _) | some (.float _) =>
      .error (retentionError ("artifact " ++ host.repr name ++ " SHA-256 metadata is invalid"))

open RegularExpression in
/-- One of some characters. -/
def oneOf (chars : List Char) : RegularExpression Char :=
  (chars.map char).sum

/-- A pattern once or more often. -/
def oneOrMore (pattern : RegularExpression Char) : RegularExpression Char :=
  pattern * .star pattern

/-- The characters that `\s` stands for. -/
def whitespace : List Char :=
  [9, 10, 11, 12, 13, 28, 29, 30, 31, 32, 133, 160, 5760, 8192, 8193, 8194, 8195, 8196, 8197, 8198,
    8199, 8200, 8201, 8202, 8232, 8233, 8239, 8287, 12288].map Char.ofNat

/-- The ASCII letters and digits. -/
def alphanumeric : List Char :=
  "ABCDEFGHIJKLMNOPQRSTUVWXYZabcdefghijklmnopqrstuvwxyz0123456789".toList

/-- The characters of the names in a media type. -/
def mediaTypeChars : List Char :=
  alphanumeric ++ "!#$&^_.+-".toList

/-- `_MEDIA_TYPE` -/
def mediaTypePattern : RegularExpression Char :=
  let name := oneOrMore (oneOf mediaTypeChars)
  let spaces := RegularExpression.star (oneOf whitespace)
  name * .char '/' * name * .star (spaces * .char ';' * spaces * name * .char '='
    * oneOrMore (oneOf (mediaTypeChars ++ "\" ".toList)))

/-- `_validated_media_type` -/
def validatedMediaType (artifact : ArtifactRecord) : Except Raised String := do
  let mediaType := (((artifact.mediaType.filter (· ≠ "")).or
    ((host.guessType artifact.name).filter (· ≠ ""))).getD "application/octet-stream")
  refuseIf (255 < mediaType.length || !mediaTypePattern.rmatch mediaType.toList)
    ("artifact " ++ host.repr artifact.name ++ " media type is invalid")
  .ok mediaType

/-! ### Names -/

/-- `Path.suffix` for the last part of a path: from the last dot on, if there is something on both
sides of it. -/
def pathSuffix (name : List Char) : List Char :=
  let after := (name.reverse.takeWhile (· ≠ '.')).reverse
  if after.length = name.length ∨ after = [] ∨ after.length + 1 = name.length then
    []
  else
    '.' :: after

/-- `_SAFE_SUFFIX` -/
def isSafeSuffix (suffix : List Char) : Bool :=
  match suffix with
  | '.' :: rest => rest ≠ [] && rest.length ≤ 10 && rest.all alphanumeric.contains
  | _ => false

/-- An index with at least four digits. -/
def paddedIndex (index : ℕ) : List Char :=
  (Nat.toDigits 10 index).leftpad 4 '0'

/-- What comes behind the index in the name of a stored file. -/
def storedIdentity (name : String) : List Char :=
  let suffix := pathSuffix (((Path.parse name).parts.getLast?).getD "").toList
  (host.sha256 name.toUTF8).text.toList.take 16
    ++ (if isSafeSuffix suffix then suffix.map Char.toLower else [])

/-- `_stored_name` -/
def storedName (index : ℕ) (name : String) : String :=
  String.ofList (paddedIndex index ++ '-' :: storedIdentity host name)

/-- `_retained_directory`, as a text -/
def retainedDirectory (projectId : Option String) (runId : String) : List String :=
  ["projects", projectId.elim "unscoped" (fun projectId => (host.sha256 projectId.toUTF8).text),
    "runs", (host.sha256 runId.toUTF8).text]

/-- The characters that `quote` always keeps. -/
def unreserved : List Char :=
  alphanumeric ++ "_.-~".toList

/-- A byte as a percent sign and two digits. -/
def percentByte (byte : UInt8) : List Char :=
  '%' :: [byte.toNat / 16, byte.toNat % 16].map
    (fun digit => "0123456789ABCDEF".toList.getD digit '0')

/-- `urllib.parse.quote` -/
def quote (safe : List Char) (text : List Char) : List Char :=
  text.flatMap (fun c =>
    if c ∈ unreserved ∨ c ∈ safe then [c] else (String.utf8EncodeChar c).flatMap percentByte)

/-- `str.rstrip` of slashes -/
def stripSlashes (text : List Char) : List Char :=
  (text.reverse.dropWhile (· = '/')).reverse

/-- The root of a `PurePosixPath` has a slash more for exactly two slashes in front. -/
def extraSlash (text : String) : String :=
  if "//".toList.isPrefixOf text.toList && !"///".toList.isPrefixOf text.toList then "/" else ""

/-- `str` of a `PurePosixPath` -/
def purePosixText (text : String) : String :=
  extraSlash text ++ asPosix (Path.parse text)

/-- `_retained_uri` -/
def retainedUri (uriRoot : String) (relativeDirectory : List String) (stored : String) : String :=
  let encodedRelative := quote ['/'] (("/".intercalate relativeDirectory).toList ++ '/' :: stored.toList)
  if "file://".toList.isPrefixOf uriRoot.toList then
    String.ofList (stripSlashes uriRoot.toList ++ '/' :: encodedRelative)
  else
    String.ofList ("file://".toList
      ++ stripSlashes (quote ['/', ':'] (purePosixText uriRoot).toList)
      ++ '/' :: encodedRelative)

/-! ### The loop -/

/-- What the loop over the artifacts has come to. -/
structure Retaining where
  retained : List ArtifactRecord
  metrics : Metrics
  totalBytes : ℕ
  staging : Staging

/-- Where artifacts are taken from and how they are addressed afterwards. -/
structure Preparation where
  sourceRoot : Path
  uriRoot : String
  relativeDirectory : List String

variable (request : ArtifactRetentionRequest) (declared : Metrics) (preparation : Preparation)

/-- Add a copy to the staging directory, where its name must be free. -/
def stageCopy (staging : Staging) (stored : String) (bytes : ByteArray) : Except Raised Staging :=
  match staging.insert? (stored, bytes) with
  | some staging => .ok staging
  | none => .error (storageError "File exists")

/-- Retain one artifact. -/
def retainOne (index : ℕ) (artifact : ArtifactRecord) (state : Retaining) :
    Except Raised Retaining := do
  validateArtifactName artifact.name
  let source ← resolveSource host preparation.sourceRoot artifact
  let stored := storedName host index artifact.name
  let (bytes, digest) ← copyAndHash host preparation.sourceRoot source stored
    (request.maxBytes - state.totalBytes) artifact.name
  let staging ← stageCopy state.staging stored bytes
  verifyDeclaredMetrics host declared artifact.name bytes.size digest
  let mediaType ← validatedMediaType host artifact
  .ok {
    retained := state.retained ++ [{
      name := artifact.name
      uri := retainedUri preparation.uriRoot preparation.relativeDirectory stored
      mediaType := some mediaType }]
    metrics := Function.update (Function.update state.metrics (bytesMetric artifact.name)
      (some (.int bytes.size))) (sha256Metric artifact.name) (some (.text digest.text))
    totalBytes := state.totalBytes + bytes.size
    staging := staging }

/-- Retain artifacts from an index on. -/
def retainFrom : ℕ → List ArtifactRecord → Retaining → Except Raised Retaining
  | _, [], state => .ok state
  | index, artifact :: artifacts, state => do
      let state ← retainOne host request declared preparation index artifact state
      retainFrom (index + 1) artifacts state

end GoblinKing
