import GoblinKing.Identifiers
import GoblinKing.Kubernetes.ArtifactCopies
import GoblinKing.Library.Json
import GoblinKing.Library.Listing
import GoblinKing.Library.Outcomes
import GoblinKing.Repository.Contracts
import Mathlib.Data.List.DropRight
import Mathlib.Data.String.Basic

/-!
# Upload bundles

A goblin is uploaded as a zip file with a manifest, which names the member that is executed. The parser
of bundles reads the manifest, the entrypoint, and the file of requirements if there is one, and refuses
everything else that it does not understand with a `ValueError`.

But what `zipfile` raises for a member that is corrupt, encrypted or unsupported is no `ValueError`, nor
is what `json` raises for a manifest that is nested too deep. And a member named `.` is a path without
any part, which is not refused.
-/

open Utf8

namespace GoblinKing

open Posix

/-! ### The library -/

/-- The kinds of exceptions of `zipfile`. -/
inductive ZipErrorKind where
  | badZipFile
  | runtimeError
  | notImplementedError
  | zlibError
  | valueError
  deriving DecidableEq, Repr

/-- An exception of `zipfile`. -/
structure ZipFailure where
  kind : ZipErrorKind
  message : String
  deriving DecidableEq, Repr

/-- Of the exceptions of `zipfile`, only a `ValueError` is one. -/
def ZipFailure.raised (failure : ZipFailure) : Raised where
  kind := if failure.kind = .valueError then .valueError else .other
  message := failure.message

/-- A member of an archive. -/
structure ZipInfo where
  filename : String
  fileSize : ℕ
  /-- what `archive.read` returns for the member -/
  content : Except ZipFailure (List UInt8)

/-- `ZipInfo.is_dir` -/
def ZipInfo.isDir (info : ZipInfo) : Bool :=
  info.filename.toList.getLast? = some '/'

/-- What `json.loads` raises. -/
inductive LoadsFailure where
  | jsonDecodeError
  | valueError (message : String)
  | recursionError
  deriving DecidableEq, Repr

/-- Versioned manifest shipped in a Goblin Directory upload bundle. -/
structure DirectoryBundleManifest where
  name : String
  type : RepositoryGoblinType
  entrypoint : String
  displayName : Option String
  description : Option String
  tags : List String
  projectId : Option String
  image : Option String
  functionName : String
  timeoutSeconds : Option ℤ
  maxRetries : ℤ
  appName : String
  requirements : List String
  requirementsFile : Option String
  port : ℤ
  probePath : String
  deriving DecidableEq, Repr

/-- The functions outside of the repository. -/
structure BundleLibrary where
  /-- the members of the `zipfile.ZipFile` of these bytes -/
  zipFile : List UInt8 → Except ZipFailure (List ZipInfo)
  /-- `json.loads` -/
  jsonLoads : String → Except LoadsFailure Json
  /-- the fields of a manifest with their types, bounds and defaults, before the validators of the
  model, or the text of the `ValidationError` -/
  manifestFields : Json → Except String DirectoryBundleManifest
  /-- the text of the `ValidationError` with the messages of the validators -/
  validationText : List String → String
  /-- `str.lower` -/
  lower : String → String

/-- `str.strip` -/
def strip (text : String) : String :=
  String.ofList ((text.toList.dropWhile (fun c => decide (c ∈ whitespace))).rdropWhile
    (fun c => decide (c ∈ whitespace)))

/-- The characters that end a line. -/
def lineBreaks : List Char :=
  [10, 11, 12, 13, 28, 29, 30, 133, 8232, 8233].map Char.ofNat

/-- The lines of a text behind the start of a line. -/
def linesFrom : List Char → List Char → List (List Char)
  | [], [] => []
  | line, [] => [line]
  | line, '\r' :: '\n' :: rest => line :: linesFrom [] rest
  | line, c :: rest =>
      if c ∈ lineBreaks then line :: linesFrom [] rest else linesFrom (line ++ [c]) rest

/-- `str.splitlines` -/
def splitlines (text : String) : List String :=
  (linesFrom [] text.toList).map String.ofList

/-! ### Bundles -/

/-- `DIRECTORY_MANIFEST` -/
def directoryManifest : String :=
  "goblin-directory.json"

/-- Upload bundle limits enforced before parsing executable source. -/
structure DirectoryBundleLimits where
  maxBundleBytes : ℤ := 5 * 1024 * 1024
  maxSourceBytes : ℤ := 1024 * 1024
  maxRequirementsBytes : ℤ := 64 * 1024
  maxFiles : ℤ := 50

/-- Safe metadata for one uploaded bundle member. -/
structure DirectoryBundleFile where
  path : String
  size : ℕ
  executable : Bool := false
  deriving DecidableEq, Repr

/-- The fields of a payload that belong to a type. -/
inductive SubmitRuntime where
  | function (functionName : String) (timeoutSeconds : Option ℤ) (maxRetries : ℤ)
  | service (appName : String) (requirements : List String) (port : ℤ) (probePath : String)
  deriving DecidableEq, Repr

/-- The payload of a submission. -/
structure SubmitPayload where
  name : String
  type : RepositoryGoblinType
  source : String
  displayName : Option String
  description : Option String
  tags : List String
  projectId : Option String
  image : Option String
  bundleSchemaVersion : ℕ
  bundleEntrypoint : String
  bundleFiles : List DirectoryBundleFile
  runtime : SubmitRuntime
  deriving DecidableEq, Repr

/-- Validated upload bundle preview and normalized directory submit payload. -/
structure DirectoryBundlePreview where
  manifest : DirectoryBundleManifest
  files : List DirectoryBundleFile
  sourcePreview : String
  requirements : List String
  warnings : List String
  submitPayload : SubmitPayload
  deriving DecidableEq, Repr

/-- A `DirectoryBundleError`, which is a `ValueError`. -/
def bundleError {α : Type} (message : String) : Except Raised α :=
  .error ⟨.valueError, message⟩

/-- Normalize a zip member path and reject traversal or absolute paths. -/
def validateSafeBundlePath (value : String) : Except String String :=
  let normalized := strip (String.ofList (value.toList.map (fun c => if c = '\\' then '/' else c)))
  if normalized = "" then
    .error "bundle paths cannot be empty"
  else
    let path := Path.parse normalized
    if path.absolute then
      .error ("bundle paths must be relative: " ++ value)
    else if path.parts.any (fun part => part = "" || part = "." || part = "..") then
      .error ("bundle path is not safe: " ++ value)
    else
      .ok (asPosix path)

/-! ### The manifest -/

/-- `DirectoryBundleManifest.validate_bundle_path` -/
def DirectoryBundleManifest.validateBundlePath : Option String → Except String (Option String)
  | none => .ok none
  | some value => (validateSafeBundlePath value).map some

variable (library : BundleLibrary)

/-- `DirectoryBundleManifest.normalize_tags` -/
def DirectoryBundleManifest.normalizeTags (value : List String) : Except String (List String) :=
  value.foldlM (fun tags tag => do
    let cleaned := library.lower (strip tag)
    if cleaned = "" then
      .ok tags
    else do
      let cleaned ← validateIdentifier "tags must use lowercase letters, digits, dots, or dashes"
        cleaned
      .ok (if cleaned ∈ tags then tags else tags ++ [cleaned])) []

/-- The message of a validator. -/
def messageOf {α : Type} : Except String α → List String
  | .ok _ => []
  | .error message => [message]

/-- `DirectoryBundleManifest.model_validate` -/
def DirectoryBundleManifest.modelValidate (payload : Json) :
    Except String DirectoryBundleManifest :=
  match library.manifestFields payload with
  | .error text => .error text
  | .ok fields =>
      match validateName fields.name, validateSafeBundlePath fields.entrypoint,
        normalizeTags library fields.tags, validateBundlePath fields.requirementsFile with
      | .ok name, .ok entrypoint, .ok tags, .ok requirementsFile =>
          .ok { fields with
            name := name, entrypoint := entrypoint, tags := tags, requirementsFile := requirementsFile }
      | name, entrypoint, tags, requirementsFile =>
          .error (library.validationText (messageOf name ++ messageOf entrypoint ++ messageOf tags
            ++ messageOf requirementsFile))

/-- `_read_text_file` -/
def readTextFile (label : String) (info : ZipInfo) : Except Raised String :=
  match info.content with
  | .error failure => .error failure.raised
  | .ok data =>
      match Utf8.decode data with
      | none => bundleError (label ++ " must be UTF-8 text")
      | some text => .ok (String.ofList (toChars text))

/-- `json.loads` of the manifest, with its errors as they are raised -/
def loadManifest (raw : String) : Except Raised Json :=
  match library.jsonLoads raw with
  | .error .jsonDecodeError => bundleError (directoryManifest ++ " must be valid JSON")
  | .error (.valueError message) => .error ⟨.valueError, message⟩
  | .error .recursionError => .error ⟨.other, "maximum recursion depth exceeded"⟩
  | .ok payload => .ok payload

/-- The manifest in a payload. -/
def validatedManifest (payload : Json) : Except Raised DirectoryBundleManifest :=
  if payload.isObj = false then
    bundleError (directoryManifest ++ " must contain a JSON object")
  else
    (DirectoryBundleManifest.modelValidate library payload).mapError (Raised.mk .valueError)

/-- `_read_manifest` -/
def readManifest (info : ZipInfo) : Except Raised DirectoryBundleManifest := do
  let raw ← readTextFile "manifest" info
  let payload ← loadManifest library raw
  validatedManifest library payload

/-! ### The parser -/

/-- Open an archive, and list its members that are files. -/
def openBundle (data : List UInt8) (limits : DirectoryBundleLimits) : Except Raised (List ZipInfo) :=
  if data = [] then
    bundleError "bundle is empty"
  else if (data.length : ℤ) > limits.maxBundleBytes then
    bundleError ("bundle is too large: " ++ toString data.length ++ " bytes exceeds "
      ++ toString limits.maxBundleBytes)
  else
    match library.zipFile data with
    | .error failure =>
        if failure.kind = .badZipFile then
          bundleError "bundle must be a valid zip file"
        else
          .error failure.raised
    | .ok infos =>
        let infos := infos.filter (fun info => !info.isDir)
        if (infos.length : ℤ) > limits.maxFiles then
          bundleError ("bundle has too many files: " ++ toString infos.length ++ " exceeds "
            ++ toString limits.maxFiles)
        else
          .ok infos

/-- The files under their paths, in the order of the archive. -/
def collectPaths (limits : DirectoryBundleLimits) :
    List (String × ZipInfo) → ℕ → List ZipInfo → Except Raised (List (String × ZipInfo))
  | paths, _, [] => .ok paths
  | paths, totalSize, info :: infos =>
      match validateSafeBundlePath info.filename with
      | .error message => .error ⟨.valueError, message⟩
      | .ok path =>
          if path ∈ paths.map Prod.fst then
            bundleError ("bundle contains duplicate file path: " ++ path)
          else if ((totalSize + info.fileSize : ℕ) : ℤ) > limits.maxBundleBytes then
            bundleError ("bundle uncompressed content exceeds " ++ toString limits.maxBundleBytes
              ++ " bytes")
          else
            collectPaths limits (paths ++ [(path, info)]) (totalSize + info.fileSize) infos

/-- The file under a path. -/
def findFile (paths : List (String × ZipInfo)) (path message : String) : Except Raised ZipInfo :=
  match paths.lookup path with
  | none => bundleError message
  | some info => .ok info

/-- The size of a file is within a bound. -/
def boundSize (info : ZipInfo) (bound : ℤ) (label : String) : Except Raised ZipInfo :=
  if (info.fileSize : ℤ) > bound then
    bundleError (label ++ " is too large: " ++ toString info.fileSize ++ " exceeds " ++ toString bound)
  else
    .ok info

/-- The entrypoint, before it is read. -/
def findEntrypoint (limits : DirectoryBundleLimits) (paths : List (String × ZipInfo))
    (manifest : DirectoryBundleManifest) : Except Raised ZipInfo := do
  let info ← findFile paths manifest.entrypoint ("bundle entrypoint is missing: " ++ manifest.entrypoint)
  boundSize info limits.maxSourceBytes "entrypoint"

/-- The file of requirements if the manifest names one, before it is read. -/
def findRequirements (limits : DirectoryBundleLimits) (paths : List (String × ZipInfo))
    (manifest : DirectoryBundleManifest) : Except Raised (Option ZipInfo) :=
  match manifest.requirementsFile.filter (· ≠ "") with
  | none => .ok none
  | some path => do
      let info ← findFile paths path ("requirements_file is missing: " ++ path)
      let info ← boundSize info limits.maxRequirementsBytes "requirements_file"
      .ok (some info)

/-- `_read_requirements`, if there is a file of requirements -/
def readRequirements : Option ZipInfo → Except Raised (List String)
  | none => .ok []
  | some info => do
      let text ← readTextFile "requirements_file" info
      .ok (((splitlines text).map strip).filter (fun line =>
        decide (line ≠ "" ∧ line.toList.head? ≠ some '#')))

/-- `_dedupe_requirements` -/
def dedupeRequirements (requirements : List String) : List String :=
  ((requirements.map strip).filter (· ≠ "")).foldl
    (fun deduped cleaned => if cleaned ∈ deduped then deduped else deduped ++ [cleaned]) []

/-- `_submit_payload` -/
def submitPayload (manifest : DirectoryBundleManifest) (source : String) (requirements : List String)
    (files : List DirectoryBundleFile) : SubmitPayload where
  name := manifest.name
  type := manifest.type
  source := source
  displayName := manifest.displayName
  description := manifest.description
  tags := manifest.tags
  projectId := manifest.projectId
  image := manifest.image
  bundleSchemaVersion := 1
  bundleEntrypoint := manifest.entrypoint
  bundleFiles := files
  runtime :=
    match manifest.type with
    | .notebookFunction =>
        .function manifest.functionName manifest.timeoutSeconds manifest.maxRetries
    | .notebookService => .service manifest.appName requirements manifest.port manifest.probePath

/-- The files of a preview. -/
def bundleFiles (paths : List (String × ZipInfo)) (manifest : DirectoryBundleManifest) :
    List DirectoryBundleFile :=
  (paths.insertionSort (fun a b => a.1 ≤ b.1)).map (fun file =>
    { path := file.1, size := file.2.fileSize, executable := decide (file.1 = manifest.entrypoint) })

/-- The preview of what has been read. -/
def bundlePreview (paths : List (String × ZipInfo)) (manifest : DirectoryBundleManifest)
    (source : String) (fileRequirements : List String) : DirectoryBundlePreview :=
  let requirements := dedupeRequirements (manifest.requirements ++ fileRequirements)
  let files := bundleFiles paths manifest
  let ignored := files.filter (fun file => decide
    (file.path ∉ [directoryManifest, manifest.entrypoint, manifest.requirementsFile.getD ""]))
  { manifest := manifest
    files := files
    sourcePreview := String.ofList (source.toList.take 2000)
    requirements := requirements
    warnings :=
      if ignored = [] then []
      else ["extra files are shown for review but not executed in bundle schema v1"]
    submitPayload := submitPayload manifest source requirements files }

/-- The files of a bundle and its manifest, before one of them is read. -/
def bundlePaths (data : List UInt8) (limits : DirectoryBundleLimits) :
    Except Raised (List (String × ZipInfo) × ZipInfo) := do
  let infos ← openBundle library data limits
  let paths ← collectPaths limits [] 0 infos
  let info ← findFile paths directoryManifest
    ("bundle must contain " ++ directoryManifest ++ " at the root")
  .ok (paths, info)

/-- Parse a v1 zip bundle into a directory submission payload. -/
def parseDirectoryBundle (data : List UInt8) (limits : DirectoryBundleLimits) :
    Except Raised DirectoryBundlePreview := do
  let (paths, manifestInfo) ← bundlePaths library data limits
  let manifest ← readManifest library manifestInfo
  let entryInfo ← findEntrypoint limits paths manifest
  let source ← readTextFile "entrypoint" entryInfo
  let requirementsInfo ← findRequirements limits paths manifest
  let fileRequirements ← readRequirements requirementsInfo
  .ok (bundlePreview paths manifest source fileRequirements)

/-! ### What a preview promises -/

/-- A relative path without segments that stand for a directory above or for the same one. -/
structure SafePath (path : String) : Prop where
  relative : path.toList.head? ≠ some '/'
  segments : ∀ segment ∈ path.toList.splitOn '/', segment ≠ ['.'] ∧ segment ≠ ['.', '.']

/-- The text of a member. -/
def ZipInfo.HasText (info : ZipInfo) (text : String) : Prop :=
  ∃ data codePoints, info.content = .ok data ∧ Utf8.decode data = some codePoints
    ∧ text = String.ofList (toChars codePoints)

/-- A preview of these members within the limits. -/
structure DirectoryBundlePreview.Valid (limits : DirectoryBundleLimits) (infos : List ZipInfo)
    (preview : DirectoryBundlePreview) : Prop where
  distinct : (preview.files.map DirectoryBundleFile.path).Nodup
  safe : ∀ file ∈ preview.files, SafePath file.path
  count : (preview.files.length : ℤ) ≤ limits.maxFiles
  total : (((preview.files.map DirectoryBundleFile.size).sum : ℕ) : ℤ) ≤ limits.maxBundleBytes
  entrypoint : preview.manifest.entrypoint ∈ preview.files.map DirectoryBundleFile.path
  source : ∃ info ∈ infos, validateSafeBundlePath info.filename = .ok preview.manifest.entrypoint
    ∧ info.HasText preview.submitPayload.source
  requirements : ∃ requirementsInfo fileRequirements,
    readRequirements requirementsInfo = .ok fileRequirements
    ∧ (∀ info ∈ requirementsInfo, info ∈ infos ∧ ∃ path ∈ preview.manifest.requirementsFile,
      validateSafeBundlePath info.filename = .ok path)
    ∧ List.FirstsOf (((preview.manifest.requirements ++ fileRequirements).map strip).filter (· ≠ ""))
      preview.requirements

/-- `archive.read` returns for a member, or raises a `ValueError`. -/
def ZipInfo.Readable (info : ZipInfo) : Prop :=
  ∀ failure, info.content = .error failure → failure.kind = .valueError

section

variable {library}

/-! ### Paths -/

/-- A path without parts is accepted. -/
example : validateSafeBundlePath "." = .ok "." := by decide +kernel

/-! ### The files of a bundle -/

/-- The files that were collected from members, under different paths and within the limit. -/
structure Collected (limits : DirectoryBundleLimits) (infos : List ZipInfo)
    (paths : List (String × ZipInfo)) : Prop where
  members : paths.map Prod.snd = infos
  named : ∀ file ∈ paths, validateSafeBundlePath file.2.filename = .ok file.1
  distinct : (paths.map Prod.fst).Nodup
  total : (((infos.map ZipInfo.fileSize).sum : ℕ) : ℤ) ≤ limits.maxBundleBytes

/-- Going through the members collects them all. -/
theorem Collected.collectPaths {limits : DirectoryBundleLimits} {done infos : List ZipInfo}
    {collected paths : List (String × ZipInfo)} (hdone : Collected limits done collected)
    (h : collectPaths limits collected (done.map ZipInfo.fileSize).sum infos = .ok paths) :
  Collected limits (done ++ infos) paths
  := by
  induction infos generalizing done collected with
  | nil =>
      obtain rfl := Except.ok.inj h
      rw [List.append_nil]
      exact hdone
  | cons info infos ih =>
      rw [GoblinKing.collectPaths] at h
      split at h
      · cases h
      · next path hpath =>
          split_ifs at h with hmem hsize
          · cases h
          · cases h
          · have hsum : ((done ++ [info]).map ZipInfo.fileSize).sum
                = (done.map ZipInfo.fileSize).sum + info.fileSize := by
              rw [List.map_append, List.sum_append, List.map_singleton, List.sum_singleton]
            rw [List.append_cons]
            rw [← hsum] at h
            apply ih _ h
            constructor
            · rw [List.map_append, hdone.members, List.map_singleton]
            · intro file hfile
              rcases List.mem_append.mp hfile with hfile | hfile
              · exact hdone.named file hfile
              · rw [List.mem_singleton.mp hfile]
                exact hpath
            · rw [List.map_append, List.map_singleton, ← List.concat_eq_append]
              exact hdone.distinct.concat hmem
            · rw [hsum]
              exact not_lt.mp hsize

section

variable {limits : DirectoryBundleLimits} {infos members : List ZipInfo}
  {paths : List (String × ZipInfo)} {manifest : DirectoryBundleManifest} {entryInfo : ZipInfo}
  {source : String} {requirementsInfo : Option ZipInfo} {fileRequirements : List String}

end

/-! ### What is raised -/

end

end GoblinKing
