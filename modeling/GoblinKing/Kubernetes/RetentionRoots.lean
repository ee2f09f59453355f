import GoblinKing.Kubernetes.RetentionAccesses

/-!
# The roots of a retention

The sources of a retention in a file tree with links anywhere. What is copied is at the names of the
artifact behind the real source root, and no link is on the way below it: the names are decoded, compared
with the root, looked up one after the other and resolved before the file is opened.
-/

namespace GoblinKing

open Posix Except
open Emission (ofExcept Every every_ofExcept every_emit)

/-! ### Files -/

/-- The files that a retention finds. Under a file there can be something else than a regular file, which
its details tell. -/
structure SourceFiles where
  tree : FileTree
  /-- the real names of the working directory -/
  workingDirectory : List String
  working : tree.Unlinked [] workingDirectory ∧ ".." ∉ workingDirectory
  /-- how many parts and links are resolved at most -/
  steps : ℕ
  details : List String → FileStat
  regular : ∀ names, (details names).regular = true → tree.isFile names = true
  reads : List String → List ByteArray
  readError : List String → Option String
  /-- the exception about a path that does not resolve -/
  failure : ResolutionFailure → Raised

namespace SourceFiles

variable (files : SourceFiles)

/-- Where a path begins. -/
def base (path : Path) : List String :=
  if path.absolute then [] else files.workingDirectory

/-- `Path.resolve` of a path that must exist -/
def real (path : Path) : Except ResolutionFailure (List String) :=
  files.tree.enter files.steps (files.base path) path.parts

/-- A link is at a path; `none` when there is nothing. -/
def isLink (path : Path) : Option Bool :=
  (files.tree.lookUp files.steps (files.base path) path.parts).map (fun node =>
    match node with
    | .link _ _ => true
    | .file _ _ | .directory => false)

/-- A file that does not change while it is read. -/
def opened (names : List String) : OpenedFile where
  before := files.details names
  reads := files.reads names
  readError := files.readError names
  after := files.details names

/-- Open a directory that is no link, and then what is behind it. -/
def openBehind (root relative : Path) : Option (List String) :=
  match files.tree.lookUp files.steps (files.base root) root.parts, files.real root with
  | some .directory, .ok names => files.tree.openBeneath names relative.parts
  | _, _ => none

end SourceFiles

/-- The answers of a host are about some files. -/
def RetentionHost.onFiles (host : RetentionHost) (files : SourceFiles) : RetentionHost :=
  { host with
    resolveRoot path := match files.real path with
      | .ok names => .ok ⟨true, names⟩
      | .error failure => .error (files.failure failure)
    isLink := files.isLink
    resolve path := match files.real path with
      | .ok names => .ok ⟨true, names⟩
      | .error .notFound => .error .notFound
      | .error failure => .error (.osError (files.failure failure).message)
    stat path := match files.real path with
      | .ok names => .ok (files.details names)
      | .error failure => .error (files.failure failure).message
    openFile root relative := (files.openBehind root relative).map files.opened }

/-! ### The property -/

section

variable (host : RetentionHost) (files : SourceFiles) (request : ArtifactRetentionRequest)
  (suffix : StagingSuffix)

/-- What is opened behind a path is a regular file below the real source root that is its own real path
and that no link below the root leads to. -/
def CopiesSource (sourceRoot relative : Path) : Prop :=
  ∃ root, files.real request.sourceRoot = .ok root ∧
    files.openBehind sourceRoot relative = some (root ++ relative.parts) ∧
    relative.parts ≠ [] ∧
    files.real ⟨true, root ++ relative.parts⟩ = .ok (root ++ relative.parts) ∧
    files.tree.Unlinked root relative.parts ∧
    (files.details (root ++ relative.parts)).regular = true

/-- An access stays within the roots: a file is created in the staging directory beside the retained
directory of the run, behind directories that are no links. -/
def WithinRoots : RetentionAccess → Prop
  | .makeDirectory names =>
      names <+: (request.directory host).dropLast ∨ names = stagingPlace host request suffix
  | .copy sourceRoot relative => CopiesSource files request sourceRoot relative
  | .create names =>
      (∃ stored, Plain stored ∧ names = stagingPlace host request suffix ++ [stored]) ∧
        ∀ parents, parents ≠ [] → parents <+: (request.directory host).dropLast →
          host.isPlainDirectory parents = true
  | .rename source target =>
      source = stagingPlace host request suffix ∧ target = request.directory host

/-- Different texts among some have different digests. -/
def DigestsDiffer (texts : List String) : Prop :=
  ∀ text ∈ texts, ∀ other ∈ texts,
    (host.sha256 text.toUTF8).text = (host.sha256 other.toUTF8).text → text = other

end

/-! ### Sources -/

section

variable {files : SourceFiles}

theorem SourceFiles.real_unlinked {path : Path} {names : List String}
    (h : files.real path = .ok names) :
  files.tree.Unlinked [] names ∧ ".." ∉ names
  := by
  apply FileTree.enter_unlinked _ h
  unfold SourceFiles.base
  split
  case isTrue => exact ⟨trivial, List.not_mem_nil⟩
  case isFalse => exact files.working

/-- Real names resolve to themselves. -/
theorem SourceFiles.real_eq {names resolved : List String} (hlinks : files.tree.Unlinked [] names)
    (hup : ".." ∉ names) (h : files.real ⟨true, names⟩ = .ok resolved) :
  resolved = names
  := by
  obtain ⟨more, hwalk⟩ := FileTree.walk_of_enter h
  exact hlinks.walk_eq (fun name hname heq => hup (heq ▸ hname)) hwalk

/-- What is looked up under a name in a real directory is there. -/
theorem lookUp_of_unlinked {tree : FileTree} {steps : ℕ} {names : List String} {part : String}
    {node : Node} (hlinks : tree.Unlinked [] names) (hup : ".." ∉ names) (hpart : part ≠ "..")
    (h : tree.lookUp steps [] (names ++ [part]) = some node) :
  tree.node (names ++ [part]) = some node
  := by
  rw [FileTree.lookUp, List.getLast?_concat, List.dropLast_concat] at h
  dsimp only at h
  split at h
  case h_1 => cases h
  case h_2 directory hdirectory =>
    rw [if_neg hpart] at h
    obtain ⟨more, hwalk⟩ := FileTree.walk_of_enter hdirectory
    have hnames : ∀ name ∈ names, name ≠ ".." := fun name hname heq => hup (heq ▸ hname)
    have hsame := hlinks.walk_eq hnames hwalk
    rw [List.nil_append] at hsame
    rwa [hsame] at h

/-- The parts of a path behind a real directory that have been checked are no links. -/
theorem unlinked_of_rejectSymbolicLinkComponents {host : RetentionHost} {name : String}
    {root parts : List String} (hroot : files.tree.Unlinked [] root ∧ ".." ∉ root)
    (hparts : ".." ∉ parts)
    (h : rejectSymbolicLinkComponents (host.onFiles files) name ⟨true, root⟩ parts = .ok ()) :
  files.tree.Unlinked root parts
  := by
  induction parts generalizing root with
  | nil => trivial
  | cons part parts ih =>
      rw [List.mem_cons, not_or] at hparts
      obtain ⟨hpart, hparts⟩ := hparts
      rw [rejectSymbolicLinkComponents] at h
      dsimp only at h
      split at h
      case isTrue => cases h
      case isFalse =>
        split at h
        case h_1 => cases h
        case h_2 => cases h
        case h_3 hlink =>
          have hnode : ∃ node, files.tree.lookUp files.steps [] (root ++ [part]) = some node ∧
              ∀ absolute target, node ≠ .link absolute target := by
            obtain ⟨node, hnode, hkind⟩ := Option.map_eq_some_iff.mp hlink
            use node, hnode
            rintro absolute target rfl
            cases hkind
          obtain ⟨node, hnode, hkind⟩ := hnode
          have hthere := lookUp_of_unlinked hroot.1 hroot.2 (Ne.symm hpart) hnode
          have hfree : files.tree.isLink (root ++ [part]) = false := by
            rw [FileTree.isLink, hthere]
            cases node with
            | link absolute target => exact absurd rfl (hkind absolute target)
            | file modified size => rfl
            | directory => rfl
          use hfree
          apply ih _ hparts h
          use FileTree.unlinked_concat hroot.1 hfree
          rw [List.mem_append, List.mem_singleton, not_or]
          exact ⟨hroot.2, hpart⟩

/-- The source of an artifact is a regular file behind the root, reached without a link. -/
theorem resolveSource_onFiles {host : RetentionHost} {root : List String} {artifact : ArtifactRecord}
    {source : ArtifactSource} (hroot : files.tree.Unlinked [] root ∧ ".." ∉ root)
    (h : resolveSource (host.onFiles files) ⟨true, root⟩ artifact = .ok source) :
  files.tree.Unlinked root source.relative.parts ∧
    files.real ⟨true, root ++ source.relative.parts⟩ = .ok (root ++ source.relative.parts) ∧
    (files.details (root ++ source.relative.parts)).regular = true
  := by
  simp only [resolveSource, bind_eq_ok] at h
  obtain ⟨relative, hrelative, ⟨⟩, hlinks, resolved, hresolved, sourceStat, hstat, ⟨⟩, hregular, h⟩ := h
  cases h
  have hshape : relative.absolute = false ∧ ".." ∉ relative.parts := by
    simp only [unresolvedRelative, bind_eq_ok] at hrelative
    obtain ⟨parsed, -, -, -, -, -, hrelative⟩ := hrelative
    split at hrelative
    case h_1 => cases hrelative
    case h_2 found hfound =>
      split at hrelative
      case isTrue => cases hrelative
      case isFalse hup =>
        cases hrelative
        use ?_, hup
        unfold relativeTo at hfound
        split at hfound
        case isTrue => rw [← Option.some.inj hfound]
        case isFalse => cases hfound
  have hunlinked := unlinked_of_rejectSymbolicLinkComponents hroot hshape.2 hlinks
  have hjoin : (⟨true, root⟩ : Path).join relative = ⟨true, root ++ relative.parts⟩ := by
    rw [Path.join, if_neg (by simp [hshape.1])]
  have hall : files.tree.Unlinked [] (root ++ relative.parts) := by
    rw [FileTree.unlinked_append, List.nil_append]
    exact ⟨hroot.1, hunlinked⟩
  have hup : ".." ∉ root ++ relative.parts := by
    rw [List.mem_append, not_or]
    exact ⟨hroot.2, hshape.2⟩
  have hreal : resolved = ⟨true, root ++ relative.parts⟩ ∧
      files.real ⟨true, root ++ relative.parts⟩ = .ok (root ++ relative.parts) := by
    rw [resolveInside, hjoin] at hresolved
    simp only [RetentionHost.onFiles] at hresolved
    cases hnames : files.real ⟨true, root ++ relative.parts⟩ with
    | ok names =>
        rw [hnames] at hresolved
        dsimp only at hresolved
        obtain rfl := files.real_eq hall hup hnames
        split at hresolved
        case isTrue => exact ⟨(Except.ok.inj hresolved).symm, rfl⟩
        case isFalse => cases hresolved
    | error failure =>
        rw [hnames] at hresolved
        cases failure <;> cases hresolved
  obtain ⟨rfl, hreal⟩ := hreal
  use hunlinked, hreal
  simp only [RetentionHost.onFiles, hreal, Except.mapError] at hstat
  rw [Except.ok.inj hstat]
  simpa using refuseIf_ok.mp hregular

/-- What is opened behind real names is at the names behind them. -/
theorem openBehind_eq {root names : List String} {relative : Path}
    (hroot : files.tree.Unlinked [] root ∧ ".." ∉ root)
    (h : files.openBehind ⟨true, root⟩ relative = some names) :
  names = root ++ relative.parts ∧ relative.parts ≠ []
  := by
  unfold SourceFiles.openBehind at h
  split at h
  case h_1 found _ hfound =>
    obtain rfl := files.real_eq hroot.1 hroot.2 hfound
    obtain ⟨hnames, -, hne⟩ := FileTree.openBeneath_eq h
    exact ⟨hnames, hne⟩
  case h_2 => cases h

end

/-! ### Accesses -/

section

variable {host : RetentionHost} {request : ArtifactRetentionRequest} {p : RetentionAccess → Prop}

theorem every_tracedDirectoryTree {current components : List String}
    (h : ∀ names, current <+: names → names <+: current ++ components → p (.makeDirectory names)) :
  Every p (tracedDirectoryTree host current components)
  := by
  induction components generalizing current with
  | nil => exact every_ofExcept
  | cons component components ih =>
      rw [List.append_cons] at h
      rw [tracedDirectoryTree]
      apply Every.behind
      intro _ _
      apply Every.emit_bind (h _ (List.prefix_append _ _) (List.prefix_append _ _))
      apply Every.behind
      intro _ _
      apply Every.behind
      intro _ _
      apply ih
      intro names hnames
      exact h names ((List.prefix_append _ _).trans hnames)

/-- Behind directories that have been made, all of them are directories and no links. -/
theorem ensureSharedDirectoryTree_ok {current components : List String}
    (h : ensureSharedDirectoryTree host current components = .ok ()) {parents : List String}
    (hlonger : current.length < parents.length) (hparents : parents <+: current ++ components) :
  host.isPlainDirectory parents = true
  := by
  induction components generalizing current with
  | nil =>
      rw [List.append_nil] at hparents
      exact absurd hparents.length_le (Nat.not_le_of_lt hlonger)
  | cons component components ih =>
      simp only [ensureSharedDirectoryTree, bind_eq_ok] at h
      obtain ⟨-, -, ⟨⟩, hplain, -, -, h⟩ := h
      rw [List.append_cons] at hparents
      by_cases hmore : (current ++ [component]).length < parents.length
      · exact ih h hmore hparents
      · have hsame : parents = current ++ [component] := by
          apply (List.prefix_of_prefix_length_le hparents (List.prefix_append _ _) _).eq_of_length
          · rw [List.length_append, List.length_singleton] at hmore ⊢
            omega
          · omega
        rw [hsame]
        simpa using refuseIf_ok.mp hplain

theorem every_tracedCopyChunks {sourceRoot relative : Path} {storedName : String} {remaining : ℤ}
    {readError : Option String} {chunks : List ByteArray} {copied : ByteArray}
    (h : p (.copy sourceRoot relative)) :
  Every p (tracedCopyChunks host sourceRoot relative storedName remaining readError chunks copied)
  := by
  induction chunks generalizing copied with
  | nil => exact every_ofExcept
  | cons chunk chunks ih =>
      rw [tracedCopyChunks]
      apply Every.behind
      intro _ _
      apply Every.behind
      intro _ _
      exact Every.emit_bind h ih

/-- A copy creates a file, and copies what is opened. -/
theorem every_tracedCopyAndHash {place : List String} {sourceRoot : Path} {source : ArtifactSource}
    {storedName : String} {remaining : ℤ} {name : String}
    (hcreate : p (.create (place ++ [storedName])))
    (hcopy : ∀ file, host.openFile sourceRoot source.relative = some file →
      p (.copy sourceRoot source.relative)) :
  Every p (tracedCopyAndHash host place sourceRoot source storedName remaining name)
  := by
  unfold tracedCopyAndHash
  cases hopen : host.openFile sourceRoot source.relative with
  | none => exact every_ofExcept
  | some file =>
      dsimp only
      rw [tracedCopyFdAndHash]
      apply Every.behind
      intro _ _
      apply Every.behind
      intro _ _
      apply Every.behind
      intro _ _
      apply Every.emit_bind hcreate
      apply Every.behind
      intro _ _
      apply (every_tracedCopyChunks (hcopy file hopen)).bind
      intro _ _
      apply Every.behind
      intro _ _
      exact every_ofExcept

/-- The accesses of the loop are those of its copies. -/
theorem every_tracedRetainFrom {place : List String} {declared : Metrics} {preparation : Preparation}
    {index : ℕ} {artifacts : List ArtifactRecord} {state : Retaining}
    (hcreate : ∀ index name, p (.create (place ++ [storedName host index name])))
    (hcopy : ∀ artifact source file,
      resolveSource host preparation.sourceRoot artifact = .ok source →
      host.openFile preparation.sourceRoot source.relative = some file →
      p (.copy preparation.sourceRoot source.relative)) :
  Every p (tracedRetainFrom host request place declared preparation index artifacts state)
  := by
  induction artifacts generalizing index state with
  | nil => exact every_ofExcept
  | cons artifact artifacts ih =>
      rw [tracedRetainFrom]
      apply Every.bind
      · rw [tracedRetainOne]
        apply Every.behind
        intro _ _
        apply Every.behind
        intro source hsource
        apply (every_tracedCopyAndHash (hcreate _ _)
          (fun file hfile => hcopy artifact source file hsource hfile)).bind
        intro _ _
        apply Every.behind
        intro _ _
        apply Every.behind
        intro _ _
        apply Every.behind
        intro _ _
        exact every_ofExcept
      · intro _ _
        exact ih

end

/-! ### Main results -/

theorem plain_storedName (host : RetentionHost) (index : ℕ) (name : String) :
  Plain (storedName host index name)
  := by
  apply plain_of_mem_retainedNames host none "" index name
  simp [retainedNames]

/-- Requests with the same directory have the same scope and the same run, as long as their texts have
different digests. -/
theorem retainedDirectory_inj {host : RetentionHost} {projectId otherProjectId : Option String}
    {runId otherRunId : String}
    (hdiffer : DigestsDiffer host (projectId.toList ++ otherProjectId.toList ++ [runId, otherRunId]))
    (h : retainedDirectory host projectId runId = retainedDirectory host otherProjectId otherRunId) :
  projectId = otherProjectId ∧ runId = otherRunId
  := by
  have hunscoped : ∀ digest : Digest, digest.text ≠ "unscoped" := by
    intro digest heq
    have hvalid := digest.valid
    rw [heq] at hvalid
    revert hvalid
    decide
  simp only [retainedDirectory, List.cons.injEq, true_and, and_true] at h
  obtain ⟨hscope, hrun⟩ := h
  constructor
  · cases projectId with
    | none =>
        cases otherProjectId with
        | none => rfl
        | some other => exact absurd hscope.symm (hunscoped _)
    | some project =>
        cases otherProjectId with
        | none => exact absurd hscope (hunscoped _)
        | some other => rw [hdiffer project (by simp) other (by simp) hscope]
  · exact hdiffer runId (by simp) otherRunId (by simp) hrun

section

variable (host : RetentionHost) (files : SourceFiles) (result : WorkerResult)
  (request : ArtifactRetentionRequest) (suffix : StagingSuffix)

/-- Only the destination, the directories of the scope and the staging directory are made. -/
theorem every_tracedPrepareStaging :
  Every (WithinRoots host files request suffix)
    (tracedPrepareStaging (host.onFiles files) result request suffix)
  := by
  rw [tracedPrepareStaging]
  apply Every.behind
  rintro ⟨destinationRoot, uriRoot⟩ -
  dsimp only
  apply Every.behind
  intro _ _
  apply Every.behind
  intro _ _
  apply Every.emit_bind
  · left
    apply List.nil_prefix
  · apply Every.behind
    intro _ _
    apply Every.bind
    · apply every_tracedDirectoryTree
      intro names _ hnames
      left
      exact hnames
    · intro _ _
      apply Every.behind
      intro _ _
      apply Every.emit_bind
      · right
        rfl
      · apply Every.behind
        intro _ _
        exact every_ofExcept

variable {host} {files} {result} {request}

/-- The prepared source is a real directory, and the directories above the staging directory are no
links. -/
theorem prepareStaging_onFiles {preparation : Preparation}
    (h : prepareStaging (host.onFiles files) result request = .ok preparation) :
  (∃ root, files.real request.sourceRoot = .ok root ∧ preparation.sourceRoot = ⟨true, root⟩) ∧
    ∀ parents, parents ≠ [] → parents <+: (request.directory host).dropLast →
      host.isPlainDirectory parents = true
  := by
  simp only [prepareStaging, bind_eq_ok] at h
  obtain ⟨⟨destinationRoot, uriRoot⟩, -, sourceRoot, hroot, -, -, -, -, ⟨⟩, htree, -, -, -, -, h⟩ := h
  cases h
  constructor
  · simp only [RetentionHost.onFiles] at hroot
    split at hroot
    case h_1 root hreal => exact ⟨root, hreal, (Except.ok.inj hroot).symm⟩
    case h_2 => cases hroot
  · intro parents hne hparents
    exact ensureSharedDirectoryTree_ok htree (List.length_pos_iff.mpr hne) hparents

/-- What is opened for a resolved artifact is its source. -/
theorem copiesSource_of_openFile {root : List String} {artifact : ArtifactRecord}
    {source : ArtifactSource} {file : OpenedFile} (hroot : files.real request.sourceRoot = .ok root)
    (hsource : resolveSource (host.onFiles files) ⟨true, root⟩ artifact = .ok source)
    (hfile : (host.onFiles files).openFile ⟨true, root⟩ source.relative = some file) :
  CopiesSource files request ⟨true, root⟩ source.relative
  := by
  have hunlinked := files.real_unlinked hroot
  obtain ⟨names, hnames, -⟩ := Option.map_eq_some_iff.mp hfile
  obtain ⟨hlinks, hself, hregular⟩ := resolveSource_onFiles hunlinked hsource
  obtain ⟨rfl, hne⟩ := openBehind_eq hunlinked hnames
  exact ⟨root, hroot, hnames, hne, hself, hlinks, hregular⟩

end

/-- The accesses of a retention from files stay within its roots. -/
theorem every_tracedRetainAll (host : RetentionHost) (files : SourceFiles) (result : WorkerResult)
    (request : ArtifactRetentionRequest) (suffix : StagingSuffix) (before : RetainedPlace) :
  Every (WithinRoots host files request suffix)
    (tracedRetainAll (host.onFiles files) result request suffix before)
  := by
  rw [tracedRetainAll]
  apply Every.bind
  · rw [tracedStageArtifacts]
    apply (every_tracedPrepareStaging host files result request suffix).bind
    intro preparation hpreparation
    rw [outcome_tracedPrepareStaging] at hpreparation
    obtain ⟨⟨root, hreal, hroot⟩, hparents⟩ := prepareStaging_onFiles hpreparation
    apply every_tracedRetainFrom
    · intro index name
      exact ⟨⟨_, plain_storedName _ index name, rfl⟩, hparents⟩
    · intro artifact source file hsource hfile
      rw [hroot] at hsource hfile ⊢
      exact copiesSource_of_openFile hreal hsource hfile
  · intro state _ access haccess
    change access ∈ commitAccesses (host.onFiles files) request suffix before at haccess
    unfold commitAccesses at haccess
    split at haccess
    case h_1 => cases haccess
    case h_2 => cases haccess
    case h_3 =>
      split at haccess
      case h_1 =>
        rw [List.mem_singleton.mp haccess]
        exact ⟨rfl, rfl⟩
      case h_2 => cases haccess

/-- A retention copies bytes only from regular files below the real source root that no link below it
leads to, it creates files only in a staging directory beside the retained directory of the run, which is
what the staging directory is renamed to, and different runs have different directories. -/
theorem retention_withinRoots (host : RetentionHost) (files : SourceFiles) :
  (∀ (result : WorkerResult) (request : ArtifactRetentionRequest) (suffix : StagingSuffix)
      (before : RetainedPlace),
    ∀ access ∈ retentionAccesses (host.onFiles files) result request suffix before,
      WithinRoots host files request suffix access) ∧
  ∀ (projectId otherProjectId : Option String) (runId otherRunId : String),
    DigestsDiffer host (projectId.toList ++ otherProjectId.toList ++ [runId, otherRunId]) →
      (projectId, runId) ≠ (otherProjectId, otherRunId) →
        retainedDirectory host projectId runId ≠ retainedDirectory host otherProjectId otherRunId
  := by
  constructor
  · intro result request suffix before access haccess
    unfold retentionAccesses at haccess
    split at haccess
    case isTrue => cases haccess
    case isFalse => exact every_tracedRetainAll host files result request suffix before access haccess
  · intro projectId otherProjectId runId otherRunId hdiffer hne heq
    obtain ⟨rfl, rfl⟩ := retainedDirectory_inj hdiffer heq
    exact hne rfl

/-- The digests of what is hashed below. -/
def hashedTexts : List (String × Digest) :=
  [("1", ⟨"6b86b273ff34fce19d6b804eff5a3f5747ada4eaa22f1d49c01e52ddb7875b4b", by decide⟩),
    ("run-1", ⟨"4e65d3fbe8ad6535681b021b30785b12b6c0e3f8878859a4148b3f58b8835db0", by decide⟩),
    ("run-2", ⟨"b9d17232a4c83d9928ee0d4e6fab81d3802cd3bf898149558e1abf8b24e1ba49", by decide⟩),
    ("a", ⟨"ca978112ca1bbdcafac231b39a23dc4da786eff8147c4e72b9807785afee48bb", by decide⟩)]

/-- A host that digests these texts. -/
def digestHost : RetentionHost :=
  { linklessHost with
    sha256 bytes :=
      (hashedTexts.find? (fun entry => entry.1.toUTF8.data = bytes.data)).elim (linklessHost.sha256 bytes)
        Prod.snd
    urlsplit uri := .ok ⟨"", "", uri⟩ }

/-- A source with one file in it, and a destination. -/
def singleFile : SourceFiles where
  tree := ⟨fun names =>
    if names = ["source"] ∨ names = ["kept"] then some .directory
    else if names = ["source", "a"] then some (.file 0 1)
    else none⟩
  workingDirectory := []
  working := ⟨trivial, List.not_mem_nil⟩
  steps := 8
  details names := ⟨names = ["source", "a"], 0, 0, 1, 0, 0⟩
  regular := by
    intro names hnames
    rw [decide_eq_true_iff] at hnames
    rw [hnames]
    rfl
  reads _ := [⟨#[97]⟩]
  readError _ := none
  failure _ := ⟨.osError, ""⟩

/-- A result with one artifact. -/
def singleArtifact : WorkerResult where
  status := .success
  artifacts := [⟨"a", "a", some "text/plain"⟩]
  metrics _ := none

/-- A request for the single file. -/
def singleRequest : ArtifactRetentionRequest where
  sourceRoot := ⟨true, ["source"]⟩
  destinationRoot := some ⟨true, ["kept"]⟩
  uriRoot := some "/kept"
  runId := "run-1"

/-- The directories of two runs are different. -/
theorem directories_differ :
  retainedDirectory digestHost none "1" ≠ retainedDirectory digestHost none "run-2"
  := (retention_withinRoots digestHost singleFile).2 none none "1" "run-2"
    (by
      rintro text htext other hother heq
      simp only [Option.toList_none, List.nil_append, List.mem_cons, List.not_mem_nil,
        or_false] at htext hother
      rcases htext with rfl | rfl
      · rcases hother with rfl | rfl
        · rfl
        · revert heq
          decide +kernel
      · rcases hother with rfl | rfl
        · revert heq
          decide +kernel
        · rfl)
    (by decide)

/-- A file is created in the staging directory and not in the directory of the run. -/
theorem singleFile_created_beside :
  ¬ ∀ names, .create names ∈ retentionAccesses (digestHost.onFiles singleFile) singleArtifact
      singleRequest ⟨"x", by decide⟩ .absent →
    singleRequest.directory digestHost <+: names
  := by
  intro h
  have hprefix := h (stagingPlace digestHost singleRequest ⟨"x", by decide⟩
    ++ [storedName digestHost 0 "a"]) (by decide +kernel)
  revert hprefix
  decide +kernel

end GoblinKing
