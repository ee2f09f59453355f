import GoblinKing.Api.Queueing

/-!
# Ceilings

No job above a ceiling gets into the queue; unless it is a job for a notebook kind, which
is queued with the values of the request, or else of the notebook.
-/

namespace GoblinKing

/-- The jobs that a step saves are within the ceilings. -/
def SavesWithin (ceilings : ResourcePolicy) (before after : Jobs) : Prop :=
  ∀ job ∈ after.rows, job ∉ before.rows →
    ceilings.allows job.maxRetries job.timeoutSeconds = true

/-- A request asks for more than a ceiling. A retry asks for what its source has, where the
request says nothing. -/
def QueueAction.exceeds (ceilings : ResourcePolicy) (db : QueueDb) : QueueAction → Bool
  | .createJob request _ _ _ =>
      !ceilings.allows request.maxRetries (seconds? request.timeoutSeconds)
  | .runRepositoryFunction _ request _ _ _ =>
      !ceilings.allows request.maxRetries (seconds? request.timeoutSeconds)
  | .createFanout request _ _ _ _ =>
      request.items.any (fun item =>
        !ceilings.allows item.maxRetries (seconds? item.timeoutSeconds))
  | .retryJob sourceId request _ _ =>
      (db.scheduler.jobs.find? sourceId).any (fun source =>
        !ceilings.allows (request.maxRetries.getD source.maxRetries)
          ((seconds? request.timeoutSeconds).or source.timeoutSeconds))
  | .materialize _ schedule _ _ =>
      !ceilings.allows schedule.maxRetries schedule.timeoutSeconds

/-- A step keeps the ceilings: the jobs it saves are within them, and it saves none when the
request asks for more. -/
structure KeepsCeilings (ceilings : ResourcePolicy) (db : QueueDb) (a : QueueAction)
    (db' : QueueDb) : Prop where
  within : SavesWithin ceilings db.scheduler.jobs db'.scheduler.jobs
  rejects : a.exceeds ceilings db = true → db'.scheduler.jobs = db.scheduler.jobs

/-- A request that is accepted for a notebook kind, with values above a ceiling. -/
def notebookExceeds (config : QueueConfig) (ceilings : ResourcePolicy) (db : QueueDb)
    (request : JobCreateRequest) (principal : Principal) : Bool :=
  decide (request.kind ∉ config.kinds)
    && (db.repository.goblins.find? request.kind).any (fun notebook =>
      (jobProject config request principal notebook.projectId).isOk
        && (request.projectId.isNone || decide (request.projectId = notebook.projectId))
        && !ceilings.allows (notebookRetries request notebook) (notebookTimeout request notebook))

/-- A request that is accepted for a notebook kind, by itself or through the repository, with
values above a ceiling. -/
def QueueAction.bypassesCeilings (config : QueueConfig) (ceilings : ResourcePolicy)
    (db : QueueDb) : QueueAction → Bool
  | .createJob request principal _ _ => notebookExceeds config ceilings db request principal
  | .runRepositoryFunction name request principal _ _ =>
      match repositoryFunctionRequest config db name request principal with
      | .ok jobRequest => notebookExceeds config ceilings db jobRequest principal
      | .error _ => false
  | .createFanout _ _ _ _ _ | .retryJob _ _ _ _ | .materialize _ _ _ _ => false

section

variable {config : QueueConfig} {policies : ResourcePolicySet} {ceilings : ResourcePolicy}
  {db db' : QueueDb} {a : QueueAction} {request : JobCreateRequest} {principal : Principal}
  {jobId : Id} {createdAt : Instant} {job : JobRecord}

/-! ### Saving -/

/-- A job that is saved is added to the rows, under an identifier that was free. -/
theorem rows_of_save (h : db.save job = some db') :
  db'.scheduler.jobs.rows = db.scheduler.jobs.rows ++ [job] ∧ job ∉ db.scheduler.jobs.rows
  := by
  obtain ⟨jobs, hsave, rfl⟩ := Option.map_eq_some_iff.mp h
  have hnone : db.scheduler.jobs.find? job.id = none := Table.find?_of_insert? hsave
  use Table.rows_insert? hsave
  intro hmem
  apply Table.find?_eq_none.mp hnone job hmem rfl

/-- Jobs that are saved are added to the rows. -/
theorem rows_of_saveAll {jobs : List JobRecord} (h : db.saveAll jobs = some db') :
  db'.scheduler.jobs.rows = db.scheduler.jobs.rows ++ jobs
  := by
  induction jobs generalizing db with
  | nil =>
      obtain rfl := Option.some.inj h
      rw [List.append_nil]
  | cons job jobs ih =>
      obtain ⟨db₁, hsave, h⟩ := Option.bind_eq_some_iff.mp h
      rw [ih h, (rows_of_save hsave).1, List.append_assoc, List.singleton_append]

/-- A step that saves at most one job keeps the ceilings when the job is within them and the
request does not ask for more. -/
theorem keepsCeilings_saveOr {queued : Except String JobRecord}
    (h : db.saveOr queued = some db') :
  KeepsCeilings ceilings db a db'
    ↔ ∀ job, queued = .ok job →
      ceilings.allows job.maxRetries job.timeoutSeconds = true ∧ a.exceeds ceilings db = false
  := by
  cases queued with
  | error error =>
      obtain rfl := Option.some.inj h
      apply iff_of_true
      · constructor
        · intro job hjob hnew
          cases hnew hjob
        · intro _
          rfl
      · intro job hjob
        cases hjob
  | ok job =>
      obtain ⟨hrows, hnew⟩ := rows_of_save h
      constructor
      · rintro hkeeps _ ⟨⟩
        constructor
        · apply hkeeps.within job _ hnew
          rw [hrows]
          apply List.mem_append_right _ List.mem_cons_self
        · rw [← Bool.not_eq_true]
          intro hexceeds
          rw [hkeeps.rejects hexceeds] at hrows
          simp at hrows
      · intro hjob
        obtain ⟨hallows, hexceeds⟩ := hjob job rfl
        constructor
        · intro job' hjob' hnew'
          rw [hrows] at hjob'
          obtain rfl := List.mem_singleton.mp ((List.mem_append.mp hjob').resolve_left hnew')
          apply hallows
        · rw [hexceeds]
          intro hfalse
          cases hfalse

/-! ### Policies -/

/-- A job under its effective policy is within the ceilings, and so is what was asked for. -/
theorem allows_underPolicy (hpolicies : config.policies = some policies) {kind : String}
    {timeoutSeconds : Option ℕ} {maxRetries : ℕ} {policy : Option ResourcePolicy}
    (h : effectivePolicy config kind timeoutSeconds maxRetries = .ok policy) (job : JobRecord) :
  policies.ceilings.allows (job.underPolicy config policy).maxRetries
      (job.underPolicy config policy).timeoutSeconds = true
    ∧ policies.ceilings.allows maxRetries timeoutSeconds = true
  := by
  simp only [effectivePolicy, hpolicies] at h
  obtain ⟨policy, heffective, h⟩ := Except.bind_eq_ok.mp h
  obtain rfl := Except.ok.inj h
  apply ResourcePolicySet.allows_of_effectiveFor heffective

/-- A job of a kind of the registry is within the ceilings, and so is its request. -/
theorem allows_of_registryJob (hpolicies : config.policies = some policies)
    (h : registryJob config request principal jobId createdAt = .ok job) :
  policies.ceilings.allows job.maxRetries job.timeoutSeconds = true
    ∧ policies.ceilings.allows request.maxRetries (seconds? request.timeoutSeconds) = true
  := by
  obtain ⟨projectId, -, h⟩ := Except.bind_eq_ok.mp h
  obtain ⟨policy, hpolicy, h⟩ := Except.bind_eq_ok.mp h
  obtain rfl := Except.ok.inj h
  apply allows_underPolicy hpolicies hpolicy

/-- A kind of the registry is found there. -/
theorem registryGet_ok {kinds : List String} {kind found : String}
    (h : registryGet kinds kind = .ok found) :
  kind ∈ kinds
  := by
  rw [registryGet] at h
  split at h
  case isTrue hmem => apply hmem
  case isFalse => cases h

/-- A kind that is not found in the registry is not there. -/
theorem registryGet_error {kinds : List String} {kind error : String}
    (h : registryGet kinds kind = .error error) :
  kind ∉ kinds
  := by
  rw [registryGet] at h
  split at h
  case isTrue => cases h
  case isFalse hmem => apply hmem

/-- When the values that a notebook job gets are within the ceilings, so is its request. -/
theorem allows_request {notebook : NotebookGoblinRecord}
    (h : ceilings.allows (notebookRetries request notebook) (notebookTimeout request notebook)
      = true) :
  ceilings.allows request.maxRetries (seconds? request.timeoutSeconds) = true
  := by
  obtain ⟨hretries, htimeout⟩ := ResourcePolicy.allows_iff.mp h
  apply ResourcePolicy.allows_iff.mpr
  constructor
  · intro ceiling hceiling
    have hle := hretries ceiling hceiling
    rw [notebookRetries] at hle
    split at hle
    case isTrue hzero =>
      rw [hzero]
      apply Nat.zero_le
    case isFalse => apply hle
  · intro ceiling hceiling timeout hrequested
    apply htimeout ceiling hceiling timeout
    cases hnone : request.timeoutSeconds with
    | none => simp [seconds?, hnone] at hrequested
    | some seconds => simpa [notebookTimeout, seconds?, hnone] using hrequested

/-- A notebook job gets the values of the request, or else of the notebook. -/
theorem values_of_notebookJob {notebook : NotebookGoblinRecord}
    (h : notebookJob config notebook request principal jobId createdAt = .ok job) :
  (jobProject config request principal notebook.projectId).isOk = true
    ∧ (request.projectId.isNone || decide (request.projectId = notebook.projectId)) = true
    ∧ job.maxRetries = notebookRetries request notebook
    ∧ job.timeoutSeconds = notebookTimeout request notebook
  := by
  obtain ⟨projectId, hproject, h⟩ := Except.bind_eq_ok.mp h
  obtain ⟨_, hraise, h⟩ := Except.bind_eq_ok.mp h
  obtain rfl := Except.ok.inj h
  have hinside := raiseIf_ok.mp hraise
  refine ⟨?_, ?_, rfl, rfl⟩
  · rw [hproject]
    rfl
  · cases hsome : request.projectId with
    | none => rfl
    | some projectId => simpa [hsome] using hinside

/-- A notebook job is queued when its project allows it. -/
theorem exists_notebookJob {notebook : NotebookGoblinRecord}
    (hproject : (jobProject config request principal notebook.projectId).isOk = true)
    (hinside : (request.projectId.isNone || decide (request.projectId = notebook.projectId))
      = true) (jobId : Id) (createdAt : Instant) :
  ∃ job, notebookJob config notebook request principal jobId createdAt = .ok job
  := by
  obtain ⟨projectId, hproject⟩ := Except.isOk_eq_true.mp hproject
  have hraise : (request.projectId.isSome && decide (request.projectId ≠ notebook.projectId))
      = false := by
    cases hsome : request.projectId with
    | none => rfl
    | some projectId => simpa [hsome] using hinside
  rw [notebookJob, hproject, raiseIf, hraise]
  exact ⟨_, rfl⟩

/-- Whatever job is queued by a request is within the ceilings, and so is the request, exactly
when the request is not one that is accepted for a notebook kind with values above them. -/
theorem queuedJob_allows_iff (hpolicies : config.policies = some policies) :
  (∀ job, queuedJob config db request principal jobId createdAt = .ok job →
      policies.ceilings.allows job.maxRetries job.timeoutSeconds = true
        ∧ policies.ceilings.allows request.maxRetries (seconds? request.timeoutSeconds) = true)
    ↔ notebookExceeds config policies.ceilings db request principal = false
  := by
  rw [queuedJob, notebookExceeds]
  cases hkind : registryGet config.kinds request.kind with
  | ok kind =>
      have hmem := registryGet_ok hkind
      apply iff_of_true
      · apply fun job hjob => allows_of_registryJob hpolicies hjob
      · simp [hmem]
  | error error =>
      have hmem := registryGet_error hkind
      cases hfind : db.repository.goblins.find? request.kind with
      | none =>
          apply iff_of_true
          · intro job hjob
            cases hjob
          · simp
      | some notebook =>
          dsimp only
          simp only [hmem, not_false_eq_true, decide_true, Bool.true_and, Option.any_some]
          constructor
          · intro h
            rw [← Bool.not_eq_true]
            intro hexceeds
            simp only [Bool.and_eq_true, Bool.not_eq_true'] at hexceeds
            obtain ⟨⟨hproject, hinside⟩, hallows⟩ := hexceeds
            obtain ⟨job, hjob⟩ := exists_notebookJob hproject hinside jobId createdAt
            obtain ⟨-, -, hretries, htimeout⟩ := values_of_notebookJob hjob
            have hwithin := (h job hjob).1
            rw [hretries, htimeout, hallows] at hwithin
            cases hwithin
          · intro hwithin job hjob
            obtain ⟨hproject, hinside, hretries, htimeout⟩ := values_of_notebookJob hjob
            rw [hproject, hinside, Bool.true_and, Bool.true_and, Bool.not_eq_false'] at hwithin
            rw [hretries, htimeout]
            exact ⟨hwithin, allows_request hwithin⟩

/-! ### The other ways into the queue -/

/-- The job of a published function gets the values of the request. -/
theorem values_of_repositoryFunctionRequest {name : String}
    {functionRequest : RepositoryFunctionRunRequest}
    (h : repositoryFunctionRequest config db name functionRequest principal = .ok request) :
  request.maxRetries = functionRequest.maxRetries
    ∧ request.timeoutSeconds = functionRequest.timeoutSeconds
  := by
  obtain ⟨⟨entry, version⟩, -, h⟩ := Except.bind_eq_ok.mp h
  obtain ⟨_, -, h⟩ := Except.bind_eq_ok.mp h
  obtain rfl := Except.ok.inj h
  exact ⟨rfl, rfl⟩

/-- The policies of the items of a batch. -/
theorem policies_of_fanout {items : List FanoutItem} {effective : List (Option ResourcePolicy)}
    (h : fanoutPolicies config items = .ok effective) :
  List.Forall₂ (fun item policy => effectivePolicy config item.kind
    (seconds? item.timeoutSeconds) item.maxRetries = .ok policy) items effective
  := by
  obtain ⟨_, -, h⟩ := Except.bind_eq_ok.mp h
  apply Except.mapM_eq_ok.mp h

/-- The jobs of a batch are within the ceilings, and so are its items. -/
theorem allows_of_fanoutJobs (hpolicies : config.policies = some policies)
    {items : List FanoutItem} {effective : List (Option ResourcePolicy)}
    (h : List.Forall₂ (fun item policy => effectivePolicy config item.kind
      (seconds? item.timeoutSeconds) item.maxRetries = .ok policy) items effective)
    (projectId : Option Id) (fanoutId : Id) (now : Instant) (jobIds : List Id) :
  (∀ job ∈ fanoutJobs config projectId fanoutId now (items.zip jobIds) effective,
      policies.ceilings.allows job.maxRetries job.timeoutSeconds = true)
    ∧ ∀ item ∈ items,
      policies.ceilings.allows item.maxRetries (seconds? item.timeoutSeconds) = true
  := by
  induction h generalizing jobIds with
  | nil => simp [fanoutJobs]
  | @cons item policy items effective hpolicy _ ih =>
      constructor
      · cases jobIds with
        | nil => simp [fanoutJobs]
        | cons jobId jobIds =>
            intro job hjob
            rcases List.mem_cons.mp hjob with rfl | hjob
            · apply (allows_underPolicy hpolicies hpolicy _).1
            · apply (ih jobIds).1 job hjob
      · intro item' hitem
        rcases List.mem_cons.mp hitem with rfl | hitem
        · apply (allows_underPolicy hpolicies hpolicy
            { id := "", kind := "", createdAt := 0 }).2
        · apply (ih []).2 item' hitem

/-- Adding a list of jobs within the ceilings keeps the ceilings, when the request does not ask
for more. -/
theorem keepsCeilings_of_rows {jobs : List JobRecord}
    (hrows : db'.scheduler.jobs.rows = db.scheduler.jobs.rows ++ jobs)
    (hallows : ∀ job ∈ jobs, ceilings.allows job.maxRetries job.timeoutSeconds = true)
    (hexceeds : a.exceeds ceilings db = false) :
  KeepsCeilings ceilings db a db'
  := by
  constructor
  · intro job hjob hnew
    rw [hrows] at hjob
    apply hallows job ((List.mem_append.mp hjob).resolve_left hnew)
  · rw [hexceeds]
    intro hfalse
    cases hfalse

/-- A step that saves nothing keeps the ceilings. -/
theorem keepsCeilings_of_eq (h : db'.scheduler.jobs = db.scheduler.jobs) :
  KeepsCeilings ceilings db a db'
  := by
  constructor
  · intro job hjob hnew
    rw [h] at hjob
    cases hnew hjob
  · apply fun _ => h

/-- A batch keeps the ceilings. -/
theorem keepsCeilings_createFanout (hpolicies : config.policies = some policies)
    {request : FanoutCreateRequest} {projectId : Option Id} {fanoutId : Id} {jobIds : List Id}
    {now : Instant}
    (h : queueStep config db (.createFanout request projectId fanoutId jobIds now) = some db') :
  KeepsCeilings policies.ceilings db (.createFanout request projectId fanoutId jobIds now) db'
  := by
  simp only [queueStep] at h
  split at h
  case h_1 =>
    obtain rfl := Option.some.inj h
    apply keepsCeilings_of_eq rfl
  case h_2 effective heffective =>
    obtain ⟨fanouts, -, h⟩ := Option.bind_eq_some_iff.mp h
    split at h
    case isFalse => cases h
    case isTrue =>
      have hitems := allows_of_fanoutJobs hpolicies (policies_of_fanout heffective) projectId
        fanoutId now jobIds
      have hsaved := rows_of_saveAll h
      have hrows : db'.scheduler.jobs.rows = db.scheduler.jobs.rows
          ++ fanoutJobs config projectId fanoutId now (request.items.zip jobIds) effective := hsaved
      apply keepsCeilings_of_rows hrows hitems.1
      simp only [QueueAction.exceeds, List.any_eq_false, Bool.not_eq_true, Bool.not_eq_false']
      apply hitems.2

/-- A retry keeps the ceilings. -/
theorem keepsCeilings_retryJob (hpolicies : config.policies = some policies) {sourceId : Id}
    {request : RetryCreateRequest}
    (h : queueStep config db (.retryJob sourceId request jobId createdAt) = some db') :
  KeepsCeilings policies.ceilings db (.retryJob sourceId request jobId createdAt) db'
  := by
  apply (keepsCeilings_saveOr h).mpr
  intro job hjob
  obtain ⟨source, hsource, hjob⟩ := Except.bind_eq_ok.mp hjob
  obtain ⟨policy, hpolicy, hjob⟩ := Except.bind_eq_ok.mp hjob
  obtain rfl := Except.ok.inj hjob
  have hallows := allows_underPolicy hpolicies hpolicy
  use (hallows _).1
  have hfind : db.scheduler.jobs.find? sourceId = some source := by
    rw [retrySource] at hsource
    split at hsource
    case h_1 => cases hsource
    case h_2 found hfound =>
      obtain ⟨_, -, hsource⟩ := Except.bind_eq_ok.mp hsource
      rw [hfound, Except.ok.inj hsource]
  simp only [QueueAction.exceeds, hfind, Option.any_some, Bool.not_eq_false']
  apply (hallows source).2

/-- A schedule that is due keeps the ceilings. -/
theorem keepsCeilings_materialize (hpolicies : config.policies = some policies) {w : WorkerId}
    {schedule : ScheduleRecord} {now : Instant}
    (h : queueStep config db (.materialize w schedule jobId now) = some db') :
  KeepsCeilings policies.ceilings db (.materialize w schedule jobId now) db'
  := by
  obtain ⟨⟨scheduler, phase, events⟩, hstep, h⟩ := Option.bind_eq_some_iff.mp h
  obtain rfl := Option.some.inj h
  rw [materialize] at hstep
  split at hstep
  case h_1 =>
    obtain ⟨rfl, -⟩ := Prod.mk.inj (Option.some.inj hstep)
    apply keepsCeilings_of_eq rfl
  case h_2 =>
    split at hstep
    case h_1 =>
      obtain ⟨rfl, -⟩ := Prod.mk.inj (Option.some.inj hstep)
      apply keepsCeilings_of_eq rfl
    case h_2 job hjob =>
      split at hstep
      case h_1 => cases hstep
      case h_2 jobs hsave =>
        obtain ⟨rfl, -⟩ := Prod.mk.inj (Option.some.inj hstep)
        simp only [materializedJob, QueueConfig.scheduler, hpolicies, Option.map_some] at hjob
        split at hjob
        case h_1 => cases hjob
        case h_2 effective heffective =>
          obtain ⟨policy, hpolicy, heffective⟩ := Except.bind_eq_ok.mp heffective
          obtain rfl := Except.ok.inj heffective
          obtain rfl := Except.ok.inj hjob
          obtain ⟨hallows, hschedule⟩ := ResourcePolicySet.allows_of_effectiveFor hpolicy
          have hrows : jobs.rows = db.scheduler.jobs.rows ++ [_] := Table.rows_insert? hsave
          apply keepsCeilings_of_rows hrows
          · intro job' hjob'
            obtain rfl := List.mem_singleton.mp hjob'
            apply hallows
          · simpa [QueueAction.exceeds] using hschedule

end

/-- Every way into the queue keeps the ceilings, and none of them saves a job for a request
that asks for more; exactly when the request is not one that is accepted for a notebook kind
with values above them. -/
theorem queue_keeps_ceilings_iff (config : QueueConfig) {policies : ResourcePolicySet}
    (hpolicies : config.policies = some policies) {db db' : QueueDb} {a : QueueAction}
    (h : queueStep config db a = some db') :
  KeepsCeilings policies.ceilings db a db'
    ↔ a.bypassesCeilings config policies.ceilings db = false
  := by
  cases a with
  | createJob request principal jobId createdAt =>
      rw [keepsCeilings_saveOr h]
      simp only [QueueAction.exceeds, Bool.not_eq_false', QueueAction.bypassesCeilings]
      apply queuedJob_allows_iff hpolicies
  | runRepositoryFunction name request principal jobId createdAt =>
      rw [keepsCeilings_saveOr h]
      simp only [QueueAction.exceeds, Bool.not_eq_false', QueueAction.bypassesCeilings]
      cases hrequest : repositoryFunctionRequest config db name request principal with
      | error error =>
          apply iff_of_true _ rfl
          intro job hjob
          cases hjob
      | ok jobRequest =>
          obtain ⟨hretries, htimeout⟩ := values_of_repositoryFunctionRequest hrequest
          rw [← hretries, ← htimeout]
          apply queuedJob_allows_iff hpolicies
  | createFanout request projectId fanoutId jobIds now =>
      apply iff_of_true (keepsCeilings_createFanout hpolicies h) rfl
  | retryJob sourceId request jobId createdAt =>
      apply iff_of_true (keepsCeilings_retryJob hpolicies h) rfl
  | materialize w schedule jobId now =>
      apply iff_of_true (keepsCeilings_materialize hpolicies h) rfl

/-- Numbers that are not used. -/
def noFloats : Floats where
  Number := Unit
  parse := fun _ => .error "could not convert string to float"
  milli := fun _ => ()
  above := fun _ _ => false
  text := fun _ => ""

/-- Settings under which jobs may be retried once, and run for a minute. -/
def cappedConfig : QueueConfig where
  api :=
    { repositoryEnabled := true
      defaultProjectId := none
      notebookFunctionImage := "image"
      notebookServiceImage := "image"
      registered := fun kind => kind == "example.echo"
      lower := id
      isalnum := Char.isAlphanum
      sha256 := id
      dumpsService := fun _ _ source => source }
  kinds := ["example.echo"]
  policies := some { ceilings := { timeoutSeconds := some 60, maxRetries := some 1 } }
  floats := noFloats
  compact := fun _ => "\x7b\x7d"

/-- A database with a notebook of kind `a`. -/
def notebookDb : QueueDb where
  scheduler := ⟨.empty, .empty, .empty⟩
  fanouts := .empty
  repository := { RepositoryDb.empty with
    goblins := .upsert .empty { kind := "a", image := "image", source := "", sourceHash := "h" } }

/-- The administrator. -/
def administrator : Principal :=
  ⟨"admin", .admin, none⟩

/-- A retry that is allowed is queued. -/
theorem queue_keeps_ceilings_echo :
  ∃ db', queueStep cappedConfig notebookDb
      (.createJob { kind := "example.echo", maxRetries := 1 } administrator "j" 0) = some db'
    ∧ KeepsCeilings { timeoutSeconds := some 60, maxRetries := some 1 } notebookDb
      (.createJob { kind := "example.echo", maxRetries := 1 } administrator "j" 0) db'
  := by
  have hqueued : (queueStep cappedConfig notebookDb
      (.createJob { kind := "example.echo", maxRetries := 1 } administrator "j" 0)).isSome
        = true := by
    decide +kernel
  obtain ⟨db', hdb'⟩ := Option.isSome_iff_exists.mp hqueued
  use db', hdb'
  apply (queue_keeps_ceilings_iff cappedConfig rfl hdb').mpr
  decide +kernel

/-- A job for a notebook kind is queued with more retries than the ceiling allows. -/
theorem notebook_job_above_ceiling :
  ¬ ∀ (config : QueueConfig) (policies : ResourcePolicySet) (db db' : QueueDb) (a : QueueAction),
    config.policies = some policies → queueStep config db a = some db' →
      KeepsCeilings policies.ceilings db a db'
  := by
  intro h
  have hqueued : (queueStep cappedConfig notebookDb
      (.createJob { kind := "a", maxRetries := 5 } administrator "j" 0)).map
        (fun db => db.scheduler.jobs.rows.map JobRecord.maxRetries) = some [5] := by
    decide +kernel
  obtain ⟨db', hdb', hrows⟩ := Option.map_eq_some_iff.mp hqueued
  have hkeeps := h cappedConfig _ notebookDb db' _ rfl hdb'
  obtain ⟨job, hjob, hretries⟩ := List.mem_map.mp (hrows ▸ List.mem_singleton_self 5)
  have hallows := hkeeps.within job hjob List.not_mem_nil
  rw [hretries] at hallows
  cases hallows

end GoblinKing
