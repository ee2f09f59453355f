import GoblinKing.Api.Authentication
import GoblinKing.Library.Except
import GoblinKing.Library.Since
import Mathlib.Tactic.Linarith

/-!
# Runs of authentication

Tokens and users are written by requests of admins, revocations by an operator, and the cache of the Hub by
every request that asks the Hub. A token in the database authenticates exactly as long as it has been
issued and not revoked. Where no admin comes from outside, nobody becomes one. And a token that the Hub
vouches for no longer is refused as soon as what the cache has of it is too old.
-/

namespace GoblinKing

open Utf8 DirectoryUi

variable {settings : AuthSettings} {state : AuthState} {request : AuthRequest} {call : AdminCall}
  {principal : AuthenticatedPrincipal} {steps : List AuthStep}

/-! ### Requests -/

/-- Authentication writes the cache only. -/
theorem authenticateToken_tables :
  (authenticateToken settings request state).2.tokens = state.tokens ∧
    (authenticateToken settings request state).2.users = state.users
  := by
  unfold authenticateToken
  split
  case isTrue => exact ⟨rfl, rfl⟩
  case isFalse =>
    rcases getApiTokenByHash state.tokens (settings.hashApiToken request.token) with error | (_ | row)
    · exact ⟨rfl, rfl⟩
    · exact ⟨rfl, rfl⟩
    · exact ⟨rfl, rfl⟩

/-- A request that is served has been authenticated, as an admin if it needs one, and has written. -/
theorem serveRequest_eq_ok (h : (serveRequest settings request call state).1 = .ok principal) :
  (authenticateToken settings request state).1 = .ok principal ∧
    (call.needsAdmin = true → principal.role = .admin) ∧
    call.write settings (authenticateToken settings request state).2
      = .ok (serveRequest settings request call state).2
  := by
  revert h
  unfold serveRequest
  rcases authenticateToken settings request state with ⟨error | authenticated, written⟩ <;> intro h
  · cases h
  · dsimp only at h ⊢
    by_cases hrefused : (call.needsAdmin && decide (authenticated.role ≠ .admin)) = true
    · rw [if_pos hrefused] at h
      cases h
    · rw [if_neg hrefused] at h ⊢
      cases hwrite : call.write settings written with
      | error error =>
          rw [hwrite] at h
          cases h
      | ok final =>
          rw [hwrite] at h
          cases h
          refine ⟨rfl, ?_, rfl⟩
          intro hneeds
          simpa [hneeds] using hrefused

/-- A request that is refused writes no table. -/
theorem serveRequest_eq_error {error : HttpException}
    (h : (serveRequest settings request call state).1 = .error error) :
  (serveRequest settings request call state).2 = (authenticateToken settings request state).2
  := by
  revert h
  unfold serveRequest
  rcases authenticateToken settings request state with ⟨refused | authenticated, written⟩ <;> intro h
  · rfl
  · dsimp only at h ⊢
    by_cases hrefused : (call.needsAdmin && decide (authenticated.role ≠ .admin)) = true
    · rw [if_pos hrefused]
    · rw [if_neg hrefused] at h ⊢
      cases hwrite : call.write settings written with
      | error error => rfl
      | ok final =>
          rw [hwrite] at h
          cases h

/-- The tokens that a request creates. -/
def AdminCall.tokenRows (settings : AuthSettings) : AdminCall → List ApiTokenRecord
  | .createToken name userId projectId role id rawToken createdAt =>
      [{ id, name, createdAt, userId, projectId, role, tokenHash := settings.hashApiToken rawToken }]
  | .createUser _ _ _ _ | .other => []

/-- The users that a request creates. -/
def AdminCall.userRows : AdminCall → List UserRecord
  | .createUser email displayName id createdAt => [{ id, email, displayName, createdAt }]
  | .createToken _ _ _ _ _ _ _ | .other => []

/-- A request appends what it creates. -/
theorem write_eq_ok {final : AuthState} (h : call.write settings state = .ok final) :
  final.tokens.rows = state.tokens.rows ++ call.tokenRows settings ∧
    final.users.rows = state.users.rows ++ call.userRows ∧ final.cache = state.cache
  := by
  unfold AdminCall.write at h
  cases call with
  | createUser email displayName id createdAt =>
      dsimp only at h
      split at h
      case h_1 users hinsert =>
        cases h
        exact ⟨(List.append_nil _).symm, Table.rows_insert? hinsert, rfl⟩
      case h_2 => cases h
  | createToken name userId projectId role id rawToken createdAt =>
      dsimp only at h
      split at h
      case h_1 tokens hinsert =>
        cases h
        exact ⟨Table.rows_insert? hinsert, (List.append_nil _).symm, rfl⟩
      case h_2 => cases h
  | other =>
      cases h
      exact ⟨(List.append_nil _).symm, (List.append_nil _).symm, rfl⟩

/-- A request that creates something needs an admin. -/
theorem needsAdmin_of_rows
    (h : call.tokenRows settings ≠ [] ∨ call.userRows ≠ []) :
  call.needsAdmin = true
  := by
  cases call with
  | createUser email displayName id createdAt => rfl
  | createToken name userId projectId role id rawToken createdAt => rfl
  | other => simp [AdminCall.tokenRows, AdminCall.userRows] at h

/-! ### Tokens and users of a run -/

/-- A step is a request that is served. -/
def Serves (settings : AuthSettings) (state : AuthState) (step : AuthStep) (call : AdminCall) : Prop :=
  ∃ request principal, step = .request request call ∧
    (serveRequest settings request call state).1 = .ok principal

/-- A step creates a token. -/
def CreatesToken (settings : AuthSettings) (state : AuthState) (step : AuthStep) (row : ApiTokenRecord) :
    Prop :=
  ∃ call, Serves settings state step call ∧ row ∈ call.tokenRows settings

/-- A step creates a user. -/
def CreatesUser (settings : AuthSettings) (state : AuthState) (step : AuthStep) (user : UserRecord) :
    Prop :=
  ∃ call, Serves settings state step call ∧ user ∈ call.userRows

/-- A step revokes a token. -/
def RevokesToken (step : AuthStep) (tokenId : Id) : Prop :=
  ∃ revokedAt, step = .revoke tokenId revokedAt

/-- A token has been issued in a run, by a request of an admin, and not been revoked since. -/
def Issued (settings : AuthSettings) (steps : List AuthStep) (row : ApiTokenRecord) : Prop :=
  Since (fun before step => CreatesToken settings (runAuth settings {} before) step row)
    (fun later => RevokesToken later row.id) steps

/-- A user has been created in a run, by a request of an admin. -/
def Registered (settings : AuthSettings) (steps : List AuthStep) (user : UserRecord) : Prop :=
  Since (fun before step => CreatesUser settings (runAuth settings {} before) step user)
    (fun _ => False) steps

/-- A row is there and has not been revoked. -/
def ActiveToken (state : AuthState) (row : ApiTokenRecord) : Prop :=
  row ∈ state.tokens.rows ∧ row.revokedAt = none

/-- The tables after a request, by what it creates. -/
theorem stepAuth_request :
  (∃ principal, (serveRequest settings request call state).1 = .ok principal ∧
      (stepAuth settings state (.request request call)).tokens.rows
        = state.tokens.rows ++ call.tokenRows settings ∧
      (stepAuth settings state (.request request call)).users.rows
        = state.users.rows ++ call.userRows) ∨
    ((∀ served, ¬ Serves settings state (.request request call) served) ∧
      (stepAuth settings state (.request request call)).tokens = state.tokens ∧
      (stepAuth settings state (.request request call)).users = state.users)
  := by
  obtain ⟨htokens, husers⟩ := @authenticateToken_tables settings state request
  simp only [stepAuth]
  cases hreply : (serveRequest settings request call state).1 with
  | error error =>
      right
      rw [serveRequest_eq_error hreply]
      refine ⟨?_, htokens, husers⟩
      rintro served ⟨_, principal, hstep, hok⟩
      cases hstep
      rw [hreply] at hok
      cases hok
  | ok principal =>
      left
      obtain ⟨-, -, hwrite⟩ := serveRequest_eq_ok hreply
      obtain ⟨htokens', husers', -⟩ := write_eq_ok hwrite
      refine ⟨principal, rfl, ?_, ?_⟩
      · rw [htokens', htokens]
      · rw [husers', husers]

/-- A new token has not been revoked. -/
theorem revokedAt_of_mem {row : ApiTokenRecord} (h : row ∈ call.tokenRows settings) :
  row.revokedAt = none
  := by
  cases call with
  | createToken name userId projectId role id rawToken createdAt =>
      rw [List.mem_singleton.mp h]
  | createUser email displayName id createdAt => cases h
  | other => cases h

/-- The tokens after a step. -/
theorem activeToken_stepAuth {step : AuthStep} {row : ApiTokenRecord} :
  ActiveToken (stepAuth settings state step) row ↔
    CreatesToken settings state step row ∨ (ActiveToken state row ∧ ¬ RevokesToken step row.id)
  := by
  cases step with
  | revoke tokenId revokedAt =>
      have hcreates : ¬ CreatesToken settings state (.revoke tokenId revokedAt) row := by
        rintro ⟨_, ⟨_, _, hstep, -⟩, -⟩
        cases hstep
      have hrevokes : RevokesToken (.revoke tokenId revokedAt) row.id ↔ row.id = tokenId := by
        simp [RevokesToken, eq_comm]
      rw [or_iff_right hcreates, hrevokes]
      unfold ActiveToken stepAuth AuthState.revokeApiToken
      rw [Table.mem_update]
      constructor
      · rintro ⟨⟨old, hold, heq⟩, hactive⟩
        split at heq
        case isTrue hid =>
          rw [← heq] at hactive
          cases hactive
        case isFalse hid =>
          subst heq
          exact ⟨⟨hold, hactive⟩, by simpa using hid⟩
      · rintro ⟨⟨hrow, hactive⟩, hid⟩
        exact ⟨⟨row, hrow, if_neg (by simpa using hid)⟩, hactive⟩
  | request request call =>
      have hrevokes : ¬ RevokesToken (.request request call) row.id := by
        rintro ⟨_, hstep⟩
        cases hstep
      rw [and_iff_left hrevokes]
      rcases @stepAuth_request settings state request call with
        ⟨principal, hok, htokens, -⟩ | ⟨hserves, htokens, -⟩
      · have hcreates : CreatesToken settings state (.request request call) row ↔
            row ∈ call.tokenRows settings := by
          constructor
          · rintro ⟨_, ⟨_, _, hstep, -⟩, hrow⟩
            cases hstep
            exact hrow
          · exact fun hrow => ⟨call, ⟨request, principal, rfl, hok⟩, hrow⟩
        rw [hcreates, ActiveToken, htokens, List.mem_append, ActiveToken]
        constructor
        · rintro ⟨hrow | hrow, hactive⟩
          · exact .inr ⟨hrow, hactive⟩
          · exact .inl hrow
        · rintro (hrow | ⟨hrow, hactive⟩)
          · exact ⟨.inr hrow, revokedAt_of_mem hrow⟩
          · exact ⟨.inl hrow, hactive⟩
      · have hcreates : ¬ CreatesToken settings state (.request request call) row := by
          rintro ⟨served, hserved, -⟩
          exact hserves served hserved
        rw [or_iff_right hcreates, ActiveToken, htokens, ActiveToken]

/-- The users after a step. -/
theorem mem_users_stepAuth {step : AuthStep} {user : UserRecord} :
  user ∈ (stepAuth settings state step).users.rows ↔
    CreatesUser settings state step user ∨ user ∈ state.users.rows
  := by
  cases step with
  | revoke tokenId revokedAt =>
      have hcreates : ¬ CreatesUser settings state (.revoke tokenId revokedAt) user := by
        rintro ⟨_, ⟨_, _, hstep, -⟩, -⟩
        cases hstep
      rw [or_iff_right hcreates]
      rfl
  | request request call =>
      rcases @stepAuth_request settings state request call with
        ⟨principal, hok, -, husers⟩ | ⟨hserves, -, husers⟩
      · have hcreates : CreatesUser settings state (.request request call) user ↔
            user ∈ call.userRows := by
          constructor
          · rintro ⟨_, ⟨_, _, hstep, -⟩, huser⟩
            cases hstep
            exact huser
          · exact fun huser => ⟨call, ⟨request, principal, rfl, hok⟩, huser⟩
        rw [hcreates, husers, List.mem_append, or_comm]
      · have hcreates : ¬ CreatesUser settings state (.request request call) user := by
          rintro ⟨served, hserved, -⟩
          exact hserves served hserved
        rw [or_iff_right hcreates, husers]

theorem runAuth_concat (steps : List AuthStep) (step : AuthStep) :
  runAuth settings state (steps ++ [step]) = stepAuth settings (runAuth settings state steps) step
  := List.foldl_concat ..

/-- The tokens after a run are those that have been issued in it. -/
theorem activeToken_runAuth {row : ApiTokenRecord} :
  ActiveToken (runAuth settings {} steps) row ↔ Issued settings steps row
  := by
  apply iff_since (P := fun steps => ActiveToken (runAuth settings {} steps) row)
  · simp [ActiveToken, runAuth, Table.empty]
  · intro steps step
    rw [runAuth_concat, activeToken_stepAuth]

/-- The users after a run are those that have been created in it. -/
theorem mem_users_runAuth {user : UserRecord} :
  user ∈ (runAuth settings {} steps).users.rows ↔ Registered settings steps user
  := by
  apply iff_since (P := fun steps => user ∈ (runAuth settings {} steps).users.rows)
  · simp [runAuth, Table.empty]
  · intro steps step
    rw [runAuth_concat, mem_users_stepAuth, and_iff_left not_false]

/-! ### Tokens in the database -/

/-- The row of a hash is the only active one. -/
theorem getApiTokenByHash_eq_some {tokenHash : String} {row : ApiTokenRecord} :
  getApiTokenByHash state.tokens tokenHash = .ok (some row) ↔
    (ActiveToken state row ∧ row.tokenHash = tokenHash) ∧
      ∀ other, ActiveToken state other → other.tokenHash = tokenHash → other = row
  := by
  have hmem : ∀ other, other ∈ state.tokens.select
        (fun row => decide (row.tokenHash = tokenHash) && row.revokedAt.isNone) ↔
      ActiveToken state other ∧ other.tokenHash = tokenHash := by
    intro other
    simp only [Table.select, List.mem_filter, Bool.and_eq_true, decide_eq_true_eq, Option.isNone_iff_eq_none,
      ActiveToken]
    tauto
  have hnodup := state.tokens.nodup.of_map.filter
    (fun row => decide (row.tokenHash = tokenHash) && row.revokedAt.isNone)
  unfold getApiTokenByHash
  rw [← Table.select] at hnodup
  rw [← hmem]
  simp only [← and_imp, ← hmem]
  generalize state.tokens.select
    (fun row => decide (row.tokenHash = tokenHash) && row.revokedAt.isNone) = found at hnodup
  rcases found with _ | ⟨first, _ | ⟨second, rest⟩⟩
  · simp
  · simp [eq_comm]
  · constructor
    · intro h
      cases h
    · rintro ⟨-, hall⟩
      have hsame : first = second := by
        rw [hall first (by simp), hall second (by simp)]
      simp [hsame] at hnodup

/-! ### External providers -/

/-- The Hub, asked now, identifies a user with the token of a request. -/
def Identified (settings : AuthSettings) (request : AuthRequest) (user : HubModel) : Prop :=
  ∃ apiUrl serviceToken, settings.jupyterhub.apiUrl = some apiUrl ∧
    settings.jupyterhub.serviceToken = some serviceToken ∧
    askJupyterhub apiUrl serviceToken request = .ok user

/-- A principal of OIDC is one of this provider. -/
theorem authProvider_oidc (h : authenticateOidcToken settings.oidc request = .ok principal) :
  principal.authProvider = .oidc ∧ principal.bootstrap = false
  := by
  obtain ⟨claims, -, hprincipal⟩ := Except.bind_eq_ok.mp h
  split at hprincipal
  · cases hprincipal
  · cases hprincipal
    exact ⟨rfl, rfl⟩

/-- A principal of the Hub is one of this provider. -/
theorem authProvider_jupyterhub {token : String} {model : HubModel}
    (h : principalOfModel settings token model = .ok principal) :
  principal.authProvider = .jupyterhub ∧ principal.bootstrap = false
  := by
  obtain ⟨user, -, hprincipal⟩ := Except.bind_eq_ok.mp h
  split at hprincipal
  · cases hprincipal
  · dsimp only at hprincipal
    split at hprincipal
    · cases hprincipal
      exact ⟨rfl, rfl⟩
    · cases hprincipal

/-- Up to the identifier of the token, a principal of the Hub depends on the user only. -/
theorem principalOfModel_token {token : String} (token' : String) {model : HubModel}
    (h : principalOfModel settings token model = .ok principal) :
  ∃ tokenId, principalOfModel settings token' model = .ok { principal with tokenId := tokenId }
  := by
  obtain ⟨user, huser, hprincipal⟩ := Except.bind_eq_ok.mp h
  unfold principalOfModel
  rw [huser, Except.ok_bind]
  cases hname : textField user "name" with
  | none =>
      rw [hname] at hprincipal
      cases hprincipal
  | some name =>
      simp only [hname] at hprincipal ⊢
      by_cases hallowed : jupyterhubUserAllowed settings (stringOf name) (jupyterhubGroups user) = true
      · rw [if_pos hallowed] at hprincipal ⊢
        cases hprincipal
        exact ⟨_, rfl⟩
      · rw [if_neg hallowed] at hprincipal
        cases hprincipal

/-- A user is identified from the cache, or by the Hub. -/
theorem identifyJupyterhubToken_eq_ok {cache : Table CachedHubUser.key} {user : HubModel}
    (h : (identifyJupyterhubToken settings request cache).1 = .ok user) :
  cachedUser settings cache request = some user ∨ Identified settings request user
  := by
  revert h
  unfold identifyJupyterhubToken
  split
  case h_5 apiUrl serviceToken _ _ hapi htoken =>
    cases hcached : cachedUser settings cache request with
    | some found =>
        intro h
        cases h
        exact .inl rfl
    | none =>
        dsimp only
        cases hask : askJupyterhub apiUrl serviceToken request with
        | error error =>
            intro h
            cases h
        | ok found =>
            intro h
            cases h
            exact .inr ⟨apiUrl, serviceToken, hapi, htoken, hask⟩
  all_goals
    intro h
    cases h

/-- What is written into the cache is what the Hub has said. -/
theorem mem_cache_identify {cache : Table CachedHubUser.key} {cached : CachedHubUser}
    (h : cached ∈ (identifyJupyterhubToken settings request cache).2.rows) :
  cached ∈ cache.rows ∨ (cached.key = settings.hashApiToken request.token ∧
    cached.storedAt = request.storedAt ∧ Identified settings request cached.user)
  := by
  revert h
  unfold identifyJupyterhubToken
  split
  case h_5 apiUrl serviceToken _ _ hapi htoken =>
    cases hcached : cachedUser settings cache request with
    | some found => exact .inl
    | none =>
        dsimp only
        cases hask : askJupyterhub apiUrl serviceToken request with
        | error error => exact .inl
        | ok found =>
            dsimp only
            split
            case isTrue =>
              intro h
              rcases Table.mem_upsert.mp h with rfl | ⟨hkept, -⟩
              · exact .inr ⟨rfl, rfl, apiUrl, serviceToken, hapi, htoken, hask⟩
              · exact .inl hkept
            case isFalse => exact .inl
  all_goals exact .inl

/-- A principal from outside is one of OIDC, or one of a user whom the cache or the Hub identifies. -/
theorem externalPrincipal_eq_ok {cache : Table CachedHubUser.key}
    (h : (externalPrincipal settings request cache).1 = .ok principal) :
  (settings.oidc.enabled = true ∧ authenticateOidcToken settings.oidc request = .ok principal) ∨
    ∃ user, principalOfModel settings request.token user = .ok principal ∧
      (cachedUser settings cache request = some user ∨ Identified settings request user)
  := by
  have hhub : ∀ {error : HttpException}, (if settings.jupyterhub.enabled = true then
        authenticateJupyterhubToken settings request cache else (.error error, cache)).1 = .ok principal →
      ∃ user, principalOfModel settings request.token user = .ok principal ∧
        (cachedUser settings cache request = some user ∨ Identified settings request user) := by
    intro error hprincipal
    split at hprincipal
    · obtain ⟨user, huser, hprincipal⟩ := Except.bind_eq_ok.mp hprincipal
      exact ⟨user, hprincipal, identifyJupyterhubToken_eq_ok huser⟩
    · cases hprincipal
  revert h
  unfold externalPrincipal
  dsimp only
  split
  case isTrue henabled =>
    cases hoidc : authenticateOidcToken settings.oidc request with
    | ok found =>
        intro h
        cases h
        exact .inl ⟨henabled, rfl⟩
    | error error =>
        dsimp only
        split
        · intro h
          cases h
        · exact fun h => .inr (hhub h)
  case isFalse => exact fun h => .inr (hhub h)

/-- Authentication writes into the cache what the Hub has said. -/
theorem mem_cache_authenticateToken {cached : CachedHubUser}
    (h : cached ∈ (authenticateToken settings request state).2.cache.rows) :
  cached ∈ state.cache.rows ∨ (cached.key = settings.hashApiToken request.token ∧
    cached.storedAt = request.storedAt ∧ Identified settings request cached.user)
  := by
  have hhub : ∀ {error : HttpException}, cached ∈ (if settings.jupyterhub.enabled = true then
        authenticateJupyterhubToken settings request state.cache
        else (.error error, state.cache)).2.rows →
      cached ∈ state.cache.rows ∨ (cached.key = settings.hashApiToken request.token ∧
        cached.storedAt = request.storedAt ∧ Identified settings request cached.user) := by
    intro error hcached
    split at hcached
    · exact mem_cache_identify hcached
    · exact .inl hcached
  revert h
  unfold authenticateToken
  split
  case isTrue => exact .inl
  case isFalse =>
    rcases getApiTokenByHash state.tokens (settings.hashApiToken request.token) with error | (_ | row)
    · exact .inl
    · dsimp only
      unfold externalPrincipal
      dsimp only
      split
      case isTrue =>
        cases authenticateOidcToken settings.oidc request with
        | ok found => exact .inl
        | error error =>
            dsimp only
            split
            · exact .inl
            · exact hhub
      case isFalse => exact hhub
    · exact .inl

/-- After a run the cache has what it had, and what the Hub has said to requests of the run. -/
theorem mem_cache_runAuth {cached : CachedHubUser}
    (h : cached ∈ (runAuth settings state steps).cache.rows) :
  cached ∈ state.cache.rows ∨ ∃ request call, .request request call ∈ steps ∧
    cached.key = settings.hashApiToken request.token ∧ cached.storedAt = request.storedAt ∧
    Identified settings request cached.user
  := by
  induction steps using List.reverseRecOn with
  | nil => exact .inl h
  | append_singleton steps step ih =>
      have hstep : cached ∈ (runAuth settings state steps).cache.rows ∨
          ∃ request call, step = .request request call ∧
            cached.key = settings.hashApiToken request.token ∧ cached.storedAt = request.storedAt ∧
            Identified settings request cached.user := by
        rw [runAuth_concat] at h
        cases step with
        | revoke tokenId revokedAt => exact .inl h
        | request request call =>
            have hwritten : cached ∈
                (authenticateToken settings request (runAuth settings state steps)).2.cache.rows := by
              cases hreply : (serveRequest settings request call (runAuth settings state steps)).1 with
              | error error =>
                  rw [← serveRequest_eq_error hreply]
                  exact h
              | ok principal =>
                  obtain ⟨-, -, hwrite⟩ := serveRequest_eq_ok hreply
                  rw [← (write_eq_ok hwrite).2.2]
                  exact h
            rcases mem_cache_authenticateToken hwritten with hkept | hidentified
            · exact .inl hkept
            · exact .inr ⟨request, call, rfl, hidentified⟩
      rcases hstep with hkept | ⟨request, call, rfl, hidentified⟩
      · rcases ih hkept with hstate | ⟨request, call, hrequest, hidentified⟩
        · exact .inl hstate
        · exact .inr ⟨request, call, List.mem_append_left _ hrequest, hidentified⟩
      · exact .inr ⟨request, call, List.mem_append_right _ (List.mem_singleton_self _), hidentified⟩

/-! ### Main results -/

/-- A created user is enabled. -/
theorem not_disabled_of_registered {user : UserRecord} (h : Registered settings steps user) :
  user.disabled = false
  := by
  obtain ⟨_, _, _, -, ⟨call, -, huser⟩, -⟩ := h
  cases call with
  | createUser email displayName id createdAt => rw [List.mem_singleton.mp huser]
  | createToken name userId projectId role id rawToken createdAt => cases huser
  | other => cases huser

/-- A principal of the database has the role of its token. -/
theorem role_localPrincipal {users : Table UserRecord.id} {row : ApiTokenRecord}
    (h : localPrincipal users row = .ok principal) :
  principal.role = row.role ∧ principal.authProvider = .localTokens
  := by
  unfold localPrincipal at h
  split at h
  case h_1 => cases h
  case h_2 =>
    split at h
    case isTrue => cases h
    case isFalse =>
      cases h
      exact ⟨rfl, rfl⟩

/-- The principal of a token in the database of a run. -/
theorem localPrincipal_eq_ok {row : ApiTokenRecord} :
  localPrincipal (runAuth settings {} steps).users row = .ok principal ↔
    (∃ user, Registered settings steps user ∧ user.id = row.userId) ∧
      principal = { userId := row.userId, tokenId := row.id, role := row.role, projectId := row.projectId }
  := by
  unfold localPrincipal
  cases hfind : (runAuth settings {} steps).users.find? row.userId with
  | none =>
      rw [Table.find?_eq_none] at hfind
      constructor
      · intro h
        cases h
      · rintro ⟨⟨user, huser, hid⟩, -⟩
        exact absurd hid (hfind user (mem_users_runAuth.mpr huser))
  | some user =>
      have huser : Registered settings steps user := mem_users_runAuth.mp (Table.mem_of_find? hfind)
      have hexists : ∃ user, Registered settings steps user ∧ user.id = row.userId :=
        ⟨user, huser, Table.key_of_find? hfind⟩
      simp only [not_disabled_of_registered huser, Bool.false_eq_true, if_false, Except.ok.injEq,
        and_iff_right hexists]
      exact eq_comm

/-- From the start, a bearer token authenticates as a token of the database exactly when it is not the
bootstrap token, a single token with its hash has been issued and not revoked since, and the user of that
token has been created; the principal has the role and the project of the token. -/
theorem authenticateToken_local (settings : AuthSettings) (steps : List AuthStep) (request : AuthRequest)
    (principal : AuthenticatedPrincipal) :
  ((authenticateToken settings request (runAuth settings {} steps)).1 = .ok principal ∧
      principal.authProvider = .localTokens ∧ principal.bootstrap = false) ↔
    request.token ≠ settings.bootstrapAdminToken ∧
      ∃ row, Issued settings steps row ∧ row.tokenHash = settings.hashApiToken request.token ∧
        (∀ other, Issued settings steps other →
          other.tokenHash = settings.hashApiToken request.token → other = row) ∧
        (∃ user, Registered settings steps user ∧ user.id = row.userId) ∧
        principal
          = { userId := row.userId, tokenId := row.id, role := row.role, projectId := row.projectId }
  := by
  simp only [← activeToken_runAuth]
  have hrow := fun row => @getApiTokenByHash_eq_some (runAuth settings {} steps)
    (settings.hashApiToken request.token) row
  unfold authenticateToken
  by_cases hbootstrap : request.token = settings.bootstrapAdminToken
  · rw [if_pos hbootstrap]
    constructor
    · rintro ⟨hok, -, hnot⟩
      cases hok
      cases hnot
    · rintro ⟨hne, -⟩
      exact absurd hbootstrap hne
  · rw [if_neg hbootstrap, and_iff_right hbootstrap]
    constructor
    · rintro ⟨hok, hlocal, hnot⟩
      rcases hfound : getApiTokenByHash (runAuth settings {} steps).tokens
          (settings.hashApiToken request.token) with error | (_ | row)
      · rw [hfound] at hok
        cases hok
      · rw [hfound] at hok
        rcases externalPrincipal_eq_ok hok with ⟨-, hoidc⟩ | ⟨user, hhub, -⟩
        · rw [(authProvider_oidc hoidc).1] at hlocal
          cases hlocal
        · rw [(authProvider_jupyterhub hhub).1] at hlocal
          cases hlocal
      · rw [hfound] at hok
        obtain ⟨⟨hactive, hhash⟩, honly⟩ := (hrow row).mp hfound
        obtain ⟨huser, hprincipal⟩ := localPrincipal_eq_ok.mp hok
        exact ⟨row, hactive, hhash, honly, huser, hprincipal⟩
    · rintro ⟨row, hactive, hhash, honly, huser, hprincipal⟩
      rw [(hrow row).mpr ⟨⟨hactive, hhash⟩, honly⟩]
      refine ⟨localPrincipal_eq_ok.mpr ⟨huser, hprincipal⟩, ?_, ?_⟩
      · rw [hprincipal]
      · rw [hprincipal]

/-- The Hub, asked now, identifies a user who may use the service. -/
def Vouched (settings : AuthSettings) (request : AuthRequest) : Prop :=
  ∃ user principal, Identified settings request user ∧
    principalOfModel settings request.token user = .ok principal

/-- A fresh entry of the cache. -/
theorem cachedUser_eq_some {cache : Table CachedHubUser.key} {user : HubModel}
    (h : cachedUser settings cache request = some user) :
  ∃ cached ∈ cache.rows, cached.key = settings.hashApiToken request.token ∧ cached.user = user ∧
    request.checkedAt - cached.storedAt < settings.jupyterhub.cacheTtl
  := by
  unfold cachedUser at h
  split at h
  case isTrue =>
    split at h
    case h_1 cached hfind =>
      split at h
      case isTrue hfresh =>
        exact ⟨cached, Table.mem_of_find? hfind, Table.key_of_find? hfind, Option.some.inj h, hfresh⟩
      case isFalse => cases h
    case h_2 => cases h
  case isFalse => cases h

/-- When the Hub has stopped to vouch for a token, the token is refused as a token of the Hub as soon as the
time to live has passed since the Hub was last asked with success. -/
theorem hubRefusal_takesEffect (settings : AuthSettings) (tokens : Table ApiTokenRecord.id)
    (users : Table UserRecord.id) (before after : List AuthStep) (request : AuthRequest)
    (lastTrusted : Instant)
    (hbefore : ∀ earlier call, .request earlier call ∈ before →
      settings.hashApiToken earlier.token = settings.hashApiToken request.token →
        earlier.storedAt ≤ lastTrusted)
    (hafter : ∀ earlier call, .request earlier call ∈ after →
      settings.hashApiToken earlier.token = settings.hashApiToken request.token →
        ¬ Vouched settings earlier)
    (hnow : ¬ Vouched settings request)
    (hlate : lastTrusted + settings.jupyterhub.cacheTtl ≤ request.checkedAt) :
  ¬ ∃ principal, (authenticateToken settings request
      (runAuth settings { tokens := tokens, users := users } (before ++ after))).1 = .ok principal ∧
    principal.authProvider = .jupyterhub
  := by
  rintro ⟨principal, hprincipal, hprovider⟩
  unfold authenticateToken at hprincipal
  split at hprincipal
  case isTrue =>
    cases hprincipal
    cases hprovider
  case isFalse =>
    split at hprincipal
    case h_1 => cases hprincipal
    case h_2 row _ =>
      rw [(role_localPrincipal hprincipal).2] at hprovider
      cases hprovider
    case h_3 hnone =>
      rcases externalPrincipal_eq_ok hprincipal with ⟨-, hoidc⟩ | ⟨user, hmodel, hcached | hidentified⟩
      · rw [(authProvider_oidc hoidc).1] at hprovider
        cases hprovider
      · obtain ⟨cached, hmem, hkey, rfl, hfresh⟩ := cachedUser_eq_some hcached
        rcases mem_cache_runAuth hmem with hempty | ⟨earlier, call, hearlier, hkey', hstored, hidentified⟩
        · cases hempty
        · have hhash := hkey'.symm.trans hkey
          rcases List.mem_append.mp hearlier with hearlier | hearlier
          · have htrusted := hbefore earlier call hearlier hhash
            rw [hstored] at hfresh
            linarith
          · obtain ⟨tokenId, hvouched⟩ := principalOfModel_token earlier.token hmodel
            exact hafter earlier call hearlier hhash ⟨_, _, hidentified, hvouched⟩
      · exact hnow ⟨user, principal, hidentified, hmodel⟩

/-- A service that asks the Hub, and keeps what it says for a minute. -/
def hubSettings : AuthSettings where
  bootstrapAdminToken := "bootstrap-token"
  jupyterhub := {
    enabled := true
    apiUrl := some (literalText "http://hub:8081/hub/api")
    serviceToken := some (literalText "token") }
  hashApiToken _ := "e3b98a4da31a127d4bde6e43033f66ba274cab0eb7eb1c70ec41402bf6273dd8"

/-- A request while the Hub knows the user. -/
def knownRequest : AuthRequest where
  token := "t"
  claims := .error "Not enough segments"
  hub _ := .json (.obj [(literalText "name", .str (literalText "ada"))])
  checkedAt := 0
  storedAt := 0

/-- A request a minute later, when the Hub does not know the token any more. -/
def unknownRequest : AuthRequest where
  token := "t"
  claims := .error "Not enough segments"
  hub _ := .httpError 401 ""
  checkedAt := 60000000
  storedAt := 60000000

theorem not_vouched_unknownRequest :
  ¬ Vouched hubSettings unknownRequest
  := by
  rintro ⟨user, principal, ⟨apiUrl, serviceToken, -, -, hask⟩, -⟩
  cases hask

/-- The user is refused after a minute. -/
theorem unknownRequest_refused :
  ¬ ∃ principal, (authenticateToken hubSettings unknownRequest
      (runAuth hubSettings {} ([.request knownRequest .other] ++ []))).1 = .ok principal ∧
    principal.authProvider = .jupyterhub
  := by
  apply hubRefusal_takesEffect hubSettings .empty .empty [.request knownRequest .other] [] unknownRequest 0
  · intro earlier call hearlier _
    cases List.mem_singleton.mp hearlier
    exact le_rfl
  · intro earlier call hearlier
    cases hearlier
  · exact not_vouched_unknownRequest
  · decide

/-- An admin comes from outside: with the bootstrap token, from OIDC or from the Hub. -/
def OutsideAdmin (settings : AuthSettings) (request : AuthRequest) : Prop :=
  request.token = settings.bootstrapAdminToken ∨
    (settings.oidc.enabled = true ∧ ∃ principal,
      authenticateOidcToken settings.oidc request = .ok principal ∧ principal.role = .admin) ∨
    ∃ user principal, Identified settings request user ∧
      principalOfModel settings request.token user = .ok principal ∧ principal.role = .admin

/-- No active token and no entry of the cache is one of an admin. -/
structure WithoutAdmins (settings : AuthSettings) (state : AuthState) : Prop where
  tokens : ∀ row, ActiveToken state row → row.role ≠ .admin
  cache : ∀ cached ∈ state.cache.rows, ∀ token principal,
    principalOfModel settings token cached.user = .ok principal → principal.role ≠ .admin

/-- Where there are no admins, nobody is authenticated as one unless from outside. -/
theorem WithoutAdmins.role (h : WithoutAdmins settings state) (houtside : ¬ OutsideAdmin settings request)
    (hok : (authenticateToken settings request state).1 = .ok principal) :
  principal.role ≠ .admin
  := by
  unfold authenticateToken at hok
  split at hok
  case isTrue hbootstrap => exact absurd (.inl hbootstrap) houtside
  case isFalse =>
    split at hok
    case h_1 => cases hok
    case h_2 row hrow =>
      rw [(role_localPrincipal hok).1]
      exact h.tokens row (getApiTokenByHash_eq_some.mp hrow).1.1
    case h_3 hnone =>
      intro hadmin
      rcases externalPrincipal_eq_ok hok with ⟨henabled, hoidc⟩ | ⟨user, hmodel, hcached | hidentified⟩
      · exact houtside (.inr (.inl ⟨henabled, principal, hoidc, hadmin⟩))
      · obtain ⟨cached, hmem, -, rfl, -⟩ := cachedUser_eq_some hcached
        exact h.cache cached hmem request.token principal hmodel hadmin
      · exact houtside (.inr (.inr ⟨user, principal, hidentified, hmodel, hadmin⟩))

/-- A step without an admin from outside creates nothing, and leaves no admins. -/
theorem WithoutAdmins.step (h : WithoutAdmins settings state) {step : AuthStep}
    (houtside : ∀ request call, step = .request request call → ¬ OutsideAdmin settings request) :
  WithoutAdmins settings (stepAuth settings state step) ∧
    (∀ row, ¬ CreatesToken settings state step row) ∧ ∀ user, ¬ CreatesUser settings state step user
  := by
  have hrefused : ∀ call, Serves settings state step call → call.needsAdmin ≠ true := by
    rintro call ⟨request, principal, rfl, hok⟩ hneeds
    obtain ⟨hauthenticated, hadmin, -⟩ := serveRequest_eq_ok hok
    exact h.role (houtside request call rfl) hauthenticated (hadmin hneeds)
  have htokens : ∀ row, ¬ CreatesToken settings state step row := by
    rintro row ⟨call, hserves, hrow⟩
    exact hrefused call hserves (@needsAdmin_of_rows settings call (.inl (List.ne_nil_of_mem hrow)))
  refine ⟨⟨?_, ?_⟩, htokens, ?_⟩
  · intro row hrow
    rcases activeToken_stepAuth.mp hrow with hcreates | ⟨hactive, -⟩
    · exact absurd hcreates (htokens row)
    · exact h.tokens row hactive
  · intro cached hcached token principal hmodel hadmin
    rcases @mem_cache_runAuth settings state [step] cached hcached with
      hkept | ⟨request, call, hrequest, -, -, hidentified⟩
    · exact h.cache cached hkept token principal hmodel hadmin
    · obtain ⟨tokenId, hvouched⟩ := principalOfModel_token request.token hmodel
      apply houtside request call (List.mem_singleton.mp hrequest).symm
      exact .inr (.inr ⟨_, _, hidentified, hvouched, hadmin⟩)
  · rintro user ⟨call, hserves, huser⟩
    exact hrefused call hserves (@needsAdmin_of_rows settings call (.inr (List.ne_nil_of_mem huser)))

/-- From a state without admins, a run in which no admin comes from outside serves nobody as an admin, and
creates neither tokens nor users. -/
theorem noEscalation (settings : AuthSettings) (state : AuthState) (steps : List AuthStep)
    (hstate : WithoutAdmins settings state)
    (houtside : ∀ request call, .request request call ∈ steps → ¬ OutsideAdmin settings request) :
  (∀ before request call after principal, steps = before ++ .request request call :: after →
      (serveRequest settings request call (runAuth settings state before)).1 = .ok principal →
      principal.role ≠ .admin) ∧
    (∀ row, ActiveToken (runAuth settings state steps) row → ActiveToken state row) ∧
    ∀ user, user ∈ (runAuth settings state steps).users.rows ↔ user ∈ state.users.rows
  := by
  have hrun : ∀ steps : List AuthStep,
      (∀ request call, .request request call ∈ steps → ¬ OutsideAdmin settings request) →
      WithoutAdmins settings (runAuth settings state steps) ∧
        (∀ row, ActiveToken (runAuth settings state steps) row → ActiveToken state row) ∧
        ∀ user, user ∈ (runAuth settings state steps).users.rows ↔ user ∈ state.users.rows := by
    intro steps houtside
    induction steps using List.reverseRecOn with
    | nil => exact ⟨hstate, fun _ => id, fun _ => Iff.rfl⟩
    | append_singleton steps step ih =>
        obtain ⟨hwithout, htokens, husers⟩ := ih (fun request call hrequest =>
          houtside request call (List.mem_append_left _ hrequest))
        have hlast : ∀ request call, step = .request request call → ¬ OutsideAdmin settings request := by
          rintro request call rfl
          exact houtside request call (List.mem_append_right _ (List.mem_singleton_self _))
        obtain ⟨hwithout', hcreates, hcreates'⟩ := hwithout.step hlast
        rw [runAuth_concat]
        refine ⟨hwithout', ?_, ?_⟩
        · intro row hrow
          rcases activeToken_stepAuth.mp hrow with hcreated | ⟨hactive, -⟩
          · exact absurd hcreated (hcreates row)
          · exact htokens row hactive
        · intro user
          rw [mem_users_stepAuth, or_iff_right (hcreates' user), husers]
  refine ⟨?_, (hrun steps houtside).2.1, (hrun steps houtside).2.2⟩
  rintro before request call after principal rfl hok
  obtain ⟨hwithout, -⟩ := hrun before (fun request call hrequest =>
    houtside request call (List.mem_append_left _ hrequest))
  exact hwithout.role (houtside request call (by simp)) (serveRequest_eq_ok hok).1

/-- A service that asks the Hub, and has issued a token to a member of a team. -/
def teamSettings : AuthSettings where
  bootstrapAdminToken := "bootstrap-token"
  jupyterhub := hubSettings.jupyterhub
  hashApiToken token :=
    if token = "gk-member" then "63e0b4945ba4e911ce20ae3934536001587081f8bda903f27835be081865d46b"
    else "e3b98a4da31a127d4bde6e43033f66ba274cab0eb7eb1c70ec41402bf6273dd8"

/-- A request with a token that is asked for while the Hub knows none. -/
def requestOf (token : String) : AuthRequest :=
  { unknownRequest with token := token, checkedAt := 30000000, storedAt := 30000000 }

/-- A member has a token, and the Hub has named another one. -/
def teamState : AuthState :=
  runAuth teamSettings {} [
    .request (requestOf "bootstrap-token") (.createUser "bob@example.org" "Bob" "user-1" 0),
    .request (requestOf "bootstrap-token")
      (.createToken "ci" "user-1" (some "team-a") .member "token-1" "gk-member" 0),
    .request knownRequest .other]

/-- Both are served, and the member tries to create a user. -/
def teamSteps : List AuthStep :=
  [.request (requestOf "gk-member") .other, .request (requestOf "t") .other,
    .request (requestOf "gk-member") (.createUser "eve@example.org" "Eve" "user-2" 0)]

/-- No admin answers from outside. -/
theorem not_outsideAdmin_requestOf {token : String} (h : token ≠ "bootstrap-token") :
  ¬ OutsideAdmin teamSettings (requestOf token)
  := by
  rintro (hbootstrap | ⟨henabled, -⟩ | ⟨user, found, ⟨apiUrl, serviceToken, -, -, hask⟩, -⟩)
  · exact h hbootstrap
  · cases henabled
  · cases hask

/-- The member and the user of the Hub are no admins. -/
theorem withoutAdmins_teamState : WithoutAdmins teamSettings teamState
  := by
  constructor
  · rintro row ⟨hrow, -⟩
    have hrows : teamState.tokens.rows.map ApiTokenRecord.role = [.member] := by
      decide +kernel
    have hrole : row.role ∈ teamState.tokens.rows.map ApiTokenRecord.role := List.mem_map_of_mem hrow
    rw [hrows, List.mem_singleton] at hrole
    rw [hrole]
    rintro ⟨⟩
  · intro cached hcached token principal hmodel
    have hrows : teamState.cache.rows.map CachedHubUser.user
        = [[(literalText "name", .str (literalText "ada"))]] := rfl
    have huser : cached.user ∈ teamState.cache.rows.map CachedHubUser.user := List.mem_map_of_mem hcached
    rw [hrows, List.mem_singleton] at huser
    rw [huser] at hmodel
    cases hmodel
    rintro ⟨⟩

/-- Both are served, nobody as an admin, and no user is created. -/
theorem noEscalation_team :
  (∃ principal, (serveRequest teamSettings (requestOf "gk-member") .other teamState).1 = .ok principal ∧
      principal.authProvider = .localTokens ∧ principal.role ≠ .admin) ∧
    (∃ principal, (serveRequest teamSettings (requestOf "t") .other
        (runAuth teamSettings teamState (teamSteps.take 1))).1 = .ok principal ∧
      principal.authProvider = .jupyterhub ∧ principal.role ≠ .admin) ∧
    ∀ user, user ∈ (runAuth teamSettings teamState teamSteps).users.rows ↔ user ∈ teamState.users.rows
  := by
  obtain ⟨hroles, -, husers⟩ := noEscalation teamSettings teamState teamSteps withoutAdmins_teamState (by
    intro request call hrequest
    simp only [teamSteps, List.mem_cons, List.not_mem_nil, AuthStep.request.injEq, or_false] at hrequest
    rcases hrequest with ⟨rfl, -⟩ | ⟨rfl, -⟩ | ⟨rfl, -⟩ <;> exact not_outsideAdmin_requestOf (by decide))
  refine ⟨⟨_, rfl, rfl, hroles [] _ _ _ _ rfl rfl⟩, ⟨_, rfl, rfl, hroles [_] _ _ _ _ rfl rfl⟩, husers⟩

end GoblinKing
