import GoblinKing.Api.Repository
import GoblinKing.Directory.Sessions

/-!
# Authentication

A bearer token is the bootstrap token, or it is looked up by its hash among the tokens in the database, or
it is given to the external providers: first as a JWT, then to the Hub. What the Hub says about a token is
kept in the memory of the process, under the hash of the token and with the time.
-/

namespace GoblinKing

open Utf8 DirectoryUi

/-! ### Records -/

/-- Represent a local API user principal. -/
structure UserRecord where
  id : Id
  email : String
  displayName : String
  createdAt : Instant
  disabled : Bool := false
  deriving DecidableEq

/-- Represent a hashed bearer token scoped to a user and optional project. -/
structure ApiTokenRecord where
  id : Id
  name : String
  tokenHash : String
  createdAt : Instant
  userId : Id
  projectId : Option Id := none
  role : PrincipalRole := .member
  revokedAt : Option Instant := none
  deriving DecidableEq

/-- The providers of principals. -/
inductive AuthProvider where
  | localTokens
  | oidc
  | jupyterhub
  deriving DecidableEq

/-- Authenticated API caller context. -/
structure AuthenticatedPrincipal extends Principal where
  tokenId : String
  bootstrap : Bool := false
  authProvider : AuthProvider := .localTokens
  deriving DecidableEq

/-- What the Hub has said about a user. -/
abbrev HubModel := List (List CodePoint × Json)

/-- An entry of `_JUPYTERHUB_TOKEN_CACHE`. -/
structure CachedHubUser where
  key : String
  storedAt : Instant
  user : HubModel

/-- The tables and the memory that authentication reads. -/
structure AuthState where
  tokens : Table ApiTokenRecord.id := .empty
  users : Table UserRecord.id := .empty
  cache : Table CachedHubUser.key := .empty

/-! ### Settings -/

/-- OIDC/JWT validation settings for external bearer tokens. -/
structure OidcSettings where
  enabled : Bool := false
  issuer : Option String := none
  audience : Option String := none
  jwksUrl : Option String := none
  userClaim : String := "sub"
  roleClaim : String := "goblin_king_role"
  projectClaim : String := "goblin_king_project_id"
  adminRoles : List String := ["admin"]

/-- JupyterHub-backed bearer token validation settings. -/
structure JupyterHubSettings where
  enabled : Bool := false
  apiUrl : Option (List CodePoint) := none
  serviceToken : Option (List CodePoint) := none
  cacheTtlSeconds : ℕ := 60
  allowedUsers : List String := []
  allowedGroups : List String := []
  adminGroups : List String := []
  viewerGroups : List String := []
  projectGroups : List (String × Id) := []
  defaultProjectId : Option Id := none

/-- What authentication is configured with. -/
structure AuthSettings where
  bootstrapAdminToken : String
  oidc : OidcSettings := {}
  jupyterhub : JupyterHubSettings := {}
  /-- `hash_api_token` -/
  hashApiToken : String → String

/-- A request with a bearer token, and what it is answered from outside: the claims that PyJWT decodes, the
Hub, and the clock when the cache is read and when it is written. -/
structure AuthRequest where
  token : String
  claims : Except String HubModel
  hub : HubCall → HubReply
  checkedAt : Instant
  storedAt : Instant

/-- A text is missing or empty. -/
def isBlank {α : Type} [DecidableEq α] (blank : α) (text : Option α) : Bool :=
  text.all (fun text => decide (text = blank))

/-! ### OIDC -/

/-- `_claim_values` -/
def claimValues : Option Json → List String
  | some (.str value) => [stringOf value]
  | some (.arr items) => items.filterMap (fun item =>
      match item with
      | .str value => some (stringOf value)
      | _ => none)
  | _ => []

/-- `_claim_as_string` -/
def claimAsString (claims : HubModel) (key : String) : Option String :=
  (textField claims key).map stringOf

/-- `_role_from_claims` -/
def roleFromClaims (oidc : OidcSettings) (claims : HubModel) : PrincipalRole :=
  let values := claimValues (claims.lookup (literalText oidc.roleClaim))
  if values.any (fun value => value ∈ oidc.adminRoles) then .admin
  else if "viewer" ∈ values then .viewer
  else .member

/-- `_decode_oidc_jwt` -/
def decodeOidcJwt (oidc : OidcSettings) (claims : Except String HubModel) :
    Except HttpException HubModel :=
  if isBlank "" oidc.issuer || isBlank "" oidc.audience || isBlank "" oidc.jwksUrl then
    .error ⟨500, "OIDC issuer, audience, and JWKS URL are required"⟩
  else
    claims.mapError (fun message => ⟨401, "missing or invalid OIDC bearer token: " ++ message⟩)

/-- `authenticate_oidc_token` -/
def authenticateOidcToken (oidc : OidcSettings) (request : AuthRequest) :
    Except HttpException AuthenticatedPrincipal := do
  let claims ← decodeOidcJwt oidc request.claims
  match claimAsString claims oidc.userClaim with
  | none => .error ⟨401, "OIDC token missing required claim: " ++ oidc.userClaim⟩
  | some userId => .ok {
      userId := userId
      tokenId := "oidc:" ++ userId
      role := roleFromClaims oidc claims
      projectId := claimAsString claims oidc.projectClaim
      authProvider := .oidc }

/-! ### The Hub -/

variable (settings : AuthSettings)

/-- `_jupyterhub_user_model` -/
def jupyterhubUserModel (model : HubModel) : Except HttpException HubModel :=
  let model := match model.lookup (literalText "user") with
    | some (.obj user) => user
    | _ => model
  match model.lookup (literalText "kind") with
  | none | some .null => .ok model
  | some kind =>
      match kind with
      | .str text =>
          if text = literalText "user" then .ok model
          else .error ⟨403, "JupyterHub token does not belong to a user"⟩
      | _ => .error ⟨403, "JupyterHub token does not belong to a user"⟩

/-- `_request_jupyterhub_json` of a reply -/
def requestJupyterhubJson (reply : HubReply) (invalidTokenMessage : String)
    (permissionMessage : Option String) : Except HttpException HubModel :=
  match reply with
  | .json (.obj model) => .ok model
  | .json _ => .error ⟨503, "JupyterHub token response was not an object"⟩
  | .httpError code _ =>
      if code ∈ [401, 404] then .error ⟨401, invalidTokenMessage⟩
      else if code = 403 then
        match permissionMessage with
        | some message => .error ⟨500, message⟩
        | none => .error ⟨401, invalidTokenMessage⟩
      else .error ⟨503, "JupyterHub token validation failed"⟩
  | .invalidJson _ | .osError _ =>
      .error ⟨503, "JupyterHub is unavailable for token validation"⟩
  | .raised => .error internalServerError

/-- The fields of two dictionaries, where those of the second one come first. -/
def mergeModels (user detail : HubModel) : HubModel :=
  user.map (fun field => (field.1, (detail.lookup field.1).getD field.2))
    ++ detail.filter (fun field => (user.lookup field.1).isNone)

/-- The user that the Hub identifies with a token, asked now. -/
def askJupyterhub (apiUrl serviceToken : List CodePoint) (request : AuthRequest) :
    Except HttpException HubModel := do
  let base := apiUrl.rdropWhile (· = 0x2F)
  let model ← requestJupyterhubJson
    (request.hub (.read (base ++ literalText "/user") (literalText request.token)))
    "missing or invalid JupyterHub bearer token" none
  let user ← jupyterhubUserModel model
  match textField user "name" with
  | none => .ok user
  | some userId => do
      let quotedId ← unhandled (ServiceProxies.quoted [] userId)
      let detail ← requestJupyterhubJson
        (request.hub (.read (base ++ literalText "/users/" ++ quotedId) serviceToken))
        "JupyterHub service token is invalid"
        (some "JupyterHub service token lacks user/group permission")
      .ok (mergeModels user detail)

/-- The length of `timedelta(seconds=cache_ttl_seconds)`. -/
def JupyterHubSettings.cacheTtl (jupyterhub : JupyterHubSettings) : ℤ :=
  jupyterhub.cacheTtlSeconds * 1000000

/-- The user in the cache, if it is used and has not become too old. -/
def cachedUser (cache : Table CachedHubUser.key) (request : AuthRequest) : Option HubModel :=
  if 0 < settings.jupyterhub.cacheTtlSeconds then
    match cache.find? (settings.hashApiToken request.token) with
    | some cached =>
        if request.checkedAt - cached.storedAt < settings.jupyterhub.cacheTtl then some cached.user
        else none
    | none => none
  else
    none

/-- `_identify_jupyterhub_token` -/
def identifyJupyterhubToken (request : AuthRequest) (cache : Table CachedHubUser.key) :
    Except HttpException HubModel × Table CachedHubUser.key :=
  match settings.jupyterhub.apiUrl, settings.jupyterhub.serviceToken with
  | none, _ | some [], _ => (.error ⟨500, "JupyterHub api_url is required"⟩, cache)
  | some _, none | some _, some [] => (.error ⟨500, "JupyterHub service token is required"⟩, cache)
  | some apiUrl, some serviceToken =>
      match cachedUser settings cache request with
      | some user => (.ok user, cache)
      | none =>
          match askJupyterhub apiUrl serviceToken request with
          | .error error => (.error error, cache)
          | .ok user =>
              (.ok user,
                if 0 < settings.jupyterhub.cacheTtlSeconds then
                  cache.upsert ⟨settings.hashApiToken request.token, request.storedAt, user⟩
                else
                  cache)

/-- `_jupyterhub_groups` -/
def jupyterhubGroups (model : HubModel) : List String :=
  (hubGroups model).map stringOf

/-- `_jupyterhub_user_allowed` -/
def jupyterhubUserAllowed (userId : String) (groups : List String) : Bool :=
  if settings.jupyterhub.allowedUsers.isEmpty && settings.jupyterhub.allowedGroups.isEmpty then
    true
  else
    decide (userId ∈ settings.jupyterhub.allowedUsers) ||
      groups.any (fun group => group ∈ settings.jupyterhub.allowedGroups)

/-- `_jupyterhub_role` -/
def jupyterhubRole (model : HubModel) (groups : List String) : PrincipalRole :=
  let isAdmin := match model.lookup (literalText "admin") with
    | some (.bool admin) => admin
    | _ => false
  if isAdmin || groups.any (fun group => group ∈ settings.jupyterhub.adminGroups) then .admin
  else if groups.any (fun group => group ∈ settings.jupyterhub.viewerGroups) then .viewer
  else .member

/-- `_jupyterhub_project_id` -/
def jupyterhubProjectId (groups : List String) : Option Id :=
  let projects := groups.filterMap (fun group =>
    (settings.jupyterhub.projectGroups.lookup group).filter (fun project => decide (project ≠ "")))
  match projects with
  | project :: _ => some project
  | [] => settings.jupyterhub.defaultProjectId

/-- The principal of a user of the Hub. -/
def principalOfModel (token : String) (model : HubModel) :
    Except HttpException AuthenticatedPrincipal := do
  let user ← jupyterhubUserModel model
  match textField user "name" with
  | none => .error ⟨401, "JupyterHub token response missing user name"⟩
  | some name =>
      let userId := stringOf name
      let groups := jupyterhubGroups user
      if jupyterhubUserAllowed settings userId groups then
        .ok {
          userId := userId
          tokenId := "jupyterhub:" ++ String.ofList ((settings.hashApiToken token).toList.take 16)
          role := jupyterhubRole settings user groups
          projectId := jupyterhubProjectId settings groups
          authProvider := .jupyterhub }
      else
        .error ⟨403, "JupyterHub user is not authorized"⟩

/-- `authenticate_jupyterhub_token` -/
def authenticateJupyterhubToken (request : AuthRequest) (cache : Table CachedHubUser.key) :
    Except HttpException AuthenticatedPrincipal × Table CachedHubUser.key :=
  let (identified, cache) := identifyJupyterhubToken settings request cache
  (identified.bind (principalOfModel settings request.token), cache)

/-! ### Bearer tokens -/

/-- `get_api_token_by_hash`, which raises an exception when there are several rows -/
def getApiTokenByHash (tokens : Table ApiTokenRecord.id) (tokenHash : String) :
    Except HttpException (Option ApiTokenRecord) :=
  match tokens.select (fun row => decide (row.tokenHash = tokenHash) && row.revokedAt.isNone) with
  | [] => .ok none
  | [row] => .ok (some row)
  | _ :: _ :: _ => .error internalServerError

/-- The principal of a token in the database. -/
def localPrincipal (users : Table UserRecord.id) (row : ApiTokenRecord) :
    Except HttpException AuthenticatedPrincipal :=
  match users.find? row.userId with
  | none => .error ⟨403, "user is disabled or missing"⟩
  | some user =>
      if user.disabled then
        .error ⟨403, "user is disabled or missing"⟩
      else
        .ok {
          userId := row.userId
          tokenId := row.id
          role := row.role
          projectId := row.projectId }

/-- The principal of a token that is not in the database. -/
def externalPrincipal (request : AuthRequest) (cache : Table CachedHubUser.key) :
    Except HttpException AuthenticatedPrincipal × Table CachedHubUser.key :=
  let ofHub :=
    if settings.jupyterhub.enabled then authenticateJupyterhubToken settings request cache
    else (.error ⟨401, "missing or invalid bearer token"⟩, cache)
  if settings.oidc.enabled then
    match authenticateOidcToken settings.oidc request with
    | .ok principal => (.ok principal, cache)
    | .error error =>
        if 500 ≤ error.statusCode || !settings.jupyterhub.enabled then (.error error, cache) else ofHub
  else
    ofHub

/-- The principal of the bootstrap token. -/
def bootstrapPrincipal : AuthenticatedPrincipal where
  userId := "bootstrap-admin"
  tokenId := "bootstrap"
  role := .admin
  bootstrap := true

/-- `authenticate_token` -/
def authenticateToken (request : AuthRequest) (state : AuthState) :
    Except HttpException AuthenticatedPrincipal × AuthState :=
  if request.token = settings.bootstrapAdminToken then
    (.ok bootstrapPrincipal, state)
  else
    match getApiTokenByHash state.tokens (settings.hashApiToken request.token) with
    | .error error => (.error error, state)
    | .ok (some row) => (localPrincipal state.users row, state)
    | .ok none =>
        let (principal, cache) := externalPrincipal settings request state.cache
        (principal, { state with cache := cache })

/-! ### Requests -/

/-- The requests that write what authentication reads, with the identifiers and the raw token that are
drawn, and all other requests. -/
inductive AdminCall where
  | createUser (email displayName : String) (id : Id) (createdAt : Instant)
  | createToken (name : String) (userId : Id) (projectId : Option Id) (role : PrincipalRole) (id : Id)
      (rawToken : String) (createdAt : Instant)
  | other

/-- What happens to the service: a request, or an operator revokes a token. -/
inductive AuthStep where
  | request (request : AuthRequest) (call : AdminCall)
  | revoke (tokenId : Id) (revokedAt : Instant)

/-- Revoke a row. -/
def ApiTokenRecord.revoke (revokedAt : Instant) (row : ApiTokenRecord) : ApiTokenRecord :=
  { row with revokedAt := some revokedAt }

theorem ApiTokenRecord.revoke_id (revokedAt : Instant) (row : ApiTokenRecord) :
  (row.revoke revokedAt).id = row.id
  := rfl

/-- `revoke_api_token` -/
def AuthState.revokeApiToken (state : AuthState) (tokenId : Id) (revokedAt : Instant) : AuthState :=
  { state with
    tokens := state.tokens.update (fun row => decide (row.id = tokenId))
      (ApiTokenRecord.revoke revokedAt) (ApiTokenRecord.revoke_id revokedAt) }

/-- What a request of an admin writes; an identifier that is taken is an integrity error. -/
def AdminCall.write (call : AdminCall) (state : AuthState) : Except HttpException AuthState :=
  match call with
  | .createUser email displayName id createdAt =>
      match state.users.insert? { id, email, displayName, createdAt } with
      | some users => .ok { state with users := users }
      | none => .error internalServerError
  | .createToken name userId projectId role id rawToken createdAt =>
      match state.tokens.insert? {
          id, name, createdAt, userId, projectId, role
          tokenHash := settings.hashApiToken rawToken } with
      | some tokens => .ok { state with tokens := tokens }
      | none => .error internalServerError
  | .other => .ok state

/-- Whether a request needs an admin. -/
def AdminCall.needsAdmin : AdminCall → Bool
  | .createUser _ _ _ _ | .createToken _ _ _ _ _ _ _ => true
  | .other => false

/-- Authenticate a request and serve it: the principal that it has been served for. -/
def serveRequest (request : AuthRequest) (call : AdminCall) (state : AuthState) :
    Except HttpException AuthenticatedPrincipal × AuthState :=
  match authenticateToken settings request state with
  | (.error error, state) => (.error error, state)
  | (.ok principal, state) =>
      if call.needsAdmin && decide (principal.role ≠ .admin) then
        (.error ⟨403, "admin role required"⟩, state)
      else
        match call.write settings state with
        | .error error => (.error error, state)
        | .ok state => (.ok principal, state)

/-- The state after a step. -/
def stepAuth (state : AuthState) : AuthStep → AuthState
  | .request request call => (serveRequest settings request call state).2
  | .revoke tokenId revokedAt => state.revokeApiToken tokenId revokedAt

/-- The state after a run. -/
def runAuth (state : AuthState) (steps : List AuthStep) : AuthState :=
  steps.foldl (stepAuth settings) state

end GoblinKing
