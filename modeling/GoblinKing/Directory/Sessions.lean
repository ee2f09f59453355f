import GoblinKing.Api.ServiceProxies
import GoblinKing.Directory.Bundles
import GoblinKing.Directory.Cookies
import GoblinKing.Directory.Proxy
import GoblinKing.Library.Expiry
import GoblinKing.Library.UrlPaths

/-!
# Sessions of the directory service

A browser without a session is sent to the Hub, with a signed state in a cookie. The Hub sends it back
with a code, for which the service gets a token; the session with the token stays in the memory of the
service, and the browser gets a cookie with the signed identifier. Every request reads its cookies, may
ask the Hub, and uses the store of the sessions at one point of time.
-/

namespace GoblinKing.DirectoryUi

open Utf8 Url ServiceProxies

/-! ### The outside -/

/-- The functions of the standard library that sessions rest on. -/
structure UiLibrary extends CookieLibrary, BundleLibrary where
  /-- `str` of a value that is not a text -/
  str : Json → List CodePoint
  /-- `float` -/
  float : Json → Except Raised FloatValue
  /-- the text of a float -/
  repr : ℚ → FloatText
  /-- `json.dumps` of the payload of a submission, encoded -/
  payloadBytes : SubmitPayload → List UInt8

/-- What is read of `DirectoryUISettings`. -/
structure UiSettings extends DirectoryUiSettings, ProxySettings where
  hubApiUrl : List CodePoint
  hubBaseUrl : List CodePoint
  publicUrl : Option (List CodePoint)
  serviceName : List CodePoint
  servicePrefix : List CodePoint
  sessionTtlSeconds : ℤ
  stateTtlSeconds : ℤ
  sessionCookieName : String
  stateCookieName : String
  adminGroups : List (List CodePoint)
  bundleLimits : DirectoryBundleLimits
  session_pos : 0 < sessionTtlSeconds
  state_pos : 0 < stateTtlSeconds

/-- A request to the Hub. -/
inductive HubCall where
  /-- a form that exchanges a code -/
  | exchange (url form : List CodePoint)
  /-- a resource that is read with a token -/
  | read (url token : List CodePoint)

/-- What the Hub answers. -/
inductive HubReply where
  | json (payload : Json)
  | httpError (code : ℕ) (detail : String)
  | invalidJson (message : String)
  | osError (message : String)
  /-- an exception that is not handled -/
  | raised

/-- The requests that need a session. -/
inductive SessionCall where
  | me
  | preview (body : List UInt8)
  | submit (body : List UInt8)
  | proxy (request : ProxyRequest)

/-- The requests to the service. -/
inductive UiCall where
  /-- a page, by the path and the query of its URL and the file that is asked for -/
  | page (path query file : List CodePoint)
  | callback (code state : List CodePoint)
  | logout
  | session (call : SessionCall)

/-- A request to the service, with everything that it is answered from outside: the Hub, the random text
that is drawn, and the clock when the request is checked, when the store is cleaned up and when something
is issued. -/
structure UiRequest where
  call : UiCall
  cookies : String → Option (List CodePoint)
  hub : HubCall → HubReply
  drawn : List CodePoint
  checkedAt : ℚ
  sweptAt : ℚ
  issuedAt : ℚ

/-- Who has logged in. -/
structure HubLogin where
  userName : List CodePoint
  token : List CodePoint
  groups : List (List CodePoint)
  isAdmin : Bool
  deriving DecidableEq

/-- Server-side session data keyed by a signed browser cookie. -/
structure DirectoryUiSession extends HubLogin where
  sessionId : List CodePoint
  expiresAt : ℚ
  deriving DecidableEq

/-- What a response does to a cookie. -/
inductive CookieChange where
  | set (name : String) (value : List CodePoint) (maxAge : ℤ) (path : List CodePoint)
  | delete (name : String) (path : List CodePoint)
  deriving DecidableEq

/-- What the browser is told about its user. -/
structure UserReply where
  user : List CodePoint
  groups : List (List CodePoint)
  isAdmin : Bool
  servicePrefix : List CodePoint
  repositoryUrl : List CodePoint
  deriving DecidableEq

/-- The responses that are no error. -/
inductive UiReply where
  | redirect (location : List CodePoint) (cookies : List CookieChange)
  | page (file : List CodePoint)
  | loggedOut (cookies : List CookieChange)
  | user (reply : UserReply)
  | preview (preview : DirectoryBundlePreview)
  /-- the response to a request that is sent to the API -/
  | upstream (request : UpstreamRequest)
  deriving DecidableEq

/-- The response to an exception that is not handled. -/
def internalServerError : HttpException :=
  ⟨500, "Internal Server Error"⟩

/-- An exception that is not handled. -/
def unhandled {α : Type} (result : Except Raised α) : Except HttpException α :=
  result.mapError (fun _ => internalServerError)

theorem unhandled_ok {α : Type} (value : α) :
  unhandled (.ok value) = .ok value
  := rfl

theorem unhandled_eq_ok {α : Type} {result : Except Raised α} {value : α} :
  unhandled result = .ok value ↔ result = .ok value
  := by
  cases result with
  | error error => simp [unhandled, Except.mapError]
  | ok found => simp [unhandled, Except.mapError]

/-- The code points of a literal. -/
def literalText (text : String) : List CodePoint :=
  ofChars text.toList

/-! ### Settings -/

variable (library : UiLibrary) (settings : UiSettings)

/-- The service token, unless it is missing or empty. -/
def UiSettings.serviceToken? : Option (List CodePoint) :=
  (settings.serviceToken.map Subtype.val).filter (fun token => decide (token ≠ []))

/-- The service token, or the error without one. -/
def UiSettings.requireServiceToken : Except HttpException (List CodePoint) :=
  match settings.serviceToken? with
  | some token => .ok token
  | none => .error ⟨500, "directory UI service token is required"⟩

/-- Return the service prefix without a trailing slash for route registration. -/
def UiSettings.normalizedPrefix : List CodePoint :=
  0x2F :: (settings.servicePrefix.dropWhile (· = 0x2F)).rdropWhile (· = 0x2F)

/-- Return the JupyterHub OAuth client id for this service. -/
def UiSettings.clientId : List CodePoint :=
  literalText "service-" ++ settings.serviceName

/-- `_callback_url` -/
def UiSettings.callbackUrl : List CodePoint :=
  let callbackPath := settings.normalizedPrefix ++ literalText "/oauth_callback"
  match settings.publicUrl with
  | none => callbackPath
  | some publicUrl =>
      if publicUrl = [] then callbackPath
      else publicUrl.rdropWhile (· = 0x2F) ++ callbackPath

/-- The URL of a resource of the Hub. -/
def UiSettings.hubUrl (resource : String) : List CodePoint :=
  settings.hubApiUrl.rdropWhile (· = 0x2F) ++ literalText resource

/-! ### The Hub -/

/-- A field that is a text with characters. -/
def textField (fields : List (List CodePoint × Json)) (name : String) : Option (List CodePoint) :=
  match fields.lookup (literalText name) with
  | some (.str text) => if text = [] then none else some text
  | _ => none

/-- `_exchange_oauth_code` -/
def exchangeOauthCode (hub : HubCall → HubReply) (code : List CodePoint) :
    Except HttpException (List CodePoint) := do
  let secret ← settings.requireServiceToken
  let form ← unhandled (urlencoded
    [(literalText "client_id", settings.clientId), (literalText "client_secret", secret),
      (literalText "grant_type", literalText "authorization_code"), (literalText "code", code),
      (literalText "redirect_uri", settings.callbackUrl)])
  match hub (.exchange (settings.hubUrl "/oauth2/token") form) with
  | .httpError code detail =>
      .error ⟨502, "Hub OAuth token exchange failed with " ++ toString code ++ ": " ++ detail⟩
  | .invalidJson message =>
      .error ⟨502, "Hub OAuth token exchange returned invalid JSON: " ++ message⟩
  | .osError message => .error ⟨502, "Hub OAuth token exchange failed: " ++ message⟩
  | .raised => .error internalServerError
  | .json (.obj payload) =>
      match textField payload "access_token" with
      | some token => .ok token
      | none => .error ⟨502, "Hub OAuth response missing access token"⟩
  | .json _ => .error internalServerError

/-- `_hub_json` of a reply -/
def hubJson (reply : HubReply) (invalidMessage : String) :
    Except HttpException (List (List CodePoint × Json)) :=
  match reply with
  | .httpError code _ =>
      if code ∈ [401, 403, 404] then .error ⟨401, invalidMessage⟩
      else .error ⟨503, "Hub API request failed"⟩
  | .invalidJson _ | .osError _ => .error ⟨503, "Hub API is unavailable"⟩
  | .raised => .error internalServerError
  | .json (.obj payload) =>
      match payload.lookup (literalText "user") with
      | some (.obj user) => .ok user
      | _ => .ok payload
  | .json _ => .error ⟨503, "Hub API response was not an object"⟩

/-- `_load_hub_user_detail` -/
def loadHubUserDetail (hub : HubCall → HubReply) (userName : List CodePoint) :
    Except HttpException (Option (List (List CodePoint × Json))) :=
  match settings.serviceToken? with
  | none => .ok none
  | some token => do
      let quotedName ← unhandled (ServiceProxies.quoted [] userName)
      match hubJson (hub (.read (settings.hubUrl "/users/" ++ quotedName) token))
          "directory UI service token is invalid" with
      | .ok detail => .ok (some detail)
      | .error error =>
          if error.statusCode ∈ [401, 403, 404, 502, 503] then .ok none else .error error

/-- The name of a group, which is a text or has one. -/
def groupName : Json → Option (List CodePoint)
  | .str name => some name
  | .obj group =>
      match group.lookup (literalText "name") with
      | some (.str name) => some name
      | _ => none
  | _ => none

/-- `_hub_groups` -/
def hubGroups (model : List (List CodePoint × Json)) : List (List CodePoint) :=
  match model.lookup (literalText "groups") with
  | some (.arr groups) => groups.filterMap groupName
  | _ => []

/-- Who has logged in with a code. -/
def loginOf (hub : HubCall → HubReply) (code : List CodePoint) : Except HttpException HubLogin := do
  let token ← exchangeOauthCode settings hub code
  let user ← hubJson (hub (.read (settings.hubUrl "/user") token)) "Hub OAuth token is invalid"
  match textField user "name" with
  | none => .error ⟨502, "Hub user response missing name"⟩
  | some userName => do
      let detail ← loadHubUserDetail settings hub userName
      let groups := hubGroups (match detail with
        | none | some [] => user
        | some (field :: fields) => field :: fields)
      .ok {
        userName := userName
        token := token
        groups := groups
        isAdmin := groups.any settings.adminGroups.contains }

/-! ### The state of a login -/

/-- A float is at most a number. -/
def floatLe (float : FloatValue) (now : ℚ) : Bool :=
  match float with
  | .finite number => number ≤ now
  | .infinite negative => negative
  | .nan => false

/-- The truth value of a JSON value. -/
def isTruthy : Json → Bool
  | .null => false
  | .bool value => value
  | .int number => number ≠ 0
  | .float text => library.float (.float text) ≠ .ok (.finite 0)
  | .str text => !text.isEmpty
  | .arr items => !items.isEmpty
  | .obj fields => !fields.isEmpty

/-- The state in the cookie of a callback: it has to be signed, the one of the query, and not expired. -/
def checkOauthState (cookie : Option (List CodePoint)) (state : List CodePoint) (now : ℚ) :
    Except HttpException (List (List CodePoint × Json)) := do
  let oauthState ← unhandled
    (decodeSignedJsonCookie library.toCookieLibrary settings.toDirectoryUiSettings cookie)
  match oauthState with
  | some (.obj fields) =>
      match fields.lookup (literalText "state") with
      | some (.str given) =>
          if given = state then do
            let expiresAt ← unhandled
              (library.float ((fields.lookup (literalText "expires_at")).getD (.int 0)))
            if floatLe expiresAt now then .error ⟨400, "expired OAuth state"⟩ else .ok fields
          else
            .error ⟨400, "invalid OAuth state"⟩
      | _ => .error ⟨400, "invalid OAuth state"⟩
  | _ => .error ⟨400, "invalid OAuth state"⟩

/-- Where a login comes back to. -/
def nextLocation (fields : List (List CodePoint × Json)) : List CodePoint :=
  match fields.lookup (literalText "next") with
  | none => settings.normalizedPrefix ++ [0x2F]
  | some next =>
      if isTruthy library next then
        match next with
        | .str text => text
        | _ => library.str next
      else
        settings.normalizedPrefix ++ [0x2F]

/-- The payload of a login that begins. -/
def statePayload (request : UiRequest) (path query : List CodePoint) : Json :=
  .obj [(literalText "state", .str request.drawn),
    (literalText "next", .str (if query = [] then path else path ++ 0x3F :: query)),
    (literalText "expires_at", .float (library.repr (request.issuedAt + settings.stateTtlSeconds)))]

/-- `_oauth_redirect` -/
def oauthRedirect (request : UiRequest) (path query : List CodePoint) : Except HttpException UiReply := do
  let _ ← settings.requireServiceToken
  let params ← unhandled (urlencoded
    [(literalText "client_id", settings.clientId), (literalText "redirect_uri", settings.callbackUrl),
      (literalText "response_type", literalText "code"), (literalText "state", request.drawn)])
  let cookie ← unhandled (encodeSignedJson library.toCookieLibrary settings.toDirectoryUiSettings
    (statePayload library settings request path query))
  let hubOauthAuthorizeUrl :=
    settings.hubBaseUrl.rdropWhile (· = 0x2F) ++ literalText "/api/oauth2/authorize"
  .ok (.redirect (hubOauthAuthorizeUrl ++ 0x3F :: params)
    [.set settings.stateCookieName cookie settings.stateTtlSeconds settings.normalizedPrefix])

/-! ### Stores of sessions -/

/-- The operations of a store of sessions. -/
structure SessionStoreOps (σ : Type) where
  /-- keep a session, after a clean-up at a time -/
  create : σ → ℚ → DirectoryUiSession → σ
  get : σ → ℚ → List CodePoint → Option DirectoryUiSession × σ
  delete : σ → List CodePoint → σ

/-- The sessions in memory. -/
abbrev Sessions := Table DirectoryUiSession.sessionId

/-- `DirectoryUISessionStore.get` -/
def Sessions.get (sessions : Sessions) (now : ℚ) (sessionId : List CodePoint) :
    Option DirectoryUiSession × Sessions :=
  match sessions.find? sessionId with
  | none => (none, sessions)
  | some session =>
      if session.expiresAt ≤ now then
        (none, sessions.drop sessionId)
      else
        (some session, sessions)

/-- Small in-memory session store for a single service replica. -/
def directoryUiSessionStore : SessionStoreOps Sessions where
  create sessions now session :=
    (sessions.sweep DirectoryUiSession.expiresAt now).upsert session
  get := Sessions.get
  delete := Table.drop

/-! ### Requests -/

variable {σ : Type} (store : SessionStoreOps σ)

/-- `_optional_session` -/
def optionalSession (request : UiRequest) (sessions : σ) :
    Except HttpException (Option DirectoryUiSession) × σ :=
  match decodeSignedValue library.toCookieLibrary settings.toDirectoryUiSettings
      (request.cookies settings.sessionCookieName) with
  | .error _ => (.error internalServerError, sessions)
  | .ok none => (.ok none, sessions)
  | .ok (some sessionId) =>
      if sessionId = [] then
        (.ok none, sessions)
      else
        let (session, sessions) := store.get sessions request.checkedAt sessionId
        (.ok session, sessions)

/-- A text as a string; a lone surrogate stands for no character. -/
def stringOf (text : List CodePoint) : String :=
  String.ofList (text.map (fun c => Char.ofNat c.val))

/-- The preview of a bundle. -/
def previewOf (body : List UInt8) : Except HttpException DirectoryBundlePreview :=
  match parseDirectoryBundle library.toBundleLibrary body settings.bundleLimits with
  | .ok preview => .ok preview
  | .error error =>
      if error.isValueError then .error ⟨400, error.message⟩ else .error internalServerError

/-- The user of a session. -/
def me (session : DirectoryUiSession) : UserReply where
  user := session.userName
  groups := session.groups
  isAdmin := session.isAdmin
  servicePrefix := settings.servicePrefix
  repositoryUrl :=
    match settings.repositoryUrl with
    | none => settings.apiUrl
    | some repositoryUrl => if repositoryUrl = [] then settings.apiUrl else repositoryUrl

/-- What a request that needs a session is answered with one. -/
def SessionCall.answer (session : DirectoryUiSession) : SessionCall → Except HttpException UiReply
  | .me => .ok (.user (DirectoryUi.me settings session))
  | .preview body => (previewOf library settings body).map .preview
  | .submit body => do
      let preview ← previewOf library settings body
      .ok (.upstream (forwardRaw settings.toProxySettings (stringOf session.token) "POST"
        (literalText "/directory/entries") [] (some (library.payloadBytes preview.submitPayload))
        (some "application/json")))
  | .proxy request =>
      (proxyApi settings.toProxySettings (some (stringOf session.token)) request).map .upstream

/-- The session that a callback creates, and where it goes to. -/
def acceptCallback (request : UiRequest) (code state : List CodePoint) :
    Except HttpException (DirectoryUiSession × List CodePoint) := do
  let oauthState ← checkOauthState library settings (request.cookies settings.stateCookieName) state
    request.checkedAt
  let login ← loginOf settings request.hub code
  .ok ({
    toHubLogin := login
    sessionId := request.drawn
    expiresAt := request.issuedAt + settings.sessionTtlSeconds }, nextLocation library settings oauthState)

/-- The response to a callback whose session has been created. -/
def callbackReply (session : DirectoryUiSession) (location : List CodePoint) :
    Except HttpException UiReply := do
  let cookie ← unhandled
    (signedValue library.toCookieLibrary settings.toDirectoryUiSettings session.sessionId)
  .ok (.redirect location
    [.set settings.sessionCookieName cookie settings.sessionTtlSeconds settings.normalizedPrefix,
      .delete settings.stateCookieName settings.normalizedPrefix])

/-- Answer a request. -/
def serve (request : UiRequest) (sessions : σ) : Except HttpException UiReply × σ :=
  match request.call with
  | .callback code state =>
      match acceptCallback library settings request code state with
      | .error error => (.error error, sessions)
      | .ok (session, location) =>
          (callbackReply library settings session location,
            store.create sessions request.sweptAt session)
  | .logout =>
      match decodeSignedValue library.toCookieLibrary settings.toDirectoryUiSettings
          (request.cookies settings.sessionCookieName) with
      | .error _ => (.error internalServerError, sessions)
      | .ok decoded =>
          let sessions := match decoded with
            | none => sessions
            | some sessionId => if sessionId = [] then sessions else store.delete sessions sessionId
          (.ok (.loggedOut [.delete settings.sessionCookieName settings.normalizedPrefix]), sessions)
  | .page path query file =>
      match optionalSession library settings store request sessions with
      | (.error error, sessions) => (.error error, sessions)
      | (.ok none, sessions) => (oauthRedirect library settings request path query, sessions)
      | (.ok (some _), sessions) =>
          (.ok (.page (if file = [] then literalText "index.html" else file)), sessions)
  | .session call =>
      match optionalSession library settings store request sessions with
      | (.error error, sessions) => (.error error, sessions)
      | (.ok none, sessions) => (.error ⟨401, "directory UI login required"⟩, sessions)
      | (.ok (some session), sessions) => (call.answer library settings session, sessions)

/-- Answer requests one after the other. -/
def serveAll : List UiRequest → σ → List (Except HttpException UiReply) × σ
  | [], sessions => ([], sessions)
  | request :: requests, sessions =>
      let (reply, sessions) := serve library settings store request sessions
      let (replies, sessions) := serveAll requests sessions
      (reply :: replies, sessions)

end GoblinKing.DirectoryUi
