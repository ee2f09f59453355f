import GoblinKing.Directory.Sessions
import GoblinKing.Library.Except

/-!
# Logins

A login begins with a redirect to the Hub, whose state goes into the query and, signed, into a cookie. It
ends with a callback that brings both of them back. The callback is accepted exactly when they are the
state of the redirect, the state has not expired, and the Hub exchanges the code and names the user; then
the browser comes back to the page that it had asked for.
-/

namespace GoblinKing.DirectoryUi

open Utf8 Url ServiceProxies

variable {library : UiLibrary} {settings : UiSettings}

/-- The page that a browser comes back to. -/
def pageUrl (path query : List CodePoint) : List CodePoint :=
  if query = [] then path else path ++ 0x3F :: query

/-- A redirect sets the cookie with its state. -/
theorem oauthRedirect_eq_ok {page : UiRequest} {path query location : List CodePoint}
    {cookies : List CookieChange}
    (h : oauthRedirect library settings page path query = .ok (.redirect location cookies)) :
  ∃ cookie, encodeSignedJson library.toCookieLibrary settings.toDirectoryUiSettings
      (statePayload library settings page path query) = .ok cookie ∧
    cookies = [.set settings.stateCookieName cookie settings.stateTtlSeconds settings.normalizedPrefix]
  := by
  obtain ⟨_, -, h⟩ := Except.bind_eq_ok.mp h
  obtain ⟨params, -, h⟩ := Except.bind_eq_ok.mp h
  obtain ⟨cookie, hcookie, h⟩ := Except.bind_eq_ok.mp h
  cases h
  exact ⟨cookie, unhandled_eq_ok.mp hcookie, rfl⟩

/-- The names of the fields of a state are in their order in a cookie. -/
theorem stateKeys_ordered :
  (literalText "expires_at" ≤ literalText "next" ∧ ¬ literalText "next" ≤ literalText "expires_at") ∧
    literalText "next" ≤ literalText "state" ∧ ¬ literalText "state" ≤ literalText "next"
  := by decide +kernel

theorem beq_of_not_le {first second : List CodePoint} (h : ¬ second ≤ first) :
  (second == first) = false
  := by
  rw [beq_eq_false_iff_ne]
  rintro rfl
  exact h le_rfl

/-- The fields of a state in their order in a cookie. -/
theorem sortKeys_statePayload (page : UiRequest) (path query : List CodePoint) :
  (statePayload library settings page path query).sortKeys
    = .obj [(literalText "expires_at",
          .float (library.repr (page.issuedAt + settings.stateTtlSeconds))),
        (literalText "next", .str (pageUrl path query)), (literalText "state", .str page.drawn)]
  := by
  obtain ⟨⟨-, hexpires⟩, -, hnext⟩ := stateKeys_ordered
  simp [statePayload, pageUrl, Json.sortKeys, Json.sortFields, List.mergeSort,
    List.MergeSort.Internal.splitInTwo, hnext, hexpires]

/-- A state is checked against the state of the redirect that set its cookie, and against its time. -/
theorem checkOauthState_redirect {page : UiRequest} {path query cookie : List CodePoint}
    (hcookie : encodeSignedJson library.toCookieLibrary settings.toDirectoryUiSettings
      (statePayload library settings page path query) = .ok cookie)
    (hdumps : library.dumps (statePayload library settings page path query)
      = .ok ((statePayload library settings page path query).sortKeys.write Json.escapeAscii))
    (hloads : library.loads
        (bytes ((statePayload library settings page path query).sortKeys.write Json.escapeAscii))
      = .ok (statePayload library settings page path query).sortKeys)
    (hfloat : library.float (.float (library.repr (page.issuedAt + settings.stateTtlSeconds)))
      = .ok (.finite (page.issuedAt + settings.stateTtlSeconds)))
    (state : List CodePoint) (now : ℚ) {fields : List (List CodePoint × Json)} :
  checkOauthState library settings (some cookie) state now = .ok fields ↔
    state = page.drawn ∧ now < page.issuedAt + settings.stateTtlSeconds ∧
      .obj fields = (statePayload library settings page path query).sortKeys
  := by
  obtain ⟨⟨hexpires, -⟩, hnext, hlast⟩ := stateKeys_ordered
  have hsame : (statePayload library settings page path query).sortKeys.Same
      (statePayload library settings page path query) := by
    rw [Json.Same, sortKeys_statePayload]
    simp [Json.sortKeys, Json.sortFields, List.mergeSort, List.MergeSort.Internal.splitInTwo,
      hexpires, hnext, hexpires.trans hnext]
  obtain ⟨signed, hsigned, hdecoded⟩ := decodeSignedJsonCookie_encodeSignedJson rfl hdumps hloads hsame
  obtain rfl := Except.ok.inj (hcookie.symm.trans hsigned)
  unfold checkOauthState
  rw [hdecoded, sortKeys_statePayload]
  have hfirst : ¬ literalText "state" ≤ literalText "expires_at" := fun h => hlast (h.trans hexpires)
  simp only [unhandled_ok, Except.ok_bind, List.lookup_cons, beq_of_not_le hfirst, beq_of_not_le hlast,
    beq_self_eq_true, Option.getD_some, hfloat, Json.obj.injEq]
  by_cases hsame : page.drawn = state
  · subst hsame
    by_cases hlate : page.issuedAt + settings.stateTtlSeconds ≤ now
    · simp [floatLe, hlate]
    · simp [floatLe, hlate, not_le.mp hlate, eq_comm]
  · simp [hsame, Ne.symm hsame]

/-- The browser comes back to the page of the state. -/
theorem nextLocation_statePayload {page : UiRequest} {path query : List CodePoint} (hpath : path ≠ [])
    {fields : List (List CodePoint × Json)}
    (hfields : .obj fields = (statePayload library settings page path query).sortKeys) :
  nextLocation library settings fields = pageUrl path query
  := by
  have hnext := beq_of_not_le stateKeys_ordered.1.2
  have hpage : pageUrl path query ≠ [] := by
    unfold pageUrl
    split_ifs
    · exact hpath
    · simp
  rw [sortKeys_statePayload, Json.obj.injEq] at hfields
  rw [nextLocation, hfields]
  simp [List.lookup_cons, hnext, isTruthy, hpage]

/-- A callback that brings back the state and the cookie of a redirect is accepted exactly when the state
is the one in the cookie and has not expired, and the Hub lets the browser log in; the browser then comes
back to the page that it had asked for. -/
theorem acceptCallback_redirect (library : UiLibrary) (settings : UiSettings) (page callback : UiRequest)
    (path query code state cookie location : List CodePoint) (cookies : List CookieChange)
    (session : DirectoryUiSession) (next : List CodePoint) (hpath : path ≠ [])
    (hredirect : oauthRedirect library settings page path query = .ok (.redirect location cookies))
    (hcookies : .set settings.stateCookieName cookie settings.stateTtlSeconds settings.normalizedPrefix
      ∈ cookies)
    (hbrought : callback.cookies settings.stateCookieName = some cookie)
    (hdumps : library.dumps (statePayload library settings page path query)
      = .ok ((statePayload library settings page path query).sortKeys.write Json.escapeAscii))
    (hloads : library.loads
        (bytes ((statePayload library settings page path query).sortKeys.write Json.escapeAscii))
      = .ok (statePayload library settings page path query).sortKeys)
    (hfloat : library.float (.float (library.repr (page.issuedAt + settings.stateTtlSeconds)))
      = .ok (.finite (page.issuedAt + settings.stateTtlSeconds))) :
  acceptCallback library settings callback code state = .ok (session, next) ↔
    state = page.drawn ∧ callback.checkedAt < page.issuedAt + settings.stateTtlSeconds ∧
      loginOf settings callback.hub code = .ok session.toHubLogin ∧
      session.sessionId = callback.drawn ∧
      session.expiresAt = callback.issuedAt + settings.sessionTtlSeconds ∧
      next = pageUrl path query
  := by
  obtain ⟨set, hencode, rfl⟩ := oauthRedirect_eq_ok hredirect
  obtain rfl : cookie = set := by simpa using hcookies
  have hcheck : ∀ fields now, checkOauthState library settings (some cookie) state now = .ok fields ↔
      state = page.drawn ∧ now < page.issuedAt + settings.stateTtlSeconds ∧
        .obj fields = (statePayload library settings page path query).sortKeys := by
    intro fields now
    exact checkOauthState_redirect hencode hdumps hloads hfloat state now
  rw [acceptCallback, hbrought]
  constructor
  · intro haccept
    obtain ⟨fields, hchecked, hrest⟩ := Except.bind_eq_ok.mp haccept
    obtain ⟨login, hlogin, hresult⟩ := Except.bind_eq_ok.mp hrest
    obtain ⟨rfl, htime, hfields⟩ := (hcheck fields _).mp hchecked
    cases hresult
    exact ⟨rfl, htime, hlogin, rfl, rfl, nextLocation_statePayload hpath hfields⟩
  · rintro ⟨rfl, htime, hlogin, hid, hexpires, rfl⟩
    have hfields := (hcheck _ callback.checkedAt).mpr ⟨rfl, htime, (sortKeys_statePayload page path query).symm⟩
    refine Except.bind_eq_ok.mpr ⟨_, hfields, Except.bind_eq_ok.mpr ⟨_, hlogin, ?_⟩⟩
    rw [nextLocation_statePayload hpath (sortKeys_statePayload page path query).symm, ← hid, ← hexpires]

/-! ### A login -/

theorem sixHundred_printable :
  ∀ c ∈ ([0x36, 0x30, 0x30, 0x2E, 0x30] : List CodePoint), 0x20 ≤ c.val ∧ c.val < 0x7F
  := by
  have hall : ([0x36, 0x30, 0x30, 0x2E, 0x30] : List CodePoint).all
      (fun c => 0x20 ≤ c.val ∧ c.val < 0x7F) = true := by decide
  intro c hc
  simpa using List.all_eq_true.mp hall c hc

theorem encodable_token :
  Encodable (literalText "token")
  := encodable_ofChars _

theorem adaTtl_pos :
  (0 : ℤ) < 28800 ∧ (0 : ℤ) < 600
  := by decide

/-- The text of a float. -/
def sixHundred : FloatText :=
  ⟨[0x36, 0x30, 0x30, 0x2E, 0x30], sixHundred_printable⟩

/-- The text of a login state. -/
def adaState : List CodePoint :=
  literalText "\x7b\"expires_at\":600.0,\"next\":\"/services/goblin-directory/\",\"state\":\"s\"\x7d"

/-- The functions of the standard library on one login, whose state is signed with the token `token`. -/
def adaLibrary : UiLibrary where
  hmacSha256 _ message :=
    if message = [0x69] then
      [0x4E, 0x23, 0x1A, 0x35, 0x20, 0x02, 0x6A, 0xA3, 0x2C, 0xDF, 0xEB, 0x83, 0x90, 0x98, 0x30, 0x94,
        0x4B, 0xDD, 0x11, 0x74, 0x8B, 0x1D, 0xF5, 0xED, 0x4A, 0x31, 0xAB, 0xE8, 0xE1, 0x32, 0xC9, 0x5E]
    else
      [0xAE, 0x70, 0x2E, 0xB0, 0xE9, 0xFE, 0x77, 0x80, 0xD0, 0x9A, 0x4D, 0xED, 0xE3, 0x64, 0xDB, 0x71,
        0x9F, 0x59, 0x19, 0xE3, 0x47, 0x0A, 0xFD, 0x0A, 0x5F, 0x73, 0xEC, 0x96, 0x77, 0x96, 0x03, 0x08]
  dumps payload := .ok (payload.sortKeys.write Json.escapeAscii)
  loads encoded :=
    if encoded = bytes adaState then
      .ok (.obj [(literalText "expires_at", .float sixHundred),
        (literalText "next", .str (literalText "/services/goblin-directory/")),
        (literalText "state", .str (literalText "s"))])
    else
      .error ⟨.valueError, "Expecting value: line 1 column 1 (char 0)"⟩
  zipFile _ := .error ⟨.badZipFile, "File is not a zip file"⟩
  jsonLoads _ := .error .jsonDecodeError
  manifestFields _ := .error "Field required"
  validationText messages := "\n".intercalate messages
  lower := String.map Char.toLower
  str _ := []
  float value :=
    match value with
    | .float text =>
        if text = sixHundred then .ok (.finite 600)
        else .error ⟨.valueError, "could not convert string to float"⟩
    | _ => .error ⟨.typeError, "float() argument must be a string or a real number"⟩
  repr _ := sixHundred
  payloadBytes _ := []

/-- The settings of a deployment. -/
def adaSettings : UiSettings where
  serviceToken := some ⟨literalText "token", encodable_token⟩
  apiUrl := literalText "http://goblin-king-api:8000"
  repositoryUrl := none
  hubApiUrl := literalText "http://hub:8081/hub/api"
  hubBaseUrl := literalText "/hub/"
  publicUrl := none
  serviceName := literalText "goblin-directory"
  servicePrefix := literalText "/services/goblin-directory/"
  sessionTtlSeconds := 28800
  stateTtlSeconds := 600
  sessionCookieName := "goblin_directory_session"
  stateCookieName := "goblin_directory_oauth_state"
  adminGroups := [literalText "goblin-admins"]
  bundleLimits := {}
  session_pos := adaTtl_pos.1
  state_pos := adaTtl_pos.2

/-- A browser asks for the first page. -/
def adaPage : UiRequest where
  call := .page (literalText "/services/goblin-directory/") [] []
  cookies _ := none
  hub _ := .raised
  drawn := literalText "s"
  checkedAt := 0
  sweptAt := 0
  issuedAt := 0

/-- The cookie with the state. -/
def adaCookie : List CodePoint :=
  literalText ("eyJleHBpcmVzX2F0Ijo2MDAuMCwibmV4dCI6Ii9zZXJ2aWNlcy9nb2JsaW4tZGlyZWN0b3J5LyIsInN0YXRlIjoicyJ9"
    ++ ".ae702eb0e9fe7780d09a4dede364db719f5919e3470afd0a5f73ec9677960308")

/-- The Hub knows a user with one group. -/
def adaHub : HubCall → HubReply
  | .exchange _ _ => .json (.obj [(literalText "access_token", .str (literalText "t"))])
  | .read _ _ => .json (.obj [(literalText "name", .str (literalText "ada")),
      (literalText "groups", .arr [.str (literalText "goblin-admins")])])

/-- The browser comes back from the Hub. -/
def adaCallback : UiRequest where
  call := .callback (literalText "c") (literalText "s")
  cookies name := if name = "goblin_directory_oauth_state" then some adaCookie else none
  hub := adaHub
  drawn := literalText "i"
  checkedAt := 10
  sweptAt := 10
  issuedAt := 10

/-- The session of the login. -/
def adaSession : DirectoryUiSession where
  userName := literalText "ada"
  token := literalText "t"
  groups := [literalText "goblin-admins"]
  isAdmin := true
  sessionId := literalText "i"
  expiresAt := 28810

/-- The text of the state is what is written. -/
theorem write_adaPage :
  (statePayload adaLibrary adaSettings adaPage (literalText "/services/goblin-directory/") []).sortKeys.write
      Json.escapeAscii = adaState
  := by
  rw [sortKeys_statePayload]
  decide +kernel

/-- The time of the state is read back. -/
theorem float_adaPage :
  adaLibrary.float (.float (adaLibrary.repr (adaPage.issuedAt + adaSettings.stateTtlSeconds)))
    = .ok (.finite (adaPage.issuedAt + adaSettings.stateTtlSeconds))
  := by simp [adaLibrary, adaPage, adaSettings]

/-- The cookie with the state is set. -/
theorem encodeSignedJson_adaPage :
  encodeSignedJson adaLibrary.toCookieLibrary adaSettings.toDirectoryUiSettings
      (statePayload adaLibrary adaSettings adaPage (literalText "/services/goblin-directory/") [])
    = .ok adaCookie
  := by
  have hdumps : adaLibrary.dumps
      (statePayload adaLibrary adaSettings adaPage (literalText "/services/goblin-directory/") [])
      = .ok adaState := congrArg Except.ok write_adaPage
  rw [encodeSignedJson, hdumps]
  decide +kernel

/-- The parameters of the redirect. -/
theorem urlencoded_ada :
  urlencoded
      [(literalText "client_id", adaSettings.clientId), (literalText "redirect_uri", adaSettings.callbackUrl),
        (literalText "response_type", literalText "code"), (literalText "state", adaPage.drawn)]
    = .ok (literalText ("client_id=service-goblin-directory"
        ++ "&redirect_uri=%2Fservices%2Fgoblin-directory%2Foauth_callback&response_type=code&state=s"))
  := by decide +kernel

/-- The browser is sent to the Hub. -/
theorem oauthRedirect_ada :
  oauthRedirect adaLibrary adaSettings adaPage (literalText "/services/goblin-directory/") []
    = .ok (.redirect
      (adaSettings.hubBaseUrl.rdropWhile (· = 0x2F) ++ literalText "/api/oauth2/authorize" ++ 0x3F ::
        literalText ("client_id=service-goblin-directory"
          ++ "&redirect_uri=%2Fservices%2Fgoblin-directory%2Foauth_callback&response_type=code&state=s"))
      [.set "goblin_directory_oauth_state" adaCookie 600 adaSettings.normalizedPrefix])
  := by
  rw [oauthRedirect, urlencoded_ada, encodeSignedJson_adaPage]
  rfl

/-- The state of another login is not accepted. -/
theorem otherState_refused :
  acceptCallback adaLibrary adaSettings adaCallback (literalText "c") (literalText "x")
    ≠ .ok (adaSession, literalText "/services/goblin-directory/")
  := by
  intro haccept
  have hstate := (acceptCallback_redirect adaLibrary adaSettings adaPage adaCallback
    (literalText "/services/goblin-directory/") [] (literalText "c") (literalText "x") adaCookie _ _ adaSession
    (literalText "/services/goblin-directory/") (by simp [literalText, ofChars]) oauthRedirect_ada
    (List.mem_singleton_self _) rfl rfl (by rw [write_adaPage, sortKeys_statePayload]; rfl)
    float_adaPage).mp haccept
  exact absurd hstate.1 (by simp [adaPage, literalText, ofChars])

/-- The cookie is taken back in time. -/
theorem checkOauthState_ada :
  checkOauthState adaLibrary adaSettings (some adaCookie) (literalText "s") 10
    = .ok [(literalText "expires_at", .float sixHundred),
        (literalText "next", .str (literalText "/services/goblin-directory/")),
        (literalText "state", .str (literalText "s"))]
  := by
  apply (checkOauthState_redirect encodeSignedJson_adaPage rfl _ float_adaPage (literalText "s") 10).mpr
  · refine ⟨rfl, ?_, ?_⟩
    · norm_num [adaPage, adaSettings]
    · rw [sortKeys_statePayload]
      rfl
  · rw [write_adaPage, sortKeys_statePayload]
    rfl

/-- The callback creates the session. -/
theorem acceptCallback_ada :
  acceptCallback adaLibrary adaSettings adaCallback (literalText "c") (literalText "s")
    = .ok (adaSession, literalText "/services/goblin-directory/")
  := by
  have hlogin : loginOf adaSettings adaHub (literalText "c") = .ok adaSession.toHubLogin := by
    decide +kernel
  apply Except.bind_eq_ok.mpr
  refine ⟨_, checkOauthState_ada, ?_⟩
  apply Except.bind_eq_ok.mpr
  use adaSession.toHubLogin, hlogin
  decide +kernel

end GoblinKing.DirectoryUi
