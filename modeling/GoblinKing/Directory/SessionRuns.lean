import GoblinKing.Directory.Logins
import GoblinKing.Library.Since
import Mathlib.Data.Finset.Order

/-!
# Runs of the directory service

The store of the sessions forgets lazily: a session that has expired stays in memory until a request asks
for it or a login cleans up. As long as the clock does not go back, no browser can tell this store from a
ledger that forgets nothing but sessions that are logged out. So a request that needs a session is answered
exactly to the browser that has the signed identifier of a session which a callback has created, and which
has neither been replaced, nor logged out, nor expired.
-/

namespace GoblinKing.DirectoryUi

open Utf8 Url Table

/-! ### The ledger -/

/-- The sessions that have been created and not been deleted, by their identifiers. -/
abbrev SessionLedger := List CodePoint → Option DirectoryUiSession

/-- The ledger as a store of sessions, which compares the time and forgets nothing by itself. -/
def sessionLedger : SessionStoreOps SessionLedger where
  create ledger _ session := Function.update ledger session.sessionId (some session)
  get ledger now sessionId :=
    ((ledger sessionId).filter (fun session => decide (now < session.expiresAt)), ledger)
  delete ledger sessionId := Function.update ledger sessionId none

/-- When a request uses the store. -/
def UiRequest.touchedAt (request : UiRequest) : ℚ :=
  match request.call with
  | .callback _ _ => request.sweptAt
  | .page _ _ _ | .logout | .session _ => request.checkedAt

/-- The clock does not go back from one request to the next one. -/
def Ordered (requests : List UiRequest) : Prop :=
  requests.Pairwise (fun request later => request.touchedAt ≤ later.touchedAt)

variable {library : UiLibrary} {settings : UiSettings} {request : UiRequest} {requests : List UiRequest}
  {sessions : Sessions} {ledger : SessionLedger} {horizon : ℚ}

/-- What is got from the store is what the ledger has. -/
theorem get_standsFor (h : StandsFor DirectoryUiSession.expiresAt sessions horizon ledger) {now : ℚ}
    (hnow : horizon ≤ now) (sessionId : List CodePoint) :
  (sessions.get now sessionId).1 = (sessionLedger.get ledger now sessionId).1 ∧
    StandsFor DirectoryUiSession.expiresAt (sessions.get now sessionId).2 now ledger
  := by
  have hfresh := h.fresh? hnow sessionId
  unfold Sessions.get
  cases hfind : sessions.find? sessionId with
  | none =>
      rw [Table.fresh?, hfind] at hfresh
      exact ⟨hfresh, h.mono hnow⟩
  | some session =>
      rw [Table.fresh?, hfind, Option.filter_some] at hfresh
      dsimp only
      by_cases hexpired : session.expiresAt ≤ now
      · rw [if_pos hexpired]
        rw [if_neg (by simpa using hexpired)] at hfresh
        exact ⟨hfresh, h.drop_expired hnow hfind hexpired⟩
      · rw [if_neg hexpired]
        rw [if_pos (by simpa using hexpired)] at hfresh
        exact ⟨hfresh, h.mono hnow⟩

/-- The session of a request is the same in the store and in the ledger. -/
theorem optionalSession_standsFor
    (h : StandsFor DirectoryUiSession.expiresAt sessions horizon ledger)
    (hnow : horizon ≤ request.checkedAt) :
  (optionalSession library settings directoryUiSessionStore request sessions).1
      = (optionalSession library settings sessionLedger request ledger).1 ∧
    (optionalSession library settings sessionLedger request ledger).2 = ledger ∧
    StandsFor DirectoryUiSession.expiresAt
      (optionalSession library settings directoryUiSessionStore request sessions).2
      request.checkedAt ledger
  := by
  unfold optionalSession
  rcases decodeSignedValue library.toCookieLibrary settings.toDirectoryUiSettings
      (request.cookies settings.sessionCookieName) with error | (_ | sessionId)
  · exact ⟨rfl, rfl, h.mono hnow⟩
  · exact ⟨rfl, rfl, h.mono hnow⟩
  · obtain ⟨hsame, hstands⟩ := get_standsFor h hnow sessionId
    dsimp only
    by_cases hnil : sessionId = []
    · rw [if_pos hnil, if_pos hnil]
      exact ⟨rfl, rfl, h.mono hnow⟩
    · rw [if_neg hnil, if_neg hnil]
      exact ⟨congrArg Except.ok hsame, rfl, hstands⟩

/-- A request is answered alike by the store and by the ledger. -/
theorem serve_standsFor (h : StandsFor DirectoryUiSession.expiresAt sessions horizon ledger)
    (hnow : horizon ≤ request.touchedAt) :
  (serve library settings directoryUiSessionStore request sessions).1
      = (serve library settings sessionLedger request ledger).1 ∧
    StandsFor DirectoryUiSession.expiresAt
      (serve library settings directoryUiSessionStore request sessions).2 request.touchedAt
      (serve library settings sessionLedger request ledger).2
  := by
  unfold serve
  unfold UiRequest.touchedAt at hnow ⊢
  cases hcall : request.call with
  | callback code state =>
      rw [hcall] at hnow
      dsimp only at hnow ⊢
      cases acceptCallback library settings request code state with
      | error error => exact ⟨rfl, h.mono hnow⟩
      | ok accepted => exact ⟨rfl, (h.sweep hnow).upsert accepted.1⟩
  | logout =>
      rw [hcall] at hnow
      dsimp only at hnow ⊢
      rcases decodeSignedValue library.toCookieLibrary settings.toDirectoryUiSettings
          (request.cookies settings.sessionCookieName) with error | (_ | sessionId)
      · exact ⟨rfl, h.mono hnow⟩
      · exact ⟨rfl, h.mono hnow⟩
      · dsimp only
        by_cases hnil : sessionId = []
        · rw [if_pos hnil, if_pos hnil]
          exact ⟨rfl, h.mono hnow⟩
        · rw [if_neg hnil, if_neg hnil]
          exact ⟨rfl, (h.mono hnow).drop sessionId⟩
  | page path query file =>
      rw [hcall] at hnow
      have hsession := @optionalSession_standsFor library settings request sessions ledger horizon h hnow
      dsimp only
      revert hsession
      rcases optionalSession library settings directoryUiSessionStore request sessions with ⟨found, _⟩
      rcases optionalSession library settings sessionLedger request ledger with ⟨_, _⟩
      rintro ⟨rfl, rfl, hstands⟩
      rcases found with error | (_ | session)
      · exact ⟨rfl, hstands⟩
      · exact ⟨rfl, hstands⟩
      · exact ⟨rfl, hstands⟩
  | session call =>
      rw [hcall] at hnow
      have hsession := @optionalSession_standsFor library settings request sessions ledger horizon h hnow
      dsimp only
      revert hsession
      rcases optionalSession library settings directoryUiSessionStore request sessions with ⟨found, _⟩
      rcases optionalSession library settings sessionLedger request ledger with ⟨_, _⟩
      rintro ⟨rfl, rfl, hstands⟩
      rcases found with error | (_ | session)
      · exact ⟨rfl, hstands⟩
      · exact ⟨rfl, hstands⟩
      · exact ⟨rfl, hstands⟩

/-- The replies to a first request and to the others. -/
theorem serveAll_cons {σ : Type} (store : SessionStoreOps σ) (request : UiRequest)
    (requests : List UiRequest) (sessions : σ) :
  serveAll library settings store (request :: requests) sessions
    = ((serve library settings store request sessions).1
        :: (serveAll library settings store requests (serve library settings store request sessions).2).1,
      (serveAll library settings store requests (serve library settings store request sessions).2).2)
  := rfl

/-- Requests are answered alike by the store and by the ledger, as long as the clock does not go back. -/
theorem serveAll_standsFor (h : StandsFor DirectoryUiSession.expiresAt sessions horizon ledger)
    (hnow : ∀ request ∈ requests, horizon ≤ request.touchedAt) (hordered : Ordered requests) :
  (serveAll library settings directoryUiSessionStore requests sessions).1
      = (serveAll library settings sessionLedger requests ledger).1 ∧
    ∀ now, horizon ≤ now → (∀ request ∈ requests, request.touchedAt ≤ now) →
      StandsFor DirectoryUiSession.expiresAt
        (serveAll library settings directoryUiSessionStore requests sessions).2 now
        (serveAll library settings sessionLedger requests ledger).2
  := by
  induction requests generalizing sessions ledger horizon with
  | nil => exact ⟨rfl, fun now hle _ => h.mono hle⟩
  | cons request requests ih =>
      obtain ⟨hlater, hordered⟩ := List.pairwise_cons.mp hordered
      have hfirst := hnow request List.mem_cons_self
      obtain ⟨hreply, hstands⟩ := @serve_standsFor library settings request sessions ledger horizon h hfirst
      obtain ⟨hreplies, hrest⟩ := ih hstands hlater hordered
      rw [serveAll_cons, serveAll_cons]
      constructor
      · rw [hreply, hreplies]
      · intro now _ htouched
        apply hrest now
        · exact htouched request List.mem_cons_self
        · intro other hother
          exact htouched other (List.mem_cons_of_mem _ hother)

/-- From the start, the sessions in memory are those of the ledger, except for some that have expired. -/
theorem serveAll_empty (library : UiLibrary) (settings : UiSettings) (hordered : Ordered requests) :
  (serveAll library settings directoryUiSessionStore requests Table.empty).1
      = (serveAll library settings sessionLedger requests (fun _ => none)).1 ∧
    ∀ now, (∀ request ∈ requests, request.touchedAt ≤ now) →
      StandsFor DirectoryUiSession.expiresAt
        (serveAll library settings directoryUiSessionStore requests Table.empty).2 now
        (serveAll library settings sessionLedger requests (fun _ => none)).2
  := by
  cases requests with
  | nil => exact ⟨rfl, fun now _ => standsFor_empty now⟩
  | cons request requests =>
      have hfirst : ∀ other ∈ request :: requests, request.touchedAt ≤ other.touchedAt := by
        rw [List.forall_mem_cons]
        exact ⟨le_rfl, (List.pairwise_cons.mp hordered).1⟩
      obtain ⟨hreplies, hstands⟩ := serveAll_standsFor (standsFor_empty _) hfirst hordered
      use hreplies
      intro now htouched
      exact hstands now (htouched request List.mem_cons_self) htouched

/-! ### Sessions of a run -/

/-- A request creates a session. -/
def Creates (library : UiLibrary) (settings : UiSettings) (request : UiRequest)
    (session : DirectoryUiSession) : Prop :=
  ∃ code state location, request.call = .callback code state ∧
    acceptCallback library settings request code state = .ok (session, location)

/-- The session cookie of a request is the signed identifier of a session. -/
def Bears (library : UiLibrary) (settings : UiSettings) (request : UiRequest)
    (sessionId : List CodePoint) : Prop :=
  IsSigned library.toCookieLibrary settings.toDirectoryUiSettings
    (request.cookies settings.sessionCookieName) sessionId ∧ sessionId ≠ []

/-- A request logs a session out. -/
def LogsOut (library : UiLibrary) (settings : UiSettings) (request : UiRequest)
    (sessionId : List CodePoint) : Prop :=
  request.call = .logout ∧ Bears library settings request sessionId

/-- A session is replaced or logged out. -/
def Ends (library : UiLibrary) (settings : UiSettings) (sessionId : List CodePoint)
    (request : UiRequest) : Prop :=
  LogsOut library settings request sessionId ∨
    ∃ replacement, Creates library settings request replacement ∧ replacement.sessionId = sessionId

/-- A session has been created, and since then neither replaced nor logged out. -/
def LoggedIn (library : UiLibrary) (settings : UiSettings) (requests : List UiRequest)
    (session : DirectoryUiSession) : Prop :=
  Since (fun _ request => Creates library settings request session)
    (Ends library settings session.sessionId) requests

/-- The identifier that is decoded of the session cookie, if there is one. -/
theorem decodeSignedValue_eq_some_iff {sessionId : List CodePoint} :
  (decodeSignedValue library.toCookieLibrary settings.toDirectoryUiSettings
      (request.cookies settings.sessionCookieName) = .ok (some sessionId) ∧ sessionId ≠ []) ↔
    Bears library settings request sessionId
  := by
  constructor
  · rintro ⟨hdecoded, hne⟩
    exact ⟨(decodeSignedValue_eq_ok hdecoded).2 sessionId rfl, hne⟩
  · rintro ⟨hsigned, hne⟩
    exact ⟨decodeSignedValue_of_isSigned hsigned, hne⟩

/-- The session cookie is looked at without a change of the ledger. -/
theorem optionalSession_ledger :
  (optionalSession library settings sessionLedger request ledger).2 = ledger
  := by
  unfold optionalSession
  rcases decodeSignedValue library.toCookieLibrary settings.toDirectoryUiSettings
      (request.cookies settings.sessionCookieName) with error | (_ | sessionId)
  · rfl
  · rfl
  · dsimp only
    split <;> rfl

/-- A request that is neither a callback nor a logout leaves the ledger as it is. -/
theorem serve_ledger_of_reads (hcallback : ∀ code state, request.call ≠ .callback code state)
    (hlogout : request.call ≠ .logout) :
  (serve library settings sessionLedger request ledger).2 = ledger
  := by
  have hledger := @optionalSession_ledger library settings request ledger
  unfold serve
  cases hcall : request.call with
  | callback code state => exact absurd hcall (hcallback code state)
  | logout => exact absurd hcall hlogout
  | page path query file =>
      dsimp only
      revert hledger
      rcases optionalSession library settings sessionLedger request ledger with ⟨found, _⟩
      rintro rfl
      rcases found with error | (_ | session) <;> rfl
  | session call =>
      dsimp only
      revert hledger
      rcases optionalSession library settings sessionLedger request ledger with ⟨found, _⟩
      rintro rfl
      rcases found with error | (_ | session) <;> rfl

/-- What a request writes into the ledger. -/
theorem serve_ledger {sessionId : List CodePoint} {session : DirectoryUiSession} :
  (serve library settings sessionLedger request ledger).2 sessionId = some session ↔
    (Creates library settings request session ∧ session.sessionId = sessionId) ∨
      (ledger sessionId = some session ∧ ¬ Ends library settings sessionId request)
  := by
  by_cases hcallback : ∃ code state, request.call = .callback code state
  · obtain ⟨code, state, hcall⟩ := hcallback
    have hlogout : ¬ LogsOut library settings request sessionId := by
      rintro ⟨hlogout, -⟩
      rw [hcall] at hlogout
      cases hlogout
    have hcreates : ∀ other, Creates library settings request other ↔
        ∃ location, acceptCallback library settings request code state = .ok (other, location) := by
      intro other
      simp [Creates, hcall]
    simp only [Ends, or_iff_right hlogout, serve, hcall, hcreates]
    cases haccept : acceptCallback library settings request code state with
    | error error => simp
    | ok accepted =>
        obtain ⟨created, location⟩ := accepted
        by_cases hid : created.sessionId = sessionId
        · subst hid
          have hfound : (sessionLedger.create ledger request.sweptAt created) created.sessionId
              = some created := Function.update_self ..
          simp only [hfound]
          grind
        · have hfound : (sessionLedger.create ledger request.sweptAt created) sessionId
              = ledger sessionId := Function.update_of_ne (Ne.symm hid) ..
          simp only [hfound]
          grind
  · have hcreates : ∀ other, ¬ Creates library settings request other := by
      rintro other ⟨code, state, location, hcall, -⟩
      exact hcallback ⟨code, state, hcall⟩
    have hends : Ends library settings sessionId request ↔ LogsOut library settings request sessionId := by
      simp [Ends, hcreates]
    rw [hends]
    by_cases hlogout : request.call = .logout
    · have hlogs : LogsOut library settings request sessionId ↔
          Bears library settings request sessionId := and_iff_right hlogout
      rw [hlogs, ← decodeSignedValue_eq_some_iff]
      simp only [serve, hlogout, hcreates]
      rcases decodeSignedValue library.toCookieLibrary settings.toDirectoryUiSettings
          (request.cookies settings.sessionCookieName) with error | (_ | loggedOut)
      · simp
      · simp
      · by_cases hnil : loggedOut = []
        · subst hnil
          simp
        · simp only [if_neg hnil, sessionLedger]
          by_cases hid : loggedOut = sessionId
          · subst hid
            simp [hnil]
          · simp [Function.update_of_ne (Ne.symm hid), hid]
    · have hreads := @serve_ledger_of_reads library settings request ledger
        (fun code state hcall => hcallback ⟨code, state, hcall⟩) hlogout
      rw [hreads]
      simp [hcreates, LogsOut, hlogout]

/-- The states after one more request. -/
theorem serveAll_concat {σ : Type} (store : SessionStoreOps σ) (requests : List UiRequest)
    (request : UiRequest) (sessions : σ) :
  (serveAll library settings store (requests ++ [request]) sessions).2
    = (serve library settings store request
        (serveAll library settings store requests sessions).2).2
  := by
  induction requests generalizing sessions with
  | nil => rfl
  | cons first requests ih =>
      rw [List.cons_append, serveAll_cons, serveAll_cons, ih]

/-- The ledger has the sessions that are logged in. -/
theorem serveAll_ledger {session : DirectoryUiSession} :
  (serveAll library settings sessionLedger requests (fun _ => none)).2 session.sessionId = some session ↔
    LoggedIn library settings requests session
  := by
  apply iff_since (P := fun requests => (serveAll library settings sessionLedger requests
    (fun _ => none)).2 session.sessionId = some session)
  · simp [serveAll]
  · intro requests request
    rw [serveAll_concat, serve_ledger, and_iff_left rfl]

/-- The ledger has a session under its own identifier. -/
theorem sessionId_of_ledger {sessionId : List CodePoint} {session : DirectoryUiSession}
    (h : (serveAll library settings sessionLedger requests (fun _ => none)).2 sessionId = some session) :
  session.sessionId = sessionId
  := by
  induction requests using List.reverseRecOn with
  | nil => cases h
  | append_singleton requests request ih =>
      rw [serveAll_concat, serve_ledger] at h
      rcases h with ⟨-, hid⟩ | ⟨hledger, -⟩
      · exact hid
      · exact ih hledger

/-- A request that needs a session has one exactly when it bears the identifier of a session in the ledger
that has not expired. -/
theorem serve_ledger_session {call : SessionCall} (hcall : request.call = .session call)
    {reply : UiReply} :
  (serve library settings sessionLedger request ledger).1 = .ok reply ↔
    ∃ sessionId session, Bears library settings request sessionId ∧ ledger sessionId = some session ∧
      request.checkedAt < session.expiresAt ∧ call.answer library settings session = .ok reply
  := by
  simp only [← decodeSignedValue_eq_some_iff]
  unfold serve optionalSession
  rw [hcall]
  dsimp only
  rcases decodeSignedValue library.toCookieLibrary settings.toDirectoryUiSettings
      (request.cookies settings.sessionCookieName) with error | (_ | sessionId)
  · simp
  · simp
  · by_cases hnil : sessionId = []
    · subst hnil
      simp
    · dsimp only
      rw [if_neg hnil]
      cases hfind : ledger sessionId with
      | none => simp [sessionLedger, hfind]
      | some session =>
          by_cases htime : request.checkedAt < session.expiresAt
          · simp only [sessionLedger, hfind, Option.filter_some, htime, decide_true, if_true]
            grind
          · simp only [sessionLedger, hfind, Option.filter_some, htime, decide_false]
            grind

/-- After a callback the memory has no other session that had expired at the clean-up. -/
theorem lt_expiresAt_of_creates {session row : DirectoryUiSession}
    (hcreates : Creates library settings request session)
    (hrow : row ∈ (serve library settings directoryUiSessionStore request sessions).2.rows)
    (hne : row ≠ session) :
  request.sweptAt < row.expiresAt
  := by
  obtain ⟨code, state, location, hcall, haccept⟩ := hcreates
  simp only [serve, hcall, haccept] at hrow
  rcases mem_upsert.mp hrow with rfl | ⟨hkept, -⟩
  · exact absurd rfl hne
  · exact lt_of_mem_sweep hkept

/-- As long as the clock does not go back, the service answers every run of requests like the ledger does.
Its memory has sessions that are logged in only, and after a callback none of the others had expired. -/
theorem serveAll_replies (library : UiLibrary) (settings : UiSettings) (requests : List UiRequest)
    (hordered : Ordered requests) :
  (serveAll library settings directoryUiSessionStore requests Table.empty).1
      = (serveAll library settings sessionLedger requests (fun _ => none)).1 ∧
    (∀ row ∈ (serveAll library settings directoryUiSessionStore requests Table.empty).2.rows,
      LoggedIn library settings requests row) ∧
    ∀ before request session, requests = before ++ [request] →
      Creates library settings request session →
      ∀ row ∈ (serveAll library settings directoryUiSessionStore requests Table.empty).2.rows,
        row ≠ session → request.sweptAt < row.expiresAt
  := by
  obtain ⟨hreplies, hstands⟩ := serveAll_empty library settings hordered
  use hreplies
  constructor
  · intro row hrow
    obtain ⟨now, hnow⟩ := (requests.map UiRequest.touchedAt).toFinset.exists_le
    have hstate := hstands now (fun request hrequest =>
      hnow _ (List.mem_toFinset.mpr (List.mem_map_of_mem hrequest)))
    exact serveAll_ledger.mp (hstate.find? (find?_of_mem hrow))
  · rintro before request session rfl hcreates row hrow hne
    rw [serveAll_concat] at hrow
    exact lt_expiresAt_of_creates hcreates hrow hne

/-- The browser asks for its user. -/
def adaMe : UiRequest where
  call := .session .me
  cookies name :=
    if name = "goblin_directory_session" then
      some (literalText "i.4e231a3520026aa32cdfeb83909830944bdd11748b1df5ed4a31abe8e132c95e")
    else
      none
  hub _ := .raised
  drawn := []
  checkedAt := 20
  sweptAt := 20
  issuedAt := 20

theorem ordered_ada :
  Ordered [adaPage, adaCallback, adaMe]
  := by
  simp [Ordered, UiRequest.touchedAt, adaPage, adaCallback, adaMe]
  norm_num

/-- A page, a callback and a request. -/
theorem adaReplies :
  (serveAll adaLibrary adaSettings directoryUiSessionStore [adaPage, adaCallback, adaMe] Table.empty).1
    = (serveAll adaLibrary adaSettings sessionLedger [adaPage, adaCallback, adaMe] (fun _ => none)).1
  := (serveAll_replies adaLibrary adaSettings [adaPage, adaCallback, adaMe] ordered_ada).1

/-- In a run whose clock does not go back, a request that needs a session is answered exactly when it bears
the signed identifier of a session that is logged in and has not expired, and then with that session. -/
theorem answered_iff (library : UiLibrary) (settings : UiSettings) (requests : List UiRequest)
    (request : UiRequest) (call : SessionCall) (reply : UiReply)
    (hordered : Ordered (requests ++ [request])) (hcall : request.call = .session call) :
  (serve library settings directoryUiSessionStore request
      (serveAll library settings directoryUiSessionStore requests Table.empty).2).1 = .ok reply ↔
    ∃ session, LoggedIn library settings requests session ∧
      Bears library settings request session.sessionId ∧
      request.checkedAt < session.expiresAt ∧ call.answer library settings session = .ok reply
  := by
  obtain ⟨hbefore, -, hlast⟩ := List.pairwise_append.mp hordered
  obtain ⟨-, hstands⟩ := serveAll_empty library settings hbefore
  have hstate := hstands request.touchedAt
    (fun earlier hearlier => hlast earlier hearlier request (List.mem_singleton_self request))
  obtain ⟨hreply, -⟩ := @serve_standsFor library settings request _ _ _ hstate le_rfl
  rw [hreply, serve_ledger_session hcall]
  constructor
  · rintro ⟨sessionId, session, hbears, hledger, htime, hanswer⟩
    obtain rfl := sessionId_of_ledger hledger
    exact ⟨session, serveAll_ledger.mp hledger, hbears, htime, hanswer⟩
  · rintro ⟨session, hlogged, hbears, htime, hanswer⟩
    exact ⟨session.sessionId, session, hbears, serveAll_ledger.mpr hlogged, htime, hanswer⟩

/-- A user that has logged in is answered. -/
theorem adaMe_answered :
  (serve adaLibrary adaSettings directoryUiSessionStore adaMe
      (serveAll adaLibrary adaSettings directoryUiSessionStore [adaPage, adaCallback] Table.empty).2).1
    = .ok (.user (DirectoryUi.me adaSettings adaSession))
  := by
  apply (answered_iff adaLibrary adaSettings [adaPage, adaCallback] adaMe .me _ ordered_ada rfl).mpr
  refine ⟨adaSession, ⟨[adaPage], adaCallback, [], rfl, ?_, by simp⟩, ⟨⟨?_, ?_⟩, ?_⟩, ?_, rfl⟩
  · exact ⟨literalText "c", literalText "s", _, rfl, acceptCallback_ada⟩
  · decide +kernel
  · decide +kernel
  · decide +kernel
  · norm_num [adaMe, adaSession]

end GoblinKing.DirectoryUi
