import GoblinKing.Library.Urls

/-!
# The proxy of the directory service

The directory service forwards requests of its pages to the API. The path of a request, which has been
decoded, is compared with the beginnings of a few paths; the URL is then put together from the base URL
of the API, the path and the query as texts.
-/

namespace GoblinKing.DirectoryUi

open Utf8 Url

/-- What the proxy reads of `DirectoryUISettings`. -/
structure ProxySettings where
  apiUrl : List CodePoint
  repositoryUrl : Option (List CodePoint)

/-- A response with an error. -/
structure HttpException where
  statusCode : ℕ
  detail : String
  deriving DecidableEq

/-- What the proxy reads of a request. -/
structure ProxyRequest where
  method : String
  path : List CodePoint
  query : List CodePoint
  body : List UInt8
  contentType : Option String

/-- A request that is sent to the API. -/
structure UpstreamRequest where
  url : List CodePoint
  data : Option (List UInt8)
  headers : List (String × String)
  method : String
  deriving DecidableEq

/-- `ALLOWED_PROXY_PATHS` -/
def allowedProxyPaths : List (List CodePoint) :=
  [ofChars "/directory/".toList, ofChars "/repository/".toList, ofChars "/jobs".toList,
    ofChars "/jobs/".toList, ofChars "/runs".toList, ofChars "/runs/".toList]

/-- Whether a path is one of the allowed paths or begins with one. -/
def proxyPathAllowed (path : List CodePoint) : Bool :=
  allowedProxyPaths.any (fun allowed =>
    let base := allowed.rdropWhile (· = 0x2F)
    path = base || (base ++ [0x2F]).isPrefixOf path)

/-- The path that the API knows: that of the repository for the directory. -/
def upstreamPath (path : List CodePoint) : List CodePoint :=
  if (ofChars "/directory/".toList).isPrefixOf path then
    ofChars "/repository/".toList ++ path.drop "/directory/".length
  else
    path

/-- The base URL for a path: the repository may have one of its own. -/
def targetBaseUrl (settings : ProxySettings) (path : List CodePoint) : List CodePoint :=
  match settings.repositoryUrl with
  | none => settings.apiUrl
  | some repositoryUrl =>
      if (ofChars "/repository/".toList).isPrefixOf path ∧ repositoryUrl ≠ [] then repositoryUrl
      else settings.apiUrl

/-- The request that is sent for a path. -/
def forwardRaw (settings : ProxySettings) (token : String) (method : String)
    (path query : List CodePoint) (body : Option (List UInt8)) (contentType : Option String) :
    UpstreamRequest :=
  let upstreamPath := upstreamPath path
  let baseUrl := targetBaseUrl settings upstreamPath
  let url := baseUrl.rdropWhile (· = 0x2F) ++ upstreamPath
  let url := if query ≠ [] then url ++ 0x3F :: query else url
  let headers := [("Accept", "application/json"), ("Authorization", "Bearer " ++ token)]
  let headers := match contentType with
    | none => headers
    | some contentType =>
        if contentType ≠ "" ∧ body.isSome then headers ++ [("Content-Type", contentType)]
        else headers
  ⟨url, body, headers, method⟩

/-- Forward a request with a session, whose token is given, to the API. -/
def proxyApi (settings : ProxySettings) (session : Option String) (request : ProxyRequest) :
    Except HttpException UpstreamRequest :=
  match session with
  | none => .error ⟨401, "directory UI login required"⟩
  | some token =>
      let apiPath := 0x2F :: request.path
      if proxyPathAllowed apiPath then
        let body := if request.body ≠ [] then some request.body else none
        .ok (forwardRaw settings token request.method apiPath request.query body
          request.contentType)
      else
        .error ⟨404, "directory UI path is not proxied"⟩

/-! ### What the API gets -/

/-- The segments of the paths that the API gets. -/
def IsProxied : List (List UInt8) → Prop
  | first :: rest =>
      first = bytes (ofChars "jobs".toList) ∨ first = bytes (ofChars "runs".toList)
        ∨ (first = bytes (ofChars "repository".toList) ∧ rest ≠ [])
  | [] => False

instance : DecidablePred IsProxied
  | _ :: _ => inferInstanceAs (Decidable (_ ∨ _))
  | [] => inferInstanceAs (Decidable False)

variable (validNetloc : List CodePoint → Bool)

/-- A base URL has a scheme and a network location, and no query and no fragment. -/
structure BaseUrl (base : List CodePoint) (parts : Parts) : Prop where
  split : split validNetloc (base.rdropWhile (· = 0x2F)) = some parts
  scheme : parts.scheme ≠ []
  netloc : parts.netloc ≠ []
  unmarked : ∀ c ∈ base, ¬ IsMark c

/-- A URL has the query of the client, and its path is one of the allowed paths behind the base path,
which is empty when the base URL is an origin. -/
def Forwards (base : Parts) (query url : List CodePoint) : Prop :=
  ∃ parts, split validNetloc url = some parts ∧ parts.query = query
    ∧ ∃ allowed, IsProxied allowed
      ∧ removeDots (segments (percentDecode parts.path))
        = descend [] (segments (percentDecode base.path)) ++ allowed

/-- The segments of a path as the API reads them: without tabs and line breaks, up to the mark of a
query or fragment, and with escape sequences decoded once more. -/
def readSegments (path : List CodePoint) : List (List UInt8) :=
  segments (percentDecode ((unbroken (upstreamPath path)).takeWhile (fun c => ¬ IsMark c)))

/-- A path behind a base path comes back to it by the names that it has left, and goes on with an
allowed path. -/
def ComesOut (base : Parts) (path : List (List UInt8)) : Prop :=
  let directory := descend [] (segments (percentDecode base.path))
  ∃ allowed, IsProxied allowed
    ∧ (climb path).2 ++ trailing path
      = directory.drop (directory.length - (climb path).1) ++ allowed

/-- A query is kept when nothing of it goes unread behind a path without marks, or when the path has
the same query itself and the query of the client goes unread or is empty. -/
def KeepsQuery (path query : List CodePoint) : Prop :=
  ((∀ c ∈ unbroken (upstreamPath path), ¬ IsMark c) ∧ IsPlainQuery query)
    ∨ (queryOf (unbroken (upstreamPath path)) = query
      ∧ (0x23 ∈ unbroken (upstreamPath path) ∨ query = []))

/-! ### How the URL is read -/

theorem exists_upstreamPath (path : List CodePoint) :
  ∃ rest, upstreamPath (0x2F :: path) = 0x2F :: rest
  := by
  unfold upstreamPath
  split_ifs
  · use ofChars "repository/".toList ++ (0x2F :: path).drop "/directory/".length
    rfl
  · use path

theorem unbroken_cons_slash (text : List CodePoint) :
  unbroken (0x2F :: text) = 0x2F :: unbroken text
  := List.filter_cons_of_pos (by decide)

/-- The query does not change the path. -/
theorem takeWhile_withQuery (path query : List CodePoint) :
  (unbroken (withQuery path query)).takeWhile (fun c => ¬ IsMark c)
    = (unbroken path).takeWhile (fun c => ¬ IsMark c)
  := by
  unfold withQuery
  split_ifs
  · have hmark : unbroken (0x3F :: query) = 0x3F :: unbroken query :=
      List.filter_cons_of_pos (by decide)
    rw [unbroken_append, hmark, List.takeWhile_append, List.takeWhile_cons_of_neg (by decide),
      List.append_nil]
    split_ifs with hlength
    · exact (List.IsPrefix.eq_of_length (List.takeWhile_prefix _) hlength).symm
    · rfl
  · rfl

theorem proxyApi_eq_ok {settings : ProxySettings} {session : Option String} {request : ProxyRequest}
    {upstream : UpstreamRequest} (h : proxyApi settings session request = .ok upstream) :
  upstream.url = (targetBaseUrl settings (upstreamPath (0x2F :: request.path))).rdropWhile (· = 0x2F)
    ++ withQuery (upstreamPath (0x2F :: request.path)) request.query
  := by
  unfold proxyApi at h
  cases session with
  | none => cases h
  | some token =>
    dsimp only at h
    by_cases hallowed : proxyPathAllowed (0x2F :: request.path) = true
    · rw [if_pos hallowed] at h
      rw [← withQuery_append, ← Except.ok.inj h]
      rfl
    · rw [if_neg hallowed] at h
      cases h

variable {validNetloc} {base : List CodePoint} {parts : Parts}

/-- Behind a base URL, a text with a slash in front has its path behind the base path, and its query. -/
theorem BaseUrl.split_append (h : BaseUrl validNetloc base parts) (text : List CodePoint) :
  ∃ joined, Url.split validNetloc (base.rdropWhile (· = 0x2F) ++ 0x2F :: text) = some joined
    ∧ joined.path
      = parts.path ++ (unbroken (0x2F :: text)).takeWhile (fun c => ¬ IsMark c)
    ∧ joined.query = queryOf (unbroken (0x2F :: text))
    ∧ ∀ c ∈ parts.path.head?, c = 0x2F
  := by
  obtain ⟨hvalid, rest, hlocated, hparts⟩ := exists_located h.split h.scheme h.netloc
  have hplain : ∀ c ∈ rest, ¬ IsMark c := by
    intro c hc
    obtain ⟨front, -, -, hclean⟩ := hlocated.front
    have hmem : c ∈ clean (base.rdropWhile (· = 0x2F)) := by
      rw [hclean]
      simp [hc]
    apply h.unmarked
    apply (base.rdropWhile_prefix _).subset
    exact List.dropWhile_subset _ (List.mem_of_mem_filter hmem)
  have hpath : parts.path = rest := by
    have happend : (partsOf parts.scheme parts.netloc (rest ++ [])).path = rest :=
      path_partsOf_append hplain (by simp) _ _
    rwa [List.append_nil, ← hparts] at happend
  have hslash : ∀ c ∈ (unbroken (0x2F :: text)).head?, IsDelimiter c := by
    intro c hc
    rw [unbroken_cons_slash] at hc
    cases hc
    exact Or.inl rfl
  have hbase : Located (base.rdropWhile (· = 0x2F) ++ List.replicate 0 0x2F) parts.scheme
      parts.netloc rest := by
    rwa [List.replicate_zero, List.append_nil]
  obtain ⟨rest', hrest, htarget⟩ := hbase.extend (0x2F :: text) hslash
  rw [List.replicate_zero, List.append_nil] at hrest
  subst hrest
  use partsOf parts.scheme parts.netloc (rest ++ unbroken (0x2F :: text)), htarget.split hvalid
  constructor
  · have hall : ∀ c ∈ rest, decide (¬ IsMark c) = true := by
      intro c hc
      rw [decide_eq_true_eq]
      exact hplain c hc
    rw [path_partsOf, List.takeWhile_append_of_pos hall, hpath]
  · constructor
    · rw [query_partsOf, queryOf_append_of_plain hplain]
    · have habsolute := hlocated.head?_path
      rwa [← hparts] at habsolute

/-- A forwarded request has the query of the client and an allowed path exactly when its decoded path
comes out in an allowed one, read as the API reads it, and its query is kept. -/
theorem forwards_iff (validNetloc : List CodePoint → Bool) (settings : ProxySettings)
    (session : Option String) (request : ProxyRequest) (upstream : UpstreamRequest) (base : Parts)
    (hbase : BaseUrl validNetloc
      (targetBaseUrl settings (upstreamPath (0x2F :: request.path))) base)
    (hforwarded : proxyApi settings session request = .ok upstream) :
  Forwards validNetloc base request.query upstream.url
    ↔ ComesOut base (readSegments (0x2F :: request.path))
      ∧ KeepsQuery (0x2F :: request.path) request.query
  := by
  obtain ⟨rest, hrest⟩ := exists_upstreamPath request.path
  have hcons : ∃ text, withQuery (upstreamPath (0x2F :: request.path)) request.query = 0x2F :: text := by
    rw [hrest]
    unfold withQuery
    split_ifs
    · exact ⟨_, rfl⟩
    · exact ⟨_, rfl⟩
  obtain ⟨text, htext⟩ := hcons
  obtain ⟨joined, hjoined, hpath, hquery, habsolute⟩ := hbase.split_append text
  rw [← htext] at hjoined hpath hquery
  rw [← proxyApi_eq_ok hforwarded] at hjoined
  rw [takeWhile_withQuery] at hpath
  have hsegments : segments (percentDecode joined.path)
      = segments (percentDecode base.path) ++ readSegments (0x2F :: request.path)
        ∧ readSegments (0x2F :: request.path) ≠ [] := by
    unfold readSegments
    rw [hpath, hrest, unbroken_cons_slash, List.takeWhile_cons_of_pos (by decide)]
    have hslash : ∀ text, percentDecode (0x2F :: text) = 0x2F :: percentDecode text :=
      percentDecode_append_slash []
    rw [segments_append_slash habsolute, hslash]
    exact ⟨rfl, List.splitOn_ne_nil _ _⟩
  unfold Forwards ComesOut KeepsQuery
  rw [hjoined, ← queryOf_withQuery_iff, ← hquery]
  simp only [Option.some.injEq, exists_eq_left', hsegments.1,
    removeDots_append_eq_iff _ _ hsegments.2]
  exact and_comm

/-- The settings of a deployment, whose API is at an origin. -/
def proxySettings : ProxySettings where
  apiUrl := ofChars "http://goblin-king-api:8000/".toList
  repositoryUrl := none

/-- The parts of the URL of the API. -/
def apiParts : Parts :=
  ⟨ofChars "http".toList, ofChars "goblin-king-api:8000".toList, [], [], []⟩

/-- A request without a body. -/
def requestOf (path query : String) : ProxyRequest where
  method := "GET"
  path := ofChars path.toList
  query := ofChars query.toList
  body := []
  contentType := none

/-- The request that is sent to the API. -/
def upstreamOf (url : String) : UpstreamRequest where
  url := ofChars url.toList
  data := none
  headers := [("Accept", "application/json"), ("Authorization", "Bearer token")]
  method := "GET"

theorem baseUrl_proxySettings :
  BaseUrl (fun _ => true) proxySettings.apiUrl apiParts
  := by
  have hall : proxySettings.apiUrl.all (fun c => ¬ IsMark c) = true := by decide +kernel
  constructor
  · decide +kernel
  · decide +kernel
  · decide +kernel
  · intro c hc
    simpa using List.all_eq_true.mp hall c hc

theorem forwards_entries :
  Forwards (fun _ => true) apiParts (ofChars "limit=20".toList)
    (upstreamOf "http://goblin-king-api:8000/repository/entries?limit=20").url
  := by
  refine (forwards_iff (fun _ => true) proxySettings (some "token")
    (requestOf "directory/entries" "limit=20") _ apiParts baseUrl_proxySettings ?_).mpr ?_
  · decide +kernel
  · constructor
    · use [bytes (ofChars "repository".toList), bytes (ofChars "entries".toList)]
      constructor
      · decide +kernel
      · decide +kernel
    · left
      have hall : (unbroken (upstreamPath
          (0x2F :: (requestOf "directory/entries" "limit=20").path))).all (fun c => ¬ IsMark c)
          = true := by decide +kernel
      constructor
      · intro c hc
        simpa using List.all_eq_true.mp hall c hc
      · decide +kernel

/-- A path with dot segments leaves the allowed paths. -/
theorem dotSegments_forwarded :
  proxyApi proxySettings (some "token") (requestOf "runs/../admin" "")
      = .ok (upstreamOf "http://goblin-king-api:8000/runs/../admin")
    ∧ ¬ Forwards (fun _ => true) apiParts []
      (upstreamOf "http://goblin-king-api:8000/runs/../admin").url
  := by
  constructor
  · decide +kernel
  · rintro ⟨parts, hparts, -, allowed, hallowed, hpath⟩
    have hjoined : split (fun _ => true)
        (upstreamOf "http://goblin-king-api:8000/runs/../admin").url
        = some { apiParts with path := ofChars "/runs/../admin".toList } := by decide +kernel
    obtain rfl := Option.some.inj (hparts.symm.trans hjoined)
    have hadmin : allowed = [bytes (ofChars "admin".toList)] := by
      rw [← List.nil_append allowed]
      refine hpath.symm.trans ?_
      decide +kernel
    subst hadmin
    exact absurd hallowed (by decide +kernel)

end GoblinKing.DirectoryUi
