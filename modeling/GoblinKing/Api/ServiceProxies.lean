import GoblinKing.Library.Except
import GoblinKing.Library.Urls
import GoblinKing.Runtime.Results

/-!
# Service proxies

A request for a registered service is forwarded to a URL that is built from the base URL of the
service, the path that the client asks for and a query. WebSocket connections and HTTP requests have a
builder of their own: the one joins the path to the parsed path of the base URL, the other one to its
text. Selectors and credentials are removed from the query of a WebSocket connection.
-/

namespace GoblinKing.ServiceProxies

open Utf8 Url

/-- The functions of the standard library about network locations and letters. -/
structure ProxyLibrary where
  /-- whether `urlsplit` takes a network location: its brackets match, and its normal form has no
  delimiters -/
  validNetloc : List CodePoint → Bool
  /-- what `urlsplit` raises about a network location -/
  invalidNetloc : List CodePoint → Raised
  /-- `str.lower` -/
  lower : List CodePoint → List CodePoint

variable (library : ProxyLibrary)

/-- `urllib.parse.urlsplit` -/
def urlsplit (url : List CodePoint) : Except Raised Parts :=
  match split library.validNetloc url with
  | some parts => .ok parts
  | none => .error (library.invalidNetloc url)

/-- The host of a network location, up to the letters' case. -/
def hostname (netloc : List CodePoint) : List CodePoint :=
  let hostinfo := netloc.rtakeWhile (· ≠ 0x40)
  if 0x5B ∈ hostinfo then
    (partition 0x5D (partition 0x5B hostinfo).2).1
  else
    (partition 0x3A hostinfo).1

/-- `urllib.parse.quote` -/
def quoted (safe text : List CodePoint) : Except Raised (List CodePoint) :=
  if Encodable text then
    .ok (quote safe text)
  else
    .error ⟨.valueError, "'utf-8' codec can't encode character: surrogates not allowed"⟩

/-- `urllib.parse.quote_plus` -/
def quotedPlus (text : List CodePoint) : Except Raised (List CodePoint) :=
  if Encodable text then
    .ok (quotePlus text)
  else
    .error ⟨.valueError, "'utf-8' codec can't encode character: surrogates not allowed"⟩

/-- The scheme of a WebSocket URL for the scheme of a base URL. -/
def webSocketScheme (scheme : List CodePoint) : Option (List CodePoint) :=
  if scheme = ofChars "http".toList then some (ofChars "ws".toList)
  else if scheme = ofChars "https".toList then some (ofChars "wss".toList)
  else if scheme = ofChars "ws".toList then some (ofChars "ws".toList)
  else if scheme = ofChars "wss".toList then some (ofChars "wss".toList)
  else none

/-- The path of a WebSocket URL. -/
def targetPath (basePath encodedPath : List CodePoint) : List CodePoint :=
  if encodedPath ≠ [] then basePath ++ 0x2F :: encodedPath
  else if basePath ≠ [] then basePath
  else [0x2F]

/-- Build a ws/wss URL beneath an operator-registered HTTP service origin. -/
def serviceWebsocketUrl (baseUrl path query : List CodePoint) : Except Raised (List CodePoint) := do
  let parsed ← urlsplit library baseUrl
  match webSocketScheme parsed.scheme with
  | none => .error ⟨.valueError, "managed service base_url must use http, https, ws, or wss"⟩
  | some scheme =>
      if hostname parsed.netloc = [] then
        .error ⟨.valueError, "managed service base_url must use http, https, ws, or wss"⟩
      else if 0x40 ∈ parsed.netloc then
        .error ⟨.valueError, "managed service base_url must not contain credentials"⟩
      else if parsed.query ≠ [] ∨ parsed.fragment ≠ [] then
        .error ⟨.valueError, "managed service base_url must not contain a query or fragment"⟩
      else do
        let encodedPath ← quoted [0x2F] path
        let basePath := parsed.path.rdropWhile (· = 0x2F)
        .ok (unsplit ⟨scheme, parsed.netloc, targetPath basePath encodedPath, query, []⟩)

/-- Build a URL under the registered service base URL. -/
def serviceProxyUrl (baseUrl path query : List CodePoint) : Except Raised (List CodePoint) := do
  let encodedPath ← quoted [0x2F] path
  let base := baseUrl.rdropWhile (· = 0x2F)
  let target := if encodedPath ≠ [] then base ++ 0x2F :: encodedPath else base
  .ok (if query ≠ [] then target ++ 0x3F :: query else target)

/-- `urllib.parse.urlencode` of pairs of texts -/
def urlencoded (pairs : List (List CodePoint × List CodePoint)) : Except Raised (List CodePoint) := do
  let texts ← pairs.mapM (fun pair => do
    let key ← quotedPlus pair.1
    let value ← quotedPlus pair.2
    .ok (key ++ 0x3D :: value))
  .ok ([0x26].intercalate texts)

/-- Remove control-plane selectors and credentials before upstream forwarding. -/
def filteredQueryString (rawQuery : List CodePoint) (excluded : List (List CodePoint)) :
    Except Raised (List CodePoint) :=
  let excludedKeys := excluded.map library.lower
  urlencoded ((parseQsl rawQuery).filter (fun pair => library.lower pair.1 ∉ excludedKeys))

/-! ### Queries -/

theorem quotedPlus_eq_ok {text encoded : List CodePoint} :
  quotedPlus text = .ok encoded ↔ Encodable text ∧ quotePlus text = encoded
  := by
  unfold quotedPlus
  split_ifs with h
  · simp [h]
  · simp [h]

theorem urlencoded_eq_ok {pairs : List (List CodePoint × List CodePoint)} {encoded : List CodePoint}
    (h : urlencoded pairs = .ok encoded) :
  (∀ pair ∈ pairs, Encodable pair.1 ∧ Encodable pair.2) ∧ encoded = urlencode pairs
  := by
  obtain ⟨texts, htexts, hencoded⟩ := Except.bind_eq_ok.mp h
  cases hencoded
  have hpairs : (∀ pair ∈ pairs, Encodable pair.1 ∧ Encodable pair.2)
      ∧ texts = pairs.map encodePair := by
    have hforall := Except.mapM_eq_ok.mp htexts
    clear htexts h
    induction hforall with
    | nil => simp
    | @cons pair text pairs texts hfirst _ ih =>
      obtain ⟨key, hkey, hfirst⟩ := Except.bind_eq_ok.mp hfirst
      obtain ⟨value, hvalue, hfirst⟩ := Except.bind_eq_ok.mp hfirst
      obtain ⟨hkeyEncodable, rfl⟩ := quotedPlus_eq_ok.mp hkey
      obtain ⟨hvalueEncodable, rfl⟩ := quotedPlus_eq_ok.mp hvalue
      rw [List.forall_mem_cons, List.map_cons, ← ih.2, ← Except.ok.inj hfirst]
      exact ⟨⟨⟨hkeyEncodable, hvalueEncodable⟩, ih.1⟩, rfl⟩
  use hpairs.1
  rw [hpairs.2, urlencode]

/-- The pairs of a forwarded query are those of the query whose keys are not excluded. -/
theorem parseQsl_filteredQueryString {rawQuery forwarded : List CodePoint}
    {excluded : List (List CodePoint)}
    (h : filteredQueryString library rawQuery excluded = .ok forwarded) :
  parseQsl forwarded
    = (parseQsl rawQuery).filter (fun pair => library.lower pair.1 ∉ excluded.map library.lower)
  := by
  obtain ⟨hencodable, rfl⟩ := urlencoded_eq_ok h
  exact parseQsl_urlencode hencodable

/-! ### Base URLs -/

/-- A URL has the network location of a registered URL, and its path is beneath that of the registered
one. -/
def StaysUnder (registered : Parts) (url : List CodePoint) : Prop :=
  ∃ parts, urlsplit library url = .ok parts ∧ parts.netloc = registered.netloc
    ∧ Beneath registered.path parts.path

/-- What is checked of a base URL, where it has been split. -/
structure Accepted (baseUrl : List CodePoint) (registered : Parts) : Prop where
  valid : library.validNetloc registered.netloc = true
  scheme : ∃ scheme, webSocketScheme registered.scheme = some scheme
  located : ∃ marks, Located baseUrl registered.scheme registered.netloc (registered.path ++ marks)
    ∧ ∀ c ∈ marks, IsMark c
  absolute : ∀ c ∈ registered.path.head?, c = 0x2F
  plain : ∀ c ∈ registered.path, ¬ IsMark c ∧ ¬ IsRemoved c

/-- The path that is asked for behind a base path. -/
def requestedPath (registered : Parts) (path : List CodePoint) : List CodePoint :=
  targetPath (registered.path.rdropWhile (· = 0x2F)) (quote [0x2F] path)

theorem webSocketScheme_eq_some {scheme webSocket : List CodePoint}
    (h : webSocketScheme scheme = some webSocket) :
  scheme ≠ [] ∧ isScheme webSocket = true ∧ webSocket.map lowerChar = webSocket
  := by
  unfold webSocketScheme at h
  split_ifs at h with h1 h2 h3 h4
  all_goals
    obtain rfl := Option.some.inj h
    subst scheme
    decide

theorem hostname_nil :
  hostname [] = []
  := rfl

variable {library} {baseUrl path query : List CodePoint} {registered : Parts}

theorem urlsplit_eq_ok {url : List CodePoint} {parts : Parts} :
  urlsplit library url = .ok parts ↔ split library.validNetloc url = some parts
  := by
  unfold urlsplit
  cases split library.validNetloc url <;> simp

theorem quoted_eq_ok {safe text encoded : List CodePoint} :
  quoted safe text = .ok encoded ↔ Encodable text ∧ quote safe text = encoded
  := by
  unfold quoted
  split_ifs with h
  · simp [h]
  · simp [h]

/-- A URL is built for every path with an encoding, where the base URL is accepted. -/
theorem serviceWebsocketUrl_eq_ok {url : List CodePoint}
    (hbase : urlsplit library baseUrl = .ok registered) :
  serviceWebsocketUrl library baseUrl path query = .ok url
    ↔ ∃ scheme, webSocketScheme registered.scheme = some scheme ∧ hostname registered.netloc ≠ []
      ∧ 0x40 ∉ registered.netloc ∧ registered.query = [] ∧ registered.fragment = []
      ∧ Encodable path
      ∧ unsplit ⟨scheme, registered.netloc, requestedPath registered path, query, []⟩ = url
  := by
  rw [serviceWebsocketUrl, hbase, Except.ok_bind]
  cases hscheme : webSocketScheme registered.scheme with
  | none => simp
  | some scheme =>
    dsimp only
    split_ifs with hhost huser hquery
    · simp [hhost]
    · simp [huser]
    · simp only [Option.some.injEq, exists_eq_left', false_iff]
      tauto
    · rw [Except.bind_eq_ok]
      simp only [not_or, ne_eq, not_not] at hquery
      simp only [quoted_eq_ok, Except.ok.injEq, Option.some.injEq, exists_eq_left']
      constructor
      · rintro ⟨encoded, ⟨hencodable, rfl⟩, hurl⟩
        exact ⟨hhost, huser, hquery.1, hquery.2, hencodable, hurl⟩
      · rintro ⟨-, -, -, -, hencodable, hurl⟩
        exact ⟨_, ⟨hencodable, rfl⟩, hurl⟩

theorem accepted_of_serviceWebsocketUrl (hbase : urlsplit library baseUrl = .ok registered)
    {url : List CodePoint} (h : serviceWebsocketUrl library baseUrl path query = .ok url) :
  Accepted library baseUrl registered
  := by
  obtain ⟨scheme, hscheme, hhost, -, hquery, hfragment, -⟩ := (serviceWebsocketUrl_eq_ok hbase).mp h
  have hnetloc : registered.netloc ≠ [] := by
    intro hnil
    rw [hnil] at hhost
    exact hhost hostname_nil
  obtain ⟨hvalid, rest, hlocated, hparts⟩ := exists_located (urlsplit_eq_ok.mp hbase)
    (webSocketScheme_eq_some hscheme).1 hnetloc
  have hrest : ∃ marks, rest = registered.path ++ marks ∧ ∀ c ∈ marks, IsMark c := by
    rw [hparts] at hquery hfragment ⊢
    exact exists_marks hquery hfragment
  obtain ⟨marks, hrest, hmarks⟩ := hrest
  constructor
  · exact hvalid
  · use scheme
  · use marks
    rw [← hrest]
    exact ⟨hlocated, hmarks⟩
  · rw [hparts]
    exact hlocated.head?_path
  · intro c hc
    constructor
    · rw [hparts, path_partsOf] at hc
      simpa using List.mem_takeWhile_imp hc
    · apply hlocated.not_isRemoved
      rw [hrest]
      exact List.mem_append_right _ (List.mem_append_left _ hc)

/-- An encoded path has no delimiters of queries and fragments. -/
theorem plain_quote_slash (path : List CodePoint) :
  ∀ c ∈ quote [0x2F] path, ¬ IsMark c ∧ ¬ IsRemoved c
  := by
  apply plain_quote
  intro c hc
  obtain rfl := List.mem_singleton.mp hc
  decide

theorem percentDecode_quote_slash (path : List CodePoint) :
  percentDecode (quote [0x2F] path) = bytes path
  := by
  have hdecode : percentDecode (quote [0x2F] path ++ []) = bytes path ++ percentDecode [] :=
    percentDecode_quote (by decide) path []
  rw [List.append_nil] at hdecode
  rw [hdecode]
  exact List.append_nil _

/-! ### WebSocket connections -/

theorem Accepted.absolute_requestedPath (h : Accepted library baseUrl registered)
    (path : List CodePoint) :
  ∀ c ∈ (requestedPath registered path).head?, c = 0x2F
  := by
  have hbase : ∀ c ∈ (registered.path.rdropWhile (· = 0x2F)).head?, c = 0x2F :=
    head?_rdropWhile h.absolute
  intro c hc
  unfold requestedPath targetPath at hc
  split_ifs at hc
  · cases hcase : registered.path.rdropWhile (· = 0x2F) with
    | nil =>
      rw [hcase] at hc
      cases hc
      rfl
    | cons d front =>
      rw [hcase] at hc hbase
      exact hbase c hc
  · exact hbase c hc
  · cases hc
    rfl

theorem Accepted.plain_requestedPath (h : Accepted library baseUrl registered)
    (path : List CodePoint) :
  ∀ c ∈ requestedPath registered path, ¬ IsMark c ∧ ¬ IsRemoved c
  := by
  have hslash : ¬ IsMark 0x2F ∧ ¬ IsRemoved 0x2F := by decide
  have hbase : ∀ c ∈ registered.path.rdropWhile (· = 0x2F), ¬ IsMark c ∧ ¬ IsRemoved c := by
    intro c hc
    exact h.plain c ((registered.path.rdropWhile_prefix _).subset hc)
  intro c hc
  unfold requestedPath targetPath at hc
  split_ifs at hc
  · rw [List.mem_append, List.mem_cons] at hc
    rcases hc with hc | rfl | hc
    · exact hbase c hc
    · exact hslash
    · exact plain_quote_slash path c hc
  · exact hbase c hc
  · obtain rfl := List.mem_singleton.mp hc
    exact hslash

/-- The path behind the base path is beneath it as far as it stays in the directory. -/
theorem Accepted.beneath_requestedPath_iff (h : Accepted library baseUrl registered)
    (path : List CodePoint) :
  Beneath registered.path (requestedPath registered path)
    ↔ StaysIn (directoryOf registered.path) ((bytes path).splitOn 0x2F)
  := by
  by_cases hnil : path = []
  · subst hnil
    apply iff_of_true
    · unfold requestedPath targetPath
      rw [if_neg (by simp [quote])]
      split_ifs with hbase
      · exact beneath_rdropWhile registered.path
      · have hroot : Beneath registered.path (registered.path.rdropWhile (· = 0x2F) ++ [0x2F]) :=
          beneath_append_slashes h.absolute (fun c hc => List.mem_singleton.mp hc)
        rwa [not_not.mp hbase] at hroot
    · apply staysIn_of_climb
      rfl
  · have hne : quote [0x2F] path ≠ [] := fun hquote => hnil (quote_eq_nil.mp hquote)
    rw [requestedPath, targetPath, if_pos hne, beneath_append_iff h.absolute, percentDecode_quote_slash]

/-- A URL with the network location of the base URL is beneath it when its path is. -/
theorem Accepted.staysUnder_iff (h : Accepted library baseUrl registered)
    {url scheme rest : List CodePoint} (hlocated : Located url scheme registered.netloc rest) :
  StaysUnder library registered url
    ↔ Beneath registered.path (partsOf scheme registered.netloc rest).path
  := by
  unfold StaysUnder
  simp only [urlsplit_eq_ok, hlocated.split h.valid, Option.some.injEq, exists_eq_left']
  exact and_iff_right rfl

/-- A WebSocket URL stays beneath the base URL as far as its path stays in the directory. -/
theorem Accepted.staysUnder_unsplit_iff (h : Accepted library baseUrl registered)
    {scheme : List CodePoint} (hscheme : webSocketScheme registered.scheme = some scheme)
    (path query : List CodePoint) :
  StaysUnder library registered
      (unsplit ⟨scheme, registered.netloc, requestedPath registered path, query, []⟩)
    ↔ StaysIn (directoryOf registered.path) ((bytes path).splitOn 0x2F)
  := by
  obtain ⟨-, hvalid, hlower⟩ := webSocketScheme_eq_some hscheme
  obtain ⟨marks, hlocated, -⟩ := h.located
  have hunbroken : ∀ c ∈ registered.netloc, ¬ IsRemoved c := by
    intro c hc
    exact hlocated.not_isRemoved c (List.mem_append_left _ hc)
  have hplain := h.plain_requestedPath path
  have hkept : unbroken (requestedPath registered path) = requestedPath registered path :=
    unbroken_eq_self (fun c hc => (hplain c hc).2)
  have htarget : Located
      (unsplit ⟨scheme, registered.netloc, requestedPath registered path, query, []⟩) scheme
      registered.netloc (unbroken (requestedPath registered path
        ++ (if query = [] then [] else 0x3F :: query))) :=
    located_unsplit hvalid hlower hlocated.nonempty hlocated.undelimited hunbroken
      (h.absolute_requestedPath path) rfl
  rw [unbroken_append, hkept] at htarget
  rw [h.staysUnder_iff htarget, path_partsOf_unbroken hplain, h.beneath_requestedPath_iff]
  intro c hc
  split_ifs at hc
  · cases hc
  · cases hc
    exact Or.inl rfl

/-! ### HTTP requests -/

/-- The slashes at the end of a base URL that stay there, because something that is removed from a
URL stands behind them. -/
def keptSlashes (baseUrl : List CodePoint) : List CodePoint :=
  (clean (baseUrl.rdropWhile (· = 0x2F))).rtakeWhile (· = 0x2F)

/-- What is behind the base URL in the URL of an HTTP request, in front of the query. -/
def pathEnding (path : List CodePoint) : List CodePoint :=
  if quote [0x2F] path ≠ [] then 0x2F :: quote [0x2F] path else []

/-- The query of an HTTP request with its mark. -/
def queryEnding (query : List CodePoint) : List CodePoint :=
  if query ≠ [] then 0x3F :: query else []

theorem serviceProxyUrl_eq_ok {url : List CodePoint} :
  serviceProxyUrl baseUrl path query = .ok url
    ↔ Encodable path
      ∧ baseUrl.rdropWhile (· = 0x2F) ++ (pathEnding path ++ queryEnding query) = url
  := by
  unfold serviceProxyUrl
  rw [Except.bind_eq_ok]
  simp only [quoted_eq_ok, and_assoc, exists_and_left, exists_eq_left', Except.ok.injEq, pathEnding,
    queryEnding]
  split_ifs <;> simp

theorem plain_pathEnding (path : List CodePoint) :
  ∀ c ∈ pathEnding path, ¬ IsMark c ∧ ¬ IsRemoved c
  := by
  intro c hc
  unfold pathEnding at hc
  split_ifs at hc
  · rcases List.mem_cons.mp hc with rfl | hc
    · decide
    · exact plain_quote_slash path c hc
  · cases hc

theorem head?_queryEnding (query : List CodePoint) :
  ∀ c ∈ (queryEnding query).head?, IsMark c
  := by
  intro c hc
  unfold queryEnding at hc
  split_ifs at hc
  · cases hc
    exact Or.inl rfl
  · cases hc

theorem unbroken_ending (path query : List CodePoint) :
  unbroken (pathEnding path ++ queryEnding query) = pathEnding path ++ unbroken (queryEnding query)
  := by
  rw [unbroken_append, unbroken_eq_self (fun c hc => (plain_pathEnding path c hc).2)]

/-- Behind a network location, the ending begins with a delimiter. -/
theorem head?_ending (path query : List CodePoint) :
  ∀ c ∈ (unbroken (pathEnding path ++ queryEnding query)).head?, IsDelimiter c
  := by
  intro c hc
  rw [unbroken_ending] at hc
  unfold pathEnding at hc
  split_ifs at hc
  · cases hc
    exact Or.inl rfl
  · unfold queryEnding at hc
    split_ifs at hc
    · rw [List.nil_append, unbroken, List.filter_cons_of_pos (by decide)] at hc
      cases hc
      exact Or.inr (Or.inl rfl)
    · cases hc

/-- A URL has slashes at its end. -/
theorem exists_slashes (url : List CodePoint) :
  ∃ n, url = url.rdropWhile (· = 0x2F) ++ List.replicate n 0x2F
  := by
  have hslashes : ∀ c ∈ url.rtakeWhile (· = 0x2F), c = 0x2F := by
    intro c hc
    simpa using List.mem_rtakeWhile_imp hc
  use (url.rtakeWhile (· = 0x2F)).length
  rw [← List.eq_replicate_of_mem hslashes]
  exact List.rdropWhile_append_rtakeWhile.symm

/-- Behind its slashes, a base URL has the network location and the path, which goes on with what is
asked for. -/
theorem Accepted.exists_located_ending (h : Accepted library baseUrl registered)
    (ending : List CodePoint) (hending : ∀ c ∈ (unbroken ending).head?, IsDelimiter c) :
  ∃ marks n rest, (∀ c ∈ marks, IsMark c) ∧ registered.path ++ marks = rest ++ List.replicate n 0x2F
    ∧ Located (baseUrl.rdropWhile (· = 0x2F)) registered.scheme registered.netloc rest
    ∧ Located (baseUrl.rdropWhile (· = 0x2F) ++ ending) registered.scheme registered.netloc
      (rest ++ unbroken ending)
  := by
  obtain ⟨marks, hlocated, hmarks⟩ := h.located
  obtain ⟨n, hbase⟩ := exists_slashes baseUrl
  rw [hbase] at hlocated
  obtain ⟨rest, hrest, htarget⟩ := hlocated.extend ending hending
  obtain ⟨rest', hrest', hfront⟩ := hlocated.extend [] (by simp [unbroken])
  obtain rfl : rest' = rest := by
    rw [hrest] at hrest'
    exact (List.append_cancel_right hrest').symm
  rw [show unbroken [] = [] from rfl, List.append_nil, List.append_nil] at hfront
  use marks, n, rest', hmarks, hrest

/-- The slashes that stay behind a base URL are those of its path. -/
theorem keptSlashes_of_located {scheme netloc rest : List CodePoint}
    (h : Located (baseUrl.rdropWhile (· = 0x2F)) scheme netloc rest) :
  keptSlashes baseUrl = rest.rtakeWhile (· = 0x2F)
  := by
  obtain ⟨front, -, -, hclean⟩ := h.front
  have hslashes : ∀ c ∈ rest.rtakeWhile (· = 0x2F), decide (c = 0x2F) = true := by
    intro c hc
    simpa using List.mem_rtakeWhile_imp hc
  have hfront : ∀ c ∈ (front ++ 0x3A :: 0x2F :: 0x2F :: (netloc
      ++ rest.rdropWhile (· = 0x2F))).getLast?, decide (c = 0x2F) = false := by
    intro c hc
    rw [decide_eq_false_iff_not]
    have hassoc : front ++ 0x3A :: 0x2F :: 0x2F :: (netloc ++ rest.rdropWhile (· = 0x2F))
        = ((front ++ [0x3A, 0x2F, 0x2F]) ++ netloc) ++ rest.rdropWhile (· = 0x2F) := by simp
    by_cases hnil : rest.rdropWhile (· = 0x2F) = []
    · rw [hassoc, hnil, List.append_nil, List.getLast?_append_of_ne_nil _ h.nonempty] at hc
      rintro rfl
      exact h.undelimited _ (List.mem_of_getLast? hc) (Or.inl rfl)
    · rw [hassoc, List.getLast?_append_of_ne_nil _ hnil, List.getLast?_eq_some_getLast hnil] at hc
      have hlast := getLast?_rdropWhile rest c (by rw [List.getLast?_eq_some_getLast hnil]; exact hc)
      simpa using hlast
  have happend : clean (baseUrl.rdropWhile (· = 0x2F))
      = (front ++ 0x3A :: 0x2F :: 0x2F :: (netloc ++ rest.rdropWhile (· = 0x2F)))
        ++ rest.rtakeWhile (· = 0x2F) := by
    rw [hclean, List.append_assoc, List.cons_append, List.cons_append, List.cons_append,
      List.append_assoc, List.rdropWhile_append_rtakeWhile]
  rw [keptSlashes, happend]
  exact (rsplit_append hfront hslashes).2

theorem slashes_append_slash {slashes : List CodePoint} (h : ∀ c ∈ slashes, c = 0x2F)
    (text : List CodePoint) :
  slashes ++ 0x2F :: text = 0x2F :: (slashes ++ text)
  := by
  induction slashes with
  | nil => rfl
  | cons c slashes ih =>
    rw [List.forall_mem_cons] at h
    rw [List.cons_append, ih h.2, h.1, List.cons_append]

/-- Behind a path of which slashes stay, what is asked for is beneath the base path as far as it stays
in the directory. -/
theorem Accepted.beneath_pathEnding_iff (h : Accepted library baseUrl registered)
    {rest slashes : List CodePoint} (hslashes : ∀ c ∈ slashes, c = 0x2F)
    (hrest : rest = registered.path.rdropWhile (· = 0x2F) ++ slashes) (path : List CodePoint) :
  Beneath registered.path (rest ++ pathEnding path)
    ↔ StaysIn (directoryOf registered.path) ((bytes (slashes ++ path)).splitOn 0x2F)
  := by
  have hquote : quote [0x2F] slashes = slashes := by
    apply quote_of_forall_mem
    intro c hc
    rw [hslashes c hc]
    exact List.mem_singleton_self _
  by_cases hnil : path = []
  · subst hnil
    apply iff_of_true
    · have hbeneath := beneath_append_slashes h.absolute hslashes
      rw [← hrest] at hbeneath
      rw [pathEnding, if_neg (by simp [quote]), List.append_nil]
      exact hbeneath
    · apply staysIn_of_climb
      apply climb_fst_eq_zero
      rw [List.append_nil, ← percentDecode_quote_slash, hquote]
      exact up_notMem_splitOn hslashes
  · have hne : quote [0x2F] path ≠ [] := fun hquote => hnil (quote_eq_nil.mp hquote)
    have happend : rest ++ pathEnding path
        = registered.path.rdropWhile (· = 0x2F) ++ 0x2F :: quote [0x2F] (slashes ++ path) := by
      rw [pathEnding, if_pos hne, hrest, List.append_assoc, slashes_append_slash hslashes,
        quote_append, hquote]
    rw [happend, beneath_append_iff h.absolute, percentDecode_quote_slash]

/-- An HTTP request stays beneath the base URL as far as its path stays in the directory. It always
does where the base URL ends with the mark of an empty query or fragment, and keeps no slashes then. -/
theorem Accepted.staysUnder_append (h : Accepted library baseUrl registered)
    (path query : List CodePoint) :
  (keptSlashes baseUrl = [] ∧ StaysUnder library registered
        (baseUrl.rdropWhile (· = 0x2F) ++ (pathEnding path ++ queryEnding query)))
    ∨ (StaysUnder library registered
          (baseUrl.rdropWhile (· = 0x2F) ++ (pathEnding path ++ queryEnding query))
      ↔ StaysIn (directoryOf registered.path)
        ((bytes (keptSlashes baseUrl ++ path)).splitOn 0x2F))
  := by
  obtain ⟨marks, n, rest, hmarks, hpath, hfront, htarget⟩ :=
    h.exists_located_ending (pathEnding path ++ queryEnding query) (head?_ending path query)
  rw [h.staysUnder_iff htarget, unbroken_ending, keptSlashes_of_located hfront]
  by_cases hnil : marks = []
  · right
    subst hnil
    rw [List.append_nil] at hpath
    have hslashes : ∀ c ∈ rest.rtakeWhile (· = 0x2F), c = 0x2F := by
      intro c hc
      simpa using List.mem_rtakeWhile_imp hc
    have hbase : registered.path.rdropWhile (· = 0x2F) = rest.rdropWhile (· = 0x2F) := by
      have hback : ∀ c ∈ rest.rtakeWhile (· = 0x2F) ++ List.replicate n 0x2F,
          decide (c = 0x2F) = true := by
        intro c hc
        rw [decide_eq_true_eq]
        rcases List.mem_append.mp hc with hc | hc
        · exact hslashes c hc
        · exact List.eq_of_mem_replicate hc
      have hsplit := (rsplit_append (getLast?_rdropWhile rest) hback).1
      rwa [← List.append_assoc, List.rdropWhile_append_rtakeWhile, ← hpath] at hsplit
    have hrest : rest = registered.path.rdropWhile (· = 0x2F) ++ rest.rtakeWhile (· = 0x2F) := by
      rw [hbase, List.rdropWhile_append_rtakeWhile]
    have hplain : ∀ c ∈ rest ++ pathEnding path, ¬ IsMark c ∧ ¬ IsRemoved c := by
      intro c hc
      rcases List.mem_append.mp hc with hc | hc
      · apply h.plain
        rw [hpath]
        exact List.mem_append_left _ hc
      · exact plain_pathEnding path c hc
    rw [← List.append_assoc, path_partsOf_unbroken hplain (head?_queryEnding query)]
    exact h.beneath_pathEnding_iff hslashes hrest path
  · left
    have hlast : (registered.path ++ marks).getLast? ≠ some 0x2F := by
      rw [List.getLast?_append_of_ne_nil _ hnil, List.getLast?_eq_some_getLast hnil]
      intro hslash
      have hmark := hmarks _ (List.getLast_mem hnil)
      rw [Option.some.inj hslash] at hmark
      exact absurd hmark (by decide)
    obtain ⟨rest', hrest, hrest'⟩ :=
      exists_append_of_replicate ((List.append_nil _).trans hpath) hlast
    rw [(List.append_eq_nil_iff.mp hrest'.symm).1, List.append_nil] at hrest
    have hfirst : ∀ c ∈ (marks ++ (pathEnding path ++ unbroken (queryEnding query))).head?,
        IsMark c := by
      intro c hc
      cases marks with
      | nil => exact absurd rfl hnil
      | cons d marks =>
        cases hc
        exact hmarks c List.mem_cons_self
    constructor
    · have hsplit : (rest ++ []).rtakeWhile (· = 0x2F) = [] := by
        refine (rsplit_append ?_ ?_).2
        · intro c hc
          rw [decide_eq_false_iff_not]
          rintro rfl
          rw [hrest] at hc
          exact hlast hc
        · simp
      rwa [List.append_nil] at hsplit
    · rw [hrest, List.append_assoc, path_partsOf_append (fun c hc => (h.plain c hc).1) hfirst]
      exact beneath_self h.absolute

/-! ### Main results -/

/-- The requests for a registered service stay under its base URL, and the query that is forwarded has
all pairs except the excluded ones. -/
structure ProxiesHold (library : ProxyLibrary) (baseUrl : List CodePoint) (registered : Parts)
    (path query : List CodePoint) (excluded : List (List CodePoint)) : Prop where
  webSocket : ∀ url, serviceWebsocketUrl library baseUrl path query = .ok url →
    StaysUnder library registered url
  http : ∀ url, serviceProxyUrl baseUrl path query = .ok url → StaysUnder library registered url
  excludes : ∀ forwarded, filteredQueryString library query excluded = .ok forwarded →
    ∀ pair ∈ parseQsl forwarded, ∀ key ∈ excluded, library.lower pair.1 ≠ library.lower key
  keeps : ∀ forwarded, filteredQueryString library query excluded = .ok forwarded →
    parseQsl forwarded = (parseQsl query).filter (fun pair =>
      library.lower pair.1 ∉ excluded.map library.lower)

/-- The proxies hold for a path exactly when it has no encoding, so that no URL is built, or its dot
segments do not lead out of the directory of the base path: behind the base path, and behind the
slashes that an HTTP request leaves there. -/
theorem proxiesHold_iff (library : ProxyLibrary) (baseUrl : List CodePoint) (registered : Parts)
    (path query : List CodePoint) (excluded : List (List CodePoint))
    (hbase : urlsplit library baseUrl = .ok registered)
    (haccepts : (serviceWebsocketUrl library baseUrl [] []).isOk = true) :
  ProxiesHold library baseUrl registered path query excluded
    ↔ (Encodable path →
      StaysIn (directoryOf registered.path) ((bytes path).splitOn 0x2F)
        ∧ StaysIn (directoryOf registered.path)
          ((bytes (keptSlashes baseUrl ++ path)).splitOn 0x2F))
  := by
  obtain ⟨root, hroot⟩ := Except.isOk_eq_true.mp haccepts
  have haccepted := accepted_of_serviceWebsocketUrl hbase hroot
  obtain ⟨scheme, hscheme, hhost, huser, hquery, hfragment, -⟩ :=
    (serviceWebsocketUrl_eq_ok hbase).mp hroot
  have hhttp := haccepted.staysUnder_append path query
  constructor
  · intro h hencodable
    have hwebSocket := h.webSocket _ ((serviceWebsocketUrl_eq_ok hbase).mpr
      ⟨scheme, hscheme, hhost, huser, hquery, hfragment, hencodable, rfl⟩)
    rw [haccepted.staysUnder_unsplit_iff hscheme] at hwebSocket
    have hrequest := h.http _ (serviceProxyUrl_eq_ok.mpr ⟨hencodable, rfl⟩)
    use hwebSocket
    rcases hhttp with ⟨hkept, -⟩ | hiff
    · rwa [hkept]
    · exact hiff.mp hrequest
  · intro h
    constructor
    · intro url hurl
      obtain ⟨scheme, hscheme, -, -, -, -, hencodable, rfl⟩ :=
        (serviceWebsocketUrl_eq_ok hbase).mp hurl
      exact (haccepted.staysUnder_unsplit_iff hscheme path query).mpr (h hencodable).1
    · intro url hurl
      obtain ⟨hencodable, rfl⟩ := serviceProxyUrl_eq_ok.mp hurl
      rcases hhttp with ⟨-, hstays⟩ | hiff
      · exact hstays
      · exact hiff.mpr (h hencodable).2
    · intro forwarded hforwarded pair hpair key hkey hlower
      rw [parseQsl_filteredQueryString library hforwarded, List.mem_filter, decide_eq_true_eq] at hpair
      exact hpair.2 (List.mem_map.mpr ⟨key, hkey, hlower.symm⟩)
    · intro forwarded hforwarded
      exact parseQsl_filteredQueryString library hforwarded

/-- A library that takes every network location. -/
def plainLibrary : ProxyLibrary where
  validNetloc := fun _ => true
  invalidNetloc := fun _ => ⟨.valueError, "Invalid IPv6 URL"⟩
  lower := fun text => text.map lowerChar

/-- The base URL of a registered service. -/
def registeredUrl : List CodePoint :=
  ofChars "http://svc:8080/app".toList

/-- The parts of the base URL. -/
def registeredParts : Parts :=
  ⟨ofChars "http".toList, ofChars "svc:8080".toList, ofChars "/app".toList, [], []⟩

theorem proxiesHold_registered :
  ProxiesHold plainLibrary registeredUrl registeredParts (ofChars "v1/..".toList)
    (ofChars "token=x&n=1".toList) [ofChars "token".toList]
  := by
  refine (proxiesHold_iff plainLibrary registeredUrl registeredParts _ _ _ ?_ ?_).mpr ?_
  · decide +kernel
  · decide +kernel
  · intro _
    decide +kernel

/-- A path whose dot segments lead out of the base path is forwarded. -/
theorem dotSegments_escape :
  ¬ ProxiesHold plainLibrary registeredUrl registeredParts
    (ofChars "../admin".toList) [] []
  := by
  intro h
  obtain ⟨parts, hparts, -, hbeneath⟩ := h.http
    (registeredUrl ++ 0x2F :: ofChars "../admin".toList) (by decide +kernel)
  have hpath : parts = ⟨registeredParts.scheme, registeredParts.netloc,
      registeredParts.path ++ 0x2F :: ofChars "../admin".toList, [], []⟩ := by
    apply Except.ok.inj
    rw [← hparts]
    decide +kernel
  subst hpath
  exact absurd hbeneath (by decide +kernel)

end GoblinKing.ServiceProxies
