import GoblinKing.Api.Artifacts
import GoblinKing.Kubernetes.RetainedCopies
import GoblinKing.Library.Urls
import Mathlib.Data.Bool.AllAny

/-!
# URIs of retained files

The forwarder of a result writes the URI of a retained file, and the API reads it. The forwarder
percent-encodes the root and the relative path once. The API decodes the path of the URI, and on POSIX
systems the conversion of the decoded text to a path decodes it once more.
-/

namespace GoblinKing

open Posix Url Utf8

/-! ### The standard library -/

/-- The code points of a text. -/
def codePoints (text : String) : List CodePoint :=
  ofChars text.toList

/-- The text of code points. -/
def ofCodePoints (text : List CodePoint) : String :=
  String.ofList (toChars text)

/-- `urllib.parse.unquote` -/
def unquoteText (text : String) : String :=
  ofCodePoints (unquote (codePoints text))

/-- The URL functions of the standard library on POSIX systems. -/
def posixUrlLibrary (validNetloc : List CodePoint → Bool) : UrlLibrary where
  urlsplit url :=
    match split validNetloc (codePoints url) with
    | some parts => .ok {
        netloc := ofCodePoints parts.netloc
        path := ofCodePoints parts.path
        query := ofCodePoints parts.query
        fragment := ofCodePoints parts.fragment }
    | none => .error "Invalid IPv6 URL"
  unquote := unquoteText
  -- there is no other form of paths than that of URLs
  url2pathname := unquoteText

/-- `_validate_absolute_posix` -/
def validateAbsolutePosix (value label : String) : Except Raised Unit :=
  if !(Path.parse value).absolute || (Path.parse value).parts.contains ".." then
    .error ⟨.valueError, label ++ " must be an absolute normalized path"⟩
  else
    .ok ()

/-! ### What is claimed -/

variable (host : RetentionHost) (validNetloc : List CodePoint → Bool)

/-- The names below the root that lead to a retained file. -/
def retainedNames (projectId : Option String) (runId : String) (index : ℕ) (name : String) :
    List String :=
  retainedDirectory host projectId runId ++ [storedName host index name]

/-- The URI of a retained file leads back to it: whatever is in the file tree of the API, whose
artifact root is the URI root, the path of the file is returned when there are no links on it. -/
def LeadsBack (uriRoot : String) (projectId : Option String) (runId : String) (index : ℕ)
    (name : String) : Prop :=
  ∀ (storage : ArtifactStorage) (mediaType : Option String) (mounted : Option Path),
    storage.root = (Path.parse uriRoot).parts →
    storage.tree.Unlinked [] (storage.root ++ retainedNames host projectId runId index name) →
    ∃ enough, ∀ steps, enough ≤ steps → ∃ names,
      artifactFilePath (posixUrlLibrary validNetloc) storage steps
          ⟨name, retainedUri uriRoot (retainedDirectory host projectId runId)
            (storedName host index name), mediaType⟩ mounted = .ok (some names)
        ∧ asPosix ⟨true, names⟩ = extraSlash uriRoot
          ++ asPosix ⟨true, storage.root ++ retainedNames host projectId runId index name⟩

/-! ### Texts and code points -/

theorem codePoints_ofCodePoints {text : List CodePoint} (h : Encodable text) :
  codePoints (ofCodePoints text) = text
  := by
  rw [codePoints, ofCodePoints, String.toList_ofList, ofChars_toChars h]

theorem unquoteText_ofCodePoints {text : List CodePoint} (h : Encodable text) :
  unquoteText (ofCodePoints text) = ofCodePoints (unquote text)
  := by
  rw [unquoteText, codePoints_ofCodePoints h]

theorem ofChars_append (text rest : List Char) :
  ofChars (text ++ rest) = ofChars text ++ ofChars rest
  := List.map_append

theorem mem_ofChars {c : Char} {text : List Char} :
  Fin.ofNat _ c.toNat ∈ ofChars text ↔ c ∈ text
  := by
  constructor
  · intro h
    obtain ⟨d, hd, heq⟩ := List.mem_map.mp h
    have hval := congrArg Fin.val heq
    rw [val_ofChar, val_ofChar] at hval
    rwa [← Char.toNat_inj.mp hval]
  · intro h
    exact List.mem_map_of_mem h

/-- The characters that are always kept are the same for texts and for code points. -/
theorem mem_unreserved_iff (c : Char) :
  c ∈ unreserved ↔ IsUnreserved (Fin.ofNat _ c.toNat)
  := by
  constructor
  · intro h
    have hall : unreserved.all (fun c => IsUnreserved (Fin.ofNat _ c.toNat)) = true := by decide
    simpa using List.all_eq_true.mp hall c h
  · intro h
    have hsmall : c.toNat < 128 := by
      have hvalues : ∀ n : CodePoint, n = 0x5F ∨ n = 0x2E ∨ n = 0x2D ∨ n = 0x7E → n.val < 128 := by
        rintro n (rfl | rfl | rfl | rfl) <;> decide
      have hother := hvalues (Fin.ofNat _ c.toNat)
      unfold IsUnreserved at h
      rw [val_ofChar] at h hother
      rcases h with h | h | h | h
      · omega
      · omega
      · omega
      · exact hother h
    have hall : ∀ n < 128, IsUnreserved (Fin.ofNat _ n) → Char.ofNat n ∈ unreserved := by
      decide +kernel
    have hmem := hall _ hsmall h
    rwa [Char.ofNat_toNat] at hmem

theorem ofChars_percentByte (byte : UInt8) :
  ofChars (GoblinKing.percentByte byte) = Url.percentByte byte
  := by
  have hdigit : ∀ n < 16, (Fin.ofNat _ ("0123456789ABCDEF".toList.getD n '0').toNat : CodePoint)
      = upperHexDigit n := by decide
  have hbyte := byte.toNat_lt
  simp only [GoblinKing.percentByte, Url.percentByte, ofChars, List.map_cons, List.map_nil]
  rw [hdigit _ (by omega), hdigit _ (by omega)]
  rfl

/-- Quoting a text is quoting its code points. -/
theorem ofChars_quote (safe text : List Char) :
  ofChars (GoblinKing.quote safe text) = Url.quote (ofChars safe) (ofChars text)
  := by
  have htext : ofChars text = text.map (fun c => Fin.ofNat _ c.toNat) := rfl
  rw [GoblinKing.quote, Url.quote, htext, List.flatMap_map, ofChars, List.map_flatMap]
  apply List.flatMap_congr
  intro c _
  by_cases hkept : c ∈ unreserved ∨ c ∈ safe
  · rw [if_pos hkept, if_pos (hkept.imp (mem_unreserved_iff c).mp mem_ofChars.mpr)]
    rfl
  · rw [if_neg hkept, if_neg (mt (Or.imp (mem_unreserved_iff c).mpr mem_ofChars.mp) hkept),
      encodeChar_ofChar, List.map_flatMap]
    apply List.flatMap_congr
    intro byte _
    exact ofChars_percentByte byte

/-! ### The URI of a retained file -/

/-- The text of a root without slashes at its end. -/
def rootText (uriRoot : String) : List Char :=
  if (Path.parse uriRoot).parts = [] then []
  else (extraSlash uriRoot).toList ++ slashed (Path.parse uriRoot).parts

theorem eq_slash_of_mem_extraSlash (uriRoot : String) :
  ∀ c ∈ (extraSlash uriRoot).toList, c = '/'
  := by
  intro c hc
  unfold extraSlash at hc
  split at hc
  · simpa using hc
  · simp at hc

theorem toList_asPosix (names : List String) :
  (asPosix ⟨true, names⟩).toList = if names = [] then ['/'] else slashed names
  := by
  rw [asPosix, if_neg (by simp), if_pos rfl, String.toList_append]
  split_ifs with hnil
  · subst hnil
    rfl
  · rw [slashed_eq_intercalate hnil]
    rfl

theorem toList_purePosixText {uriRoot : String} (h : (Path.parse uriRoot).absolute = true) :
  (purePosixText uriRoot).toList = (extraSlash uriRoot).toList
    ++ if (Path.parse uriRoot).parts = [] then ['/'] else slashed (Path.parse uriRoot).parts
  := by
  have hpath : Path.parse uriRoot = ⟨true, (Path.parse uriRoot).parts⟩ := by
    rw [← h]
  rw [purePosixText, String.toList_append, hpath, toList_asPosix]

/-- The encoding of a character that is no slash does not end with a slash. -/
theorem quote_singleton {safe : List Char} {c : Char} (hc : c ≠ '/') :
  ∃ front last, GoblinKing.quote safe [c] = front ++ [last] ∧ last ≠ '/'
  := by
  by_cases hkept : c ∈ unreserved ∨ c ∈ safe
  · use [], c
    simp [GoblinKing.quote, hkept, hc]
  · have hdigit : ∀ n < 16, "0123456789ABCDEF".toList.getD n '0' ≠ '/' := by decide
    obtain ⟨bytes, byte, hbytes⟩ : ∃ bytes byte, String.utf8EncodeChar c = bytes ++ [byte] := by
      use (String.utf8EncodeChar c).dropLast, (String.utf8EncodeChar c).getLast
        String.utf8EncodeChar_ne_nil
      exact (List.dropLast_append_getLast _).symm
    have hbyte := byte.toNat_lt
    use bytes.flatMap GoblinKing.percentByte
      ++ ['%', "0123456789ABCDEF".toList.getD (byte.toNat / 16) '0'],
      "0123456789ABCDEF".toList.getD (byte.toNat % 16) '0'
    constructor
    · simp [GoblinKing.quote, hkept, hbytes, GoblinKing.percentByte]
    · exact hdigit _ (by omega)

theorem stripSlashes_append_slash (text : List Char) :
  stripSlashes (text ++ ['/']) = stripSlashes text
  := by
  simp [stripSlashes]

theorem stripSlashes_append_of_ne {c : Char} (hc : c ≠ '/') (text : List Char) :
  stripSlashes (text ++ [c]) = text ++ [c]
  := by
  simp [stripSlashes, hc]

/-- The slashes at the end of a text are those of its encoding. -/
theorem stripSlashes_quote {safe : List Char} (hsafe : '/' ∈ safe) (text : List Char) :
  stripSlashes (GoblinKing.quote safe text) = GoblinKing.quote safe (stripSlashes text)
  := by
  induction text using List.reverseRecOn with
  | nil => rfl
  | append_singleton text c ih =>
    rw [quote_append]
    by_cases hc : c = '/'
    · have hslash : GoblinKing.quote safe [c] = ['/'] := by simp [GoblinKing.quote, hc, hsafe]
      rw [hslash, stripSlashes_append_slash, hc, stripSlashes_append_slash, ih]
    · obtain ⟨front, last, hquote, hlast⟩ :
          ∃ front last, GoblinKing.quote safe [c] = front ++ [last] ∧ last ≠ '/' :=
        quote_singleton hc
      rw [stripSlashes_append_of_ne hc, quote_append, hquote, ← List.append_assoc,
        stripSlashes_append_of_ne hlast]

theorem stripSlashes_of_forall_mem {text : List Char} (h : ∀ c ∈ text, c = '/') :
  stripSlashes text = []
  := by
  rw [stripSlashes, List.reverse_eq_nil_iff, List.dropWhile_eq_nil_iff]
  intro c hc
  simpa using h c (List.mem_reverse.mp hc)

/-- Names in a text have no slashes at their end. -/
theorem stripSlashes_append_slashed {names : List String} (hne : names ≠ [])
    (h : ∀ name ∈ names, IsPart name) (text : List Char) :
  stripSlashes (text ++ slashed names) = text ++ slashed names
  := by
  obtain ⟨front, last, rfl⟩ : ∃ front last, names = front ++ [last] := by
    use names.dropLast, names.getLast hne
    exact (List.dropLast_append_getLast hne).symm
  have hlast := h last (List.mem_append_right _ (List.mem_singleton_self _))
  have hchars : last.toList ≠ [] := by
    intro hnil
    exact hlast.2.1 (String.toList_eq_nil_iff.mp hnil)
  obtain ⟨chars, c, hc⟩ : ∃ chars c, last.toList = chars ++ [c] := by
    use last.toList.dropLast, last.toList.getLast hchars
    exact (List.dropLast_append_getLast hchars).symm
  have hslash : c ≠ '/' := by
    rintro rfl
    apply hlast.1
    rw [hc]
    exact List.mem_append_right _ (List.mem_singleton_self _)
  have hend : text ++ slashed (front ++ [last]) = (text ++ slashed front ++ '/' :: chars) ++ [c] := by
    rw [slashed_append]
    simp [slashed, hc]
  rw [hend, stripSlashes_append_of_ne hslash]

theorem isPart_of_mem_parts {uriRoot part : String} (h : part ∈ (Path.parse uriRoot).parts) :
  IsPart part
  := isPart_of_mem_textParts h

theorem stripSlashes_purePosixText {uriRoot : String} (h : (Path.parse uriRoot).absolute = true) :
  stripSlashes (purePosixText uriRoot).toList = rootText uriRoot
  := by
  rw [toList_purePosixText h, rootText]
  split_ifs with hnil
  · apply stripSlashes_of_forall_mem
    intro c hc
    rcases List.mem_append.mp hc with hc | hc
    · exact eq_slash_of_mem_extraSlash uriRoot c hc
    · exact List.mem_singleton.mp hc
  · exact stripSlashes_append_slashed hnil (fun part hpart => isPart_of_mem_parts hpart) _

theorem retainedUri_eq {uriRoot : String} (h : (Path.parse uriRoot).absolute = true)
    {directory : List String} (hne : directory ≠ []) (stored : String) :
  (retainedUri uriRoot directory stored).toList = "file://".toList
    ++ (GoblinKing.quote ['/', ':'] (rootText uriRoot)
      ++ GoblinKing.quote ['/'] (slashed (directory ++ [stored])))
  := by
  have habsolute : "file://".toList.isPrefixOf uriRoot.toList = false := by
    rw [← Bool.not_eq_true, List.isPrefixOf_iff_prefix]
    have hslash : "/".toList <+: uriRoot.toList := List.isPrefixOf_iff_prefix.mp h
    obtain ⟨rest, hrest⟩ := hslash
    rintro ⟨rest', hrest'⟩
    rw [← hrest] at hrest'
    cases hrest'
  have hrelative : slashed (directory ++ [stored])
      = '/' :: (("/".intercalate directory).toList ++ '/' :: stored.toList) := by
    rw [slashed_append, slashed_eq_intercalate hne]
    simp [slashed]
  have hslash : ∀ text, GoblinKing.quote ['/'] ('/' :: text) = '/' :: GoblinKing.quote ['/'] text := by
    intro text
    simp [GoblinKing.quote]
  rw [retainedUri, habsolute, if_neg (by simp), String.toList_ofList,
    stripSlashes_quote (by simp), stripSlashes_purePosixText h, hrelative, hslash,
    List.append_assoc]

/-! ### Reading the URI -/

/-- A URI of a file has its path behind the empty network location. -/
theorem split_fileUri {validNetloc : List CodePoint → Bool} {path : List CodePoint}
    (hplain : ∀ c ∈ path, ¬ IsMark c ∧ ¬ IsRemoved c) (hslash : ∃ rest, path = 0x2F :: rest) :
  split validNetloc (codePoints "file://" ++ path) = some ⟨codePoints "file", [], path, [], []⟩
  := by
  obtain ⟨rest, rfl⟩ := hslash
  have hclean : clean (codePoints "file://" ++ 0x2F :: rest)
      = codePoints "file" ++ 0x3A :: 0x2F :: 0x2F :: ([] ++ 0x2F :: rest) := by
    have hskipped : (codePoints "file://").dropWhile (fun c => IsControlOrSpace c) ≠ [] := by
      decide +kernel
    have hfile : clean (codePoints "file://") = codePoints "file" ++ [0x3A, 0x2F, 0x2F] := by
      decide +kernel
    rw [clean_append hskipped, hfile, unbroken_eq_self (fun c hc => (hplain c hc).2),
      List.append_assoc]
    rfl
  have hnetloc : splitNetloc (0x2F :: 0x2F :: ([] ++ 0x2F :: rest)) = ([], 0x2F :: rest) := by
    apply splitNetloc_append
    · simp
    · intro c hc
      cases hc
      exact Or.inl rfl
  have hscheme : splitScheme (codePoints "file" ++ 0x3A :: 0x2F :: 0x2F :: ([] ++ 0x2F :: rest))
      = (codePoints "file", 0x2F :: 0x2F :: ([] ++ 0x2F :: rest)) := by
    have hlower : (codePoints "file").map lowerChar = codePoints "file" := by decide +kernel
    rw [splitScheme_append (by decide +kernel), hlower]
  have hfragment : 0x23 ∉ 0x2F :: rest := fun hc => (hplain _ hc).1 (Or.inr rfl)
  have hquery : 0x3F ∉ 0x2F :: rest := fun hc => (hplain _ hc).1 (Or.inl rfl)
  rw [split, hclean, hscheme]
  dsimp only
  rw [hnetloc]
  simp only [partsOf, partition_of_notMem hfragment, partition_of_notMem hquery, true_or, if_true]

/-- An encoded path is decoded to its text, whatever its two parts keep. -/
theorem unquote_quote_append {safe safe' : List CodePoint} (hsafe : 0x25 ∉ safe ∧ Encodable safe)
    (hsafe' : 0x25 ∉ safe' ∧ Encodable safe') {text text' : List CodePoint} (htext : Encodable text)
    (htext' : Encodable text') :
  unquote (Url.quote safe text ++ Url.quote safe' text') = text ++ text'
  := by
  have hquoted : Encodable (Url.quote safe text ++ Url.quote safe' text') := by
    intro c hc
    rcases List.mem_append.mp hc with hc | hc
    · exact encodable_quote hsafe.2 text c hc
    · exact encodable_quote hsafe'.2 text' c hc
  have hboth : Encodable (text ++ text') := by
    intro c hc
    exact (List.mem_append.mp hc).elim (htext c) (htext' c)
  have hdecode := percentDecode_quote hsafe'.1 text' []
  rw [List.append_nil] at hdecode
  rw [unquote_eq hquoted, percentDecode_quote hsafe.1, hdecode, ← List.append_assoc, ← bytes_append]
  exact (congrArg decodeReplace (List.append_nil _)).trans (decodeReplace_bytes hboth)

/-- The text of a path that a retained file has. -/
def retainedText (uriRoot : String) (names : List String) : List Char :=
  rootText uriRoot ++ slashed names

theorem exists_retainedText (uriRoot : String) {names : List String} (hne : names ≠ []) :
  ∃ rest, retainedText uriRoot names = '/' :: rest
  := by
  have hslashed : ∀ {names : List String}, names ≠ [] → ∃ rest, slashed names = '/' :: rest := by
    intro names hne
    rw [slashed_eq_intercalate hne]
    exact ⟨_, rfl⟩
  unfold retainedText rootText
  split_ifs with hnil
  · exact hslashed hne
  · obtain ⟨rest, hrest⟩ := hslashed hnil
    rw [hrest, List.append_assoc, List.cons_append]
    cases hextra : (extraSlash uriRoot).toList with
    | nil => exact ⟨_, rfl⟩
    | cons c extra =>
      have hc : c = '/' := eq_slash_of_mem_extraSlash uriRoot c (hextra ▸ List.mem_cons_self)
      exact ⟨_, by rw [hc, List.cons_append]⟩

variable {validNetloc : List CodePoint → Bool} {uriRoot : String}

/-- The API reads the path of a retained file decoded once more. -/
theorem artifactCandidate_retainedUri (h : (Path.parse uriRoot).absolute = true)
    {directory : List String} (hne : directory ≠ []) (stored name : String)
    (mediaType : Option String) (mounted : Option Path) :
  artifactCandidate (posixUrlLibrary validNetloc)
      ⟨name, retainedUri uriRoot directory stored, mediaType⟩ mounted
    = .ok (some (.parse (ofCodePoints
      (unquote (ofChars (retainedText uriRoot (directory ++ [stored])))))))
  := by
  have huri := retainedUri_eq h hne stored
  let path := ofChars (GoblinKing.quote ['/', ':'] (rootText uriRoot)
    ++ GoblinKing.quote ['/'] (slashed (directory ++ [stored])))
  have hpath : path = Url.quote (ofChars ['/', ':']) (ofChars (rootText uriRoot))
      ++ Url.quote (ofChars ['/']) (ofChars (slashed (directory ++ [stored]))) := by
    rw [← ofChars_quote, ← ofChars_quote, ← ofChars_append]
  have hcode : codePoints (retainedUri uriRoot directory stored) = codePoints "file://" ++ path := by
    rw [codePoints, huri, ofChars_append]
    rfl
  have hplain : ∀ c ∈ path, ¬ IsMark c ∧ ¬ IsRemoved c := by
    have hsafe : ∀ c ∈ ofChars ['/', ':'], ¬ IsMark c ∧ ¬ IsRemoved c := by
      intro c hc
      rcases List.mem_cons.mp hc with rfl | hc
      · decide
      · obtain rfl := List.mem_singleton.mp hc
        decide
    have hsafe' : ∀ c ∈ ofChars ['/'], ¬ IsMark c ∧ ¬ IsRemoved c := by
      intro c hc
      obtain rfl := List.mem_singleton.mp hc
      decide
    intro c hc
    rw [hpath] at hc
    rcases List.mem_append.mp hc with hc | hc
    · exact plain_quote hsafe _ c hc
    · exact plain_quote hsafe' _ c hc
  have hunquote : unquote path = ofChars (retainedText uriRoot (directory ++ [stored])) := by
    rw [hpath, unquote_quote_append ⟨by decide, encodable_ofChars _⟩ ⟨by decide, encodable_ofChars _⟩
      (encodable_ofChars _) (encodable_ofChars _), retainedText, ofChars_append]
  have hslash : ∃ rest, path = 0x2F :: rest := by
    have hquote : ∀ (safe text : List Char), '/' ∈ safe →
        GoblinKing.quote safe ('/' :: text) = '/' :: GoblinKing.quote safe text := by
      intro safe text hsafe
      simp [GoblinKing.quote, hsafe]
    obtain ⟨rest, hrest⟩ := exists_retainedText uriRoot (by simp : directory ++ [stored] ≠ [])
    unfold retainedText at hrest
    unfold path
    cases hroot : rootText uriRoot with
    | nil =>
      rw [hroot, List.nil_append] at hrest
      rw [hrest, hquote _ _ (by simp)]
      exact ⟨_, rfl⟩
    | cons c root =>
      rw [hroot] at hrest
      cases hrest
      rw [hquote _ _ (by simp)]
      exact ⟨_, rfl⟩
  have hsplit : split validNetloc (codePoints "file://" ++ path)
      = some ⟨codePoints "file", [], path, [], []⟩ := split_fileUri hplain hslash
  rw [← hcode] at hsplit
  have hartifact : startsWith (retainedUri uriRoot directory stored) "artifact://" = false := by
    rw [startsWith, huri]
    rfl
  have hfile : startsWith (retainedUri uriRoot directory stored) "file://" = true := by
    rw [startsWith, huri]
    rfl
  rw [artifactCandidate]
  dsimp only
  rw [hartifact, if_neg (by simp), hfile, if_pos rfl]
  have hnetloc : ofCodePoints [] = "" := rfl
  have htwice : unquoteText (unquoteText (ofCodePoints path))
      = ofCodePoints (unquote (ofChars (retainedText uriRoot (directory ++ [stored])))) := by
    have hencodable : Encodable path := encodable_ofChars _
    rw [unquoteText_ofCodePoints hencodable, hunquote,
      unquoteText_ofCodePoints (encodable_ofChars _)]
  simp only [posixUrlLibrary, hsplit, Except.ok_bind, hnetloc, true_or, if_true, htwice]

/-! ### The names of a retained file -/

theorem unreserved_of_mem_digest (digest : Digest) :
  ∀ c ∈ digest.text.toList, c ∈ unreserved
  := by
  have hvalid := digest.valid
  have hhex : ∀ c ∈ "0123456789abcdef".toList, c ∈ unreserved :=
    List.all_iff_forall_prop.mp (by decide)
  rw [isSha256, Bool.and_eq_true, List.all_eq_true] at hvalid
  intro c hc
  apply hhex
  simpa using hvalid.2 c hc

theorem unreserved_of_mem_storedIdentity (name : String) :
  ∀ c ∈ storedIdentity host name, c ∈ unreserved
  := by
  intro c hc
  rw [storedIdentity, List.mem_append] at hc
  rcases hc with hc | hc
  · exact unreserved_of_mem_digest _ c (List.mem_of_mem_take hc)
  · split at hc
    case isTrue hsafe =>
      obtain ⟨d, hd, rfl⟩ := List.mem_map.mp hc
      have hlower : ∀ c ∈ alphanumeric, c.toLower ∈ unreserved :=
        List.all_iff_forall_prop.mp (by decide)
      revert hsafe hd
      generalize pathSuffix _ = suffix
      intro hsafe hd
      unfold isSafeSuffix at hsafe
      split at hsafe
      case h_1 rest =>
        rcases List.mem_cons.mp hd with rfl | hd
        · decide
        · rw [Bool.and_eq_true, List.all_eq_true] at hsafe
          exact hlower d (by simpa using hsafe.2 d hd)
      case h_2 => cases hsafe
    case isFalse => cases hc

theorem unreserved_of_mem_storedName (index : ℕ) (name : String) :
  ∀ c ∈ (storedName host index name).toList, c ∈ unreserved
  := by
  intro c hc
  rw [storedName, String.toList_ofList, List.mem_append, List.mem_cons] at hc
  rcases hc with hc | rfl | hc
  · exact unreserved_of_isDigit (isDigit_of_mem_paddedIndex hc)
  · decide
  · exact unreserved_of_mem_storedIdentity host name c hc

variable (projectId : Option String) (runId : String) (index : ℕ) (name : String)

theorem unreserved_of_mem_retainedNames :
  ∀ part ∈ retainedNames host projectId runId index name, ∀ c ∈ part.toList, c ∈ unreserved
  := by
  have hscope : ∀ c ∈ (projectId.elim "unscoped" (fun projectId =>
      (host.sha256 projectId.toUTF8).text)).toList, c ∈ unreserved := by
    cases projectId with
    | none =>
      rw [Option.elim_none]
      exact List.all_iff_forall_prop.mp (by decide)
    | some projectId => exact unreserved_of_mem_digest _
  intro part hpart
  simp only [retainedNames, retainedDirectory, List.cons_append, List.nil_append, List.mem_cons,
    List.not_mem_nil, or_false] at hpart
  rcases hpart with rfl | rfl | rfl | rfl | rfl
  · exact List.all_iff_forall_prop.mp (by decide)
  · exact hscope
  · exact List.all_iff_forall_prop.mp (by decide)
  · exact unreserved_of_mem_digest _
  · exact unreserved_of_mem_storedName host index name

theorem plain_of_mem_retainedNames {part : String}
    (h : part ∈ retainedNames host projectId runId index name) :
  Plain part
  := by
  have hdigest : ∀ digest : Digest, digest.text ≠ "" ∧ digest.text ≠ "." ∧ digest.text ≠ ".." := by
    intro digest
    have hshort : ∀ text : String, isSha256 text = false → digest.text ≠ text := by
      intro text hfalse heq
      have hvalid := digest.valid
      rw [heq, hfalse] at hvalid
      cases hvalid
    exact ⟨hshort _ (by decide), hshort _ (by decide), hshort _ (by decide)⟩
  constructor
  · intro hslash
    exact absurd (unreserved_of_mem_retainedNames host projectId runId index name part h _ hslash)
      (by decide)
  · simp only [retainedNames, retainedDirectory, List.cons_append, List.nil_append, List.mem_cons,
      List.not_mem_nil, or_false] at h
    rcases h with rfl | rfl | rfl | rfl | rfl
    · decide
    · cases projectId with
      | none =>
        rw [Option.elim_none]
        decide
      | some projectId => exact hdigest _
    · decide
    · exact hdigest _
    · have hdash : '-' ∈ (storedName host index name).toList := by
        rw [storedName, String.toList_ofList]
        exact List.mem_append_right _ List.mem_cons_self
      have hother : ∀ text : String, '-' ∉ text.toList → storedName host index name ≠ text := by
        intro text htext heq
        exact htext (heq ▸ hdash)
      exact ⟨hother _ (by decide), hother _ (by decide), hother _ (by decide)⟩

theorem notMem_slashed_retainedNames {c : Char} (hc : c ∉ unreserved) (hslash : c ≠ '/') :
  c ∉ slashed (retainedNames host projectId runId index name)
  := by
  intro hmem
  obtain ⟨part, hpart, hmem⟩ := List.mem_flatMap.mp hmem
  rcases List.mem_cons.mp hmem with heq | hmem
  · exact hslash heq
  · exact hc (unreserved_of_mem_retainedNames host projectId runId index name part hpart c hmem)

/-! ### Main results -/

/-- A root that is written in the same way as it is read: it has one slash in front, no null
character, and no escape sequence. -/
structure RootSurvives (uriRoot : String) : Prop where
  oneSlash : extraSlash uriRoot = ""
  noNull : ∀ part ∈ (Path.parse uriRoot).parts, '\x00' ∉ part.toList
  noEscape : ¬ HasEscape (codePoints (purePosixText uriRoot))

theorem validateAbsolutePosix_eq_ok {value label : String} :
  validateAbsolutePosix value label = .ok ()
    ↔ (Path.parse value).absolute = true ∧ ".." ∉ (Path.parse value).parts
  := by
  unfold validateAbsolutePosix
  split_ifs with h
  · simp only [false_iff]
    simp only [Bool.or_eq_true, Bool.not_eq_true', List.contains_iff_mem] at h
    rintro ⟨habsolute, hparts⟩
    rcases h with h | h
    · rw [habsolute] at h
      cases h
    · exact hparts h
  · simpa using h

/-- The names of a retained file have no escape sequences, so that those of its path are those of the
root. -/
theorem hasEscape_retainedText_iff (habsolute : (Path.parse uriRoot).absolute = true) :
  HasEscape (ofChars (retainedText uriRoot (retainedNames host projectId runId index name)))
    ↔ HasEscape (codePoints (purePosixText uriRoot))
  := by
  have hslash : ∀ text : List Char, (∀ c ∈ text, c = '/') → ¬ HasEscape (ofChars text) := by
    intro text htext
    apply not_hasEscape_of_notMem
    intro hmem
    have hpercent : '%' ∈ text := mem_ofChars.mp hmem
    exact absurd (htext _ hpercent) (by decide)
  have hroot : HasEscape (codePoints (purePosixText uriRoot)) ↔ HasEscape (ofChars (rootText uriRoot)) := by
    rw [codePoints, toList_purePosixText habsolute, rootText]
    split_ifs with hnil
    · apply iff_of_false
      · apply hslash
        intro c hc
        rcases List.mem_append.mp hc with hc | hc
        · exact eq_slash_of_mem_extraSlash uriRoot c hc
        · exact List.mem_singleton.mp hc
      · apply hslash
        simp
    · exact Iff.rfl
  have hnames : retainedNames host projectId runId index name ≠ [] := by simp [retainedNames]
  have hpercent : '%' ∉ slashed (retainedNames host projectId runId index name) :=
    notMem_slashed_retainedNames host projectId runId index name (by decide) (by decide)
  rw [hroot, retainedText, ofChars_append]
  rw [slashed_eq_intercalate hnames] at hpercent ⊢
  have hcons : ∀ text : List Char, ofChars ('/' :: text) = 0x2F :: ofChars text := fun _ => rfl
  have hrest : ¬ HasEscape (0x2F :: ofChars ("/".intercalate
      (retainedNames host projectId runId index name)).toList) := by
    rw [← hcons]
    apply not_hasEscape_of_notMem
    intro hmem
    exact hpercent (mem_ofChars.mp hmem)
  rw [hcons, hasEscape_append rfl]
  exact or_iff_left hrest

theorem resolvePath_of_unlinked {tree : FileTree} {names : List String} {steps : ℕ}
    (hnull : ∀ part ∈ names, '\x00' ∉ part.toList) (hlinks : tree.Unlinked [] names)
    (hnames : ∀ part ∈ names, part ≠ "..") (hsteps : names.length < steps) :
  resolvePath tree steps ⟨true, names⟩ = .ok (some names)
  := by
  have hany : names.any (fun part => decide ('\x00' ∈ part.toList)) = false := by
    rw [List.any_eq_false]
    intro part hpart
    simpa using hnull part hpart
  have hwalk := hlinks.walk_of_lt hnames hsteps
  rw [List.nil_append] at hwalk
  rw [resolvePath]
  dsimp only
  rw [hany, if_neg (by simp), hwalk]

theorem rootText_eq {uriRoot : String} (h : extraSlash uriRoot = "") :
  rootText uriRoot = slashed (Path.parse uriRoot).parts
  := by
  rw [rootText, h]
  split_ifs with hnil
  · rw [hnil]
    rfl
  · rfl

/-- The URI of a retained file leads back to it when the root survives. -/
theorem RootSurvives.leadsBack (h : RootSurvives uriRoot)
    (habsolute : (Path.parse uriRoot).absolute = true)
    (hup : ".." ∉ (Path.parse uriRoot).parts) :
  LeadsBack host validNetloc uriRoot projectId runId index name
  := by
  intro storage mediaType mounted hroot hlinks
  let names := storage.root ++ retainedNames host projectId runId index name
  use names.length + 1
  intro steps hsteps
  use names
  constructor
  · have htext : retainedText uriRoot (retainedNames host projectId runId index name)
        = slashed names := by
      rw [retainedText, rootText_eq h.oneSlash, ← slashed_append, ← hroot]
    have hparts : ∀ part ∈ names, IsPart part ∧ '\x00' ∉ part.toList ∧ part ≠ ".." := by
      intro part hpart
      rcases List.mem_append.mp hpart with hpart | hpart
      · rw [hroot] at hpart
        exact ⟨isPart_of_mem_parts hpart, h.noNull part hpart, fun heq => hup (heq ▸ hpart)⟩
      · have hchars := unreserved_of_mem_retainedNames host projectId runId index name part hpart
        obtain ⟨hslash, hempty, hdot, hdots⟩ :=
          plain_of_mem_retainedNames host projectId runId index name hpart
        exact ⟨⟨hslash, hempty, hdot⟩, fun hnull => absurd (hchars _ hnull) (by decide), hdots⟩
    have hescape : ¬ HasEscape (ofChars (slashed names)) := by
      rw [← htext, hasEscape_retainedText_iff host projectId runId index name habsolute]
      exact h.noEscape
    have hcandidate : Path.parse (ofCodePoints (unquote (ofChars (slashed names)))) = ⟨true, names⟩ := by
      have hne : names ≠ [] := by simp [names, retainedNames]
      rw [unquote_of_not_hasEscape (encodable_ofChars _) hescape, ofCodePoints, toChars_ofChars,
        parse_slashed hne (fun part hpart => (hparts part hpart).1)]
    have hread : artifactCandidate (posixUrlLibrary validNetloc)
        ⟨name, retainedUri uriRoot (retainedDirectory host projectId runId)
          (storedName host index name), mediaType⟩ mounted = .ok (some ⟨true, names⟩) := by
      have hdirectory : retainedDirectory host projectId runId ≠ [] := by simp [retainedDirectory]
      rw [artifactCandidate_retainedUri habsolute hdirectory, ← retainedNames, htext, hcandidate]
    have hresolved : resolvePath storage.tree steps ⟨true, names⟩ = .ok (some names) :=
      resolvePath_of_unlinked (fun part hpart => (hparts part hpart).2.1) hlinks
        (fun part hpart => (hparts part hpart).2.2) hsteps
    have hrootResolved : resolvePath storage.tree steps ⟨true, storage.root⟩
        = .ok (some storage.root) := by
      have hsub : ∀ part ∈ storage.root, part ∈ names := fun part hpart =>
        List.mem_append_left _ hpart
      apply resolvePath_of_unlinked (fun part hpart => (hparts part (hsub part hpart)).2.1)
        storage.resolved (fun part hpart => (hparts part (hsub part hpart)).2.2)
      have hlength : storage.root.length ≤ names.length := by simp [names]
      omega
    have hinside : storage.root.isPrefixOf names = true :=
      List.isPrefixOf_iff_prefix.mpr (List.prefix_append _ _)
    rw [artifactFilePath, hread, Except.ok_bind]
    dsimp only
    rw [Path.join, if_pos rfl, hresolved, Except.ok_bind, hrootResolved, Except.ok_bind]
    simp [hinside]
  · rw [h.oneSlash, String.empty_append]

/-- A directory in a file tree without anything else, in particular without links. -/
def bareTree (root : List String) : FileTree where
  node names := if names = root then some .directory else none

theorem isLink_bareTree (root names : List String) :
  (bareTree root).isLink names = false
  := by
  unfold FileTree.isLink bareTree
  dsimp only
  split
  case h_1 hnode =>
    split at hnode
    · cases hnode
    · cases hnode
  case h_2 => rfl

theorem unlinked_of_isLink {tree : FileTree} (h : ∀ names, tree.isLink names = false)
    (base names : List String) :
  tree.Unlinked base names
  := by
  induction names generalizing base with
  | nil => trivial
  | cons name names ih => exact ⟨h _, ih _⟩

/-- An artifact root without links. -/
def bareStorage (root : List String) (hplain : ∀ name ∈ root, Plain name) : ArtifactStorage where
  tree := bareTree root
  root := root
  plain := hplain
  resolved := unlinked_of_isLink (isLink_bareTree root) [] root
  directory := if_pos rfl

/-- A path with a null character does not resolve. -/
theorem notMem_of_resolvePath {tree : FileTree} {steps : ℕ} {path : Path} {names : List String}
    (h : resolvePath tree steps path = .ok (some names)) :
  ∀ part ∈ path.parts, '\x00' ∉ part.toList
  := by
  rw [resolvePath] at h
  split at h
  case isTrue => cases h
  case isFalse hany =>
    intro part hpart hnull
    apply hany
    rw [List.any_eq_true]
    exact ⟨part, hpart, by simpa using hnull⟩

/-- A text is decoded with the slash in front of it. -/
theorem unquote_cons_slash (text : List Char) :
  ∃ rest, Encodable rest ∧ unquote (ofChars ('/' :: text)) = 0x2F :: rest
  := by
  have hcons : ofChars ('/' :: text) = 0x2F :: ofChars text := rfl
  have hdecode : decodeReplace ([] ++ (encodeChar 0x2F ++ percentDecode (ofChars text)))
      = decodeReplace [] ++ 0x2F :: decodeReplace (percentDecode (ofChars text)) :=
    decodeReplace_append_encodeChar [] (by decide) _
  use decodeReplace (percentDecode (ofChars text)), encodable_decodeReplace _
  rw [unquote_eq (encodable_ofChars _), hcons, percentDecode_cons_of_ne (by decide)]
  exact hdecode

theorem length_ofChars (text : List Char) :
  (ofChars text).length = text.length
  := List.length_map _

theorem length_toChars (text : List CodePoint) :
  (toChars text).length = text.length
  := List.length_map _

/-- The path of a retained file is not one with two slashes in front. -/
theorem extraSlash_eq_empty {names expected : List String} (hnames : ∀ part ∈ names, IsPart part)
    (hne : expected ≠ [])
    (h : asPosix ⟨true, names⟩ = extraSlash uriRoot ++ asPosix ⟨true, expected⟩) :
  extraSlash uriRoot = ""
  := by
  unfold extraSlash at h ⊢
  split_ifs at h ⊢
  · exfalso
    have htext := congrArg String.toList h
    rw [String.toList_append, toList_asPosix, toList_asPosix, if_neg hne,
      slashed_eq_intercalate hne] at htext
    cases names with
    | nil => cases htext
    | cons part names =>
      rw [if_neg (by simp)] at htext
      have hpart := hnames part List.mem_cons_self
      cases hchars : part.toList with
      | nil => exact hpart.2.1 (String.toList_eq_nil_iff.mp hchars)
      | cons c chars =>
        have hslash : c = '/' := by
          simp only [slashed, List.flatMap_cons, hchars] at htext
          exact (List.cons_eq_cons.mp (List.cons_eq_cons.mp htext).2).1
        exact hpart.1 (hchars ▸ hslash ▸ List.mem_cons_self)
  · rfl

/-- The root survives when the URI of a retained file leads back to it. -/
theorem LeadsBack.rootSurvives (habsolute : (Path.parse uriRoot).absolute = true)
    (hup : ".." ∉ (Path.parse uriRoot).parts)
    (h : LeadsBack host validNetloc uriRoot projectId runId index name) :
  RootSurvives uriRoot
  := by
  have hplain : ∀ part ∈ (Path.parse uriRoot).parts, Plain part := by
    intro part hpart
    obtain ⟨hslash, hempty, hdot⟩ := isPart_of_mem_parts hpart
    exact ⟨hslash, hempty, hdot, fun heq => hup (heq ▸ hpart)⟩
  let storage := bareStorage (Path.parse uriRoot).parts hplain
  let retained := retainedNames host projectId runId index name
  have hlinks : ∀ names, storage.tree.isLink names = false := isLink_bareTree _
  obtain ⟨enough, hsteps⟩ := h storage none none rfl (unlinked_of_isLink hlinks _ _)
  obtain ⟨names, hok, htext⟩ := hsteps enough (Nat.le_refl _)
  have hretained : retained ≠ [] := by simp [retained, retainedNames]
  obtain ⟨text, hcons⟩ := exists_retainedText uriRoot hretained
  obtain ⟨rest, hrest, hunquote⟩ := unquote_cons_slash text
  have hdirectory : retainedDirectory host projectId runId ≠ [] := by simp [retainedDirectory]
  have hread : artifactCandidate (posixUrlLibrary validNetloc)
      ⟨name, retainedUri uriRoot (retainedDirectory host projectId runId)
        (storedName host index name), none⟩ none = _ :=
    artifactCandidate_retainedUri habsolute hdirectory (storedName host index name) name none none
  have hslash : toChars (0x2F :: rest) = '/' :: toChars rest := rfl
  rw [← retainedNames, hcons, hunquote, ofCodePoints, hslash, parse_cons_slash] at hread
  rw [artifactFilePath, hread, Except.ok_bind] at hok
  dsimp only at hok
  rw [Path.join, if_pos rfl] at hok
  obtain ⟨resolved, hresolved, hok⟩ := Except.bind_eq_ok.mp hok
  obtain ⟨root, hroot, hok⟩ := Except.bind_eq_ok.mp hok
  obtain ⟨rfl, hinside⟩ := Option.filter_eq_some_iff.mp (Except.ok.inj hok)
  have hsub : names.Sublist ([] ++ textParts ('/' :: toChars rest)) :=
    FileTree.walk_sublist hlinks (resolvePath_ok hresolved)
  rw [List.nil_append] at hsub
  have hnames : ∀ part ∈ names, IsPart part := fun part hpart =>
    isPart_of_mem_textParts (hsub.subset hpart)
  have hone := extraSlash_eq_empty hnames (by simp [retainedNames]) htext
  constructor
  · exact hone
  · cases root with
    | none => cases hinside
    | some root => exact notMem_of_resolvePath hroot
  · intro hescape
    rw [← hasEscape_retainedText_iff host projectId runId index name habsolute] at hescape
    have hshorter := length_unquote_lt (encodable_ofChars _) hescape
    have hexpected : slashed (storage.root ++ retained) = '/' :: text := by
      rw [← hcons, retainedText, rootText_eq hone, ← slashed_append]
      rfl
    have hlength := congrArg (fun text => text.toList.length) htext
    have hne : storage.root ++ retained ≠ [] := by simp [hretained]
    rw [hone, String.empty_append, toList_asPosix, toList_asPosix, if_neg hne, hexpected] at hlength
    have hparts := length_slashed_le hsub
    have hbound := length_slashed_textParts_le (toChars rest)
    rw [hcons, hunquote, length_ofChars] at hshorter
    rw [length_toChars] at hbound
    simp only [List.length_cons] at hshorter hlength
    split_ifs at hlength
    · rw [List.length_singleton] at hlength
      omega
    · omega

/-- The URI of a retained file leads back to the file exactly when the root survives. -/
theorem leadsBack_iff (host : RetentionHost) (validNetloc : List CodePoint → Bool)
    (uriRoot : String) (projectId : Option String) (runId : String) (index : ℕ) (name : String)
    (haccepts : validateAbsolutePosix uriRoot "artifact URI root" = .ok ()) :
  LeadsBack host validNetloc uriRoot projectId runId index name ↔ RootSurvives uriRoot
  := by
  obtain ⟨habsolute, hup⟩ := validateAbsolutePosix_eq_ok.mp haccepts
  constructor
  · intro h
    exact h.rootSurvives host projectId runId index name habsolute hup
  · intro h
    exact h.leadsBack host projectId runId index name habsolute hup

/-- A host with one digest for all contents and without any file. -/
def linklessHost : RetentionHost where
  sha256 _ := ⟨String.ofList (List.replicate 64 '0'), by decide⟩
  repr := id
  urlsplit _ := .error ""
  unquote := id
  guessType _ := none
  resolveRoot := .ok
  fault _ := none
  isPlainDirectory _ := true
  isLink _ := some false
  resolve := .ok
  stat _ := .error ""
  openFile _ _ := none

/-- An artifact that is retained under `/data/artifacts` is served. -/
theorem leadsBack_dataArtifacts :
  LeadsBack linklessHost (fun _ => true) "/data/artifacts" (some "research") "run-1" 0 "report.txt"
  := by
  refine (leadsBack_iff linklessHost (fun _ => true) "/data/artifacts" (some "research") "run-1" 0
    "report.txt" ?_).mpr ?_
  · decide +kernel
  · constructor
    · decide +kernel
    · decide +kernel
    · decide +kernel

/-- A root with an escape sequence in its name is decoded once more than it is encoded. -/
theorem not_leadsBack_escape :
  validateAbsolutePosix "/data/a%20b" "artifact URI root" = .ok ()
    ∧ ¬ LeadsBack linklessHost (fun _ => true) "/data/a%20b" none "run-1" 0 "report.txt"
  := by
  constructor
  · decide +kernel
  · intro h
    have hsurvives := h.rootSurvives linklessHost none "run-1" 0 "report.txt" (by decide +kernel)
      (by decide +kernel)
    exact absurd hsurvives.noEscape (by decide +kernel)

end GoblinKing
