import GoblinKing.Library.Base64
import GoblinKing.Library.Json
import GoblinKing.Runtime.Results

/-!
# Signed cookies

The directory service signs the session identifiers and the login states that it hands to browsers.
A signed value is the value, a dot, and the hexadecimal digits of its HMAC under the service token.
A login state is a JSON object, encoded in Base64 without its padding.
-/

namespace GoblinKing.DirectoryUi

open Utf8

/-- The functions of the standard library about messages and JSON. -/
structure CookieLibrary where
  /-- the digest of HMAC-SHA256 for a key and a message -/
  hmacSha256 : List UInt8 → List UInt8 → List UInt8
  /-- `json.dumps` without blanks and with sorted keys -/
  dumps : Json → Except Raised (List CodePoint)
  /-- `json.loads` of bytes -/
  loads : List UInt8 → Except Raised Json

/-- What is read of `DirectoryUISettings`. A text in a model has an encoding. -/
structure DirectoryUiSettings where
  serviceToken : Option { token : List CodePoint // Encodable token }

variable (library : CookieLibrary) (settings : DirectoryUiSettings)

/-- The bytes of the service token, or of a secret for development. -/
def cookieSecret : List UInt8 :=
  let secret := ofChars "local-directory-ui-development-secret".toList
  match settings.serviceToken with
  | none => bytes secret
  | some token => bytes (if token.val = [] then secret else token.val)

/-- `str.encode` to UTF-8 -/
def encodeUtf8 (text : List CodePoint) : Except Raised (List UInt8) :=
  match encode text with
  | none => .error ⟨.valueError, "'utf-8' codec can't encode character: surrogates not allowed"⟩
  | some encoded => .ok encoded

/-- A text of ASCII characters only. -/
def IsAscii (text : List CodePoint) : Prop :=
  ∀ c ∈ text, c.val < 0x80

instance : DecidablePred IsAscii :=
  fun text => List.decidableBAll _ text

/-- `str.encode` to ASCII -/
def encodeAscii (text : List CodePoint) : Except Raised (List UInt8) :=
  if IsAscii text then
    .ok (text.map (fun c => .ofNat c.val))
  else
    .error ⟨.valueError, "'ascii' codec can't encode character: ordinal not in range(128)"⟩

/-- `bytes.decode` of ASCII characters -/
def decodeAscii (encoded : List UInt8) : List CodePoint :=
  encoded.map (fun byte => Fin.ofNat _ byte.toNat)

/-- `hexdigest` -/
def hexdigest (digest : List UInt8) : List CodePoint :=
  digest.flatMap (fun byte => [Json.hexDigit (byte.toNat / 16), Json.hexDigit byte.toNat])

/-- The signature of bytes. -/
def signature (message : List UInt8) : List CodePoint :=
  hexdigest (library.hmacSha256 (cookieSecret settings) message)

/-- `hmac.compare_digest` of texts, which have to be ASCII -/
def compareDigest (a b : List CodePoint) : Except Raised Bool :=
  if IsAscii a ∧ IsAscii b then
    .ok (decide (a = b))
  else
    .error ⟨.typeError, "comparing strings with non-ASCII characters is not supported"⟩

/-- `str.rsplit` at the last dot, `none` without a dot -/
def rsplitDot (text : List CodePoint) : Option (List CodePoint × List CodePoint) :=
  match text.reverse.dropWhile (· ≠ 0x2E) with
  | [] => none
  | _ :: front => some (front.reverse, (text.reverse.takeWhile (· ≠ 0x2E)).reverse)

/-- `_signed_value` -/
def signedValue (value : List CodePoint) : Except Raised (List CodePoint) := do
  let message ← encodeUtf8 value
  .ok (value ++ 0x2E :: signature library settings message)

/-- `_decode_signed_value` -/
def decodeSignedValue (value : Option (List CodePoint)) :
    Except Raised (Option (List CodePoint)) :=
  match value with
  | none => .ok none
  | some value =>
      if value = [] then
        .ok none
      else
        match rsplitDot value with
        | none => .ok none
        | some (raw, given) => do
            let message ← encodeUtf8 raw
            let same ← compareDigest given (signature library settings message)
            .ok (if same then some raw else none)

/-- `base64.urlsafe_b64decode` -/
def urlsafeB64decode (encoded : List UInt8) : Except Raised (List UInt8) :=
  match Base64.decode encoded with
  | none => .error ⟨.valueError, "Incorrect padding"⟩
  | some decoded => .ok decoded

/-- `_encode_signed_json` -/
def encodeSignedJson (payload : Json) : Except Raised (List CodePoint) := do
  let raw ← library.dumps payload
  let message ← encodeUtf8 raw
  let encoded := (decodeAscii (Base64.encode message)).rdropWhile (· = 0x3D)
  signedValue library settings encoded

/-- The JSON value in Base64 digits whose padding was taken away. -/
def loadEncoded (encoded : List CodePoint) : Except Raised Json := do
  let padding := List.replicate ((4 - encoded.length % 4) % 4) 0x3D
  let digits ← encodeAscii (encoded ++ padding)
  let decoded ← urlsafeB64decode digits
  library.loads decoded

/-- The JSON object of a value that was decoded. -/
def readPayload (encoded : Option (List CodePoint)) : Except Raised (Option Json) :=
  match encoded with
  | none => .ok none
  | some encoded =>
      if encoded = [] then
        .ok none
      else
        match loadEncoded library encoded with
        | .error error => if error.isValueError then .ok none else .error error
        | .ok payload => .ok (if payload.isObj then some payload else none)

/-- `_decode_signed_json_cookie` -/
def decodeSignedJsonCookie (value : Option (List CodePoint)) : Except Raised (Option Json) := do
  let encoded ← decodeSignedValue library settings value
  readPayload library encoded

/-! ### Texts -/

variable {library settings}

theorem encodeUtf8_of_encodable {text : List CodePoint} (h : Encodable text) :
  encodeUtf8 text = .ok (bytes text)
  := by
  rw [encodeUtf8, encode_of_encodable h]

theorem encodeUtf8_eq_ok {text : List CodePoint} {encoded : List UInt8}
    (h : encodeUtf8 text = .ok encoded) :
  Encodable text ∧ encoded = bytes text
  := by
  by_cases htext : Encodable text
  · rw [encodeUtf8_of_encodable htext] at h
    use htext
    exact (Except.ok.inj h).symm
  · rw [encodeUtf8, encode_of_not_encodable htext] at h
    cases h

theorem encodeAscii_decodeAscii {encoded : List UInt8} (h : ∀ byte ∈ encoded, byte.toNat < 0x80) :
  encodeAscii (decodeAscii encoded) = .ok encoded
  := by
  have hval : ∀ byte : UInt8, (Fin.ofNat 0x110000 byte.toNat).val = byte.toNat := by
    intro byte
    have hbyte := byte.toNat_lt
    rw [Fin.val_ofNat]
    omega
  have hascii : IsAscii (decodeAscii encoded) := by
    intro c hc
    obtain ⟨byte, hbyte, rfl⟩ := List.mem_map.mp hc
    rw [hval]
    exact h byte hbyte
  rw [encodeAscii, if_pos hascii, decodeAscii, List.map_map]
  congr 1
  calc encoded.map _ = encoded.map id := by
        apply List.map_congr_left
        intro byte _
        rw [Function.comp_apply, hval, UInt8.ofNat_toNat, id]
    _ = encoded := List.map_id encoded

theorem hexDigit_ne_dot (n : ℕ) :
  Json.hexDigit n ≠ 0x2E
  := by
  intro h
  have hval : (Json.hexDigit n).val = 0x2E := congrArg Fin.val h
  rw [Json.hexDigit, Fin.val_ofNat] at hval
  split_ifs at hval <;> omega

theorem isAscii_hexdigest (digest : List UInt8) :
  IsAscii (hexdigest digest)
  := by
  intro c hc
  obtain ⟨byte, -, hc⟩ := List.mem_flatMap.mp hc
  have hdigit : ∀ n, (Json.hexDigit n).val < 0x80 := by
    intro n
    have hrange := Json.isPrintable_hexDigit n
    unfold Json.IsPrintable at hrange
    omega
  rcases List.mem_pair.mp hc with rfl | rfl
  · apply hdigit
  · apply hdigit

theorem dot_notMem_hexdigest (digest : List UInt8) :
  0x2E ∉ hexdigest digest
  := by
  intro hc
  obtain ⟨byte, -, hc⟩ := List.mem_flatMap.mp hc
  rcases List.mem_pair.mp hc with h | h
  · exact hexDigit_ne_dot _ h.symm
  · exact hexDigit_ne_dot _ h.symm

theorem rsplitDot_append (raw : List CodePoint) {given : List CodePoint} (h : 0x2E ∉ given) :
  rsplitDot (raw ++ 0x2E :: given) = some (raw, given)
  := by
  have hgiven : ∀ c ∈ given.reverse, decide (c ≠ 0x2E) = true := by
    intro c hc
    rw [decide_eq_true_eq]
    rintro rfl
    exact h (List.mem_reverse.mp hc)
  have hreverse : (raw ++ 0x2E :: given).reverse = given.reverse ++ 0x2E :: raw.reverse := by
    simp
  rw [rsplitDot, hreverse, List.dropWhile_append_of_pos hgiven,
    List.dropWhile_cons_of_neg (by simp), List.takeWhile_append_of_pos hgiven,
    List.takeWhile_cons_of_neg (by simp), List.append_nil]
  simp

theorem rsplitDot_eq_some {text raw given : List CodePoint}
    (h : rsplitDot text = some (raw, given)) :
  text = raw ++ 0x2E :: given
  := by
  unfold rsplitDot at h
  split at h
  case h_1 => cases h
  case h_2 c front hdrop =>
    have hc : c = 0x2E := by
      have hhead := List.head?_dropWhile_not (fun c : CodePoint => decide (c ≠ 0x2E)) text.reverse
      rw [hdrop] at hhead
      simpa using hhead
    have hsplit := List.takeWhile_append_dropWhile (p := fun c : CodePoint => decide (c ≠ 0x2E))
      (l := text.reverse)
    rw [Option.some.injEq, Prod.mk.injEq] at h
    rw [← List.reverse_reverse text, ← hsplit, hdrop, hc, ← h.1, ← h.2]
    simp

/-! ### Signed values -/

/-- A cookie is a value with its signature. -/
def IsSigned (library : CookieLibrary) (settings : DirectoryUiSettings)
    (cookie : Option (List CodePoint)) (raw : List CodePoint) : Prop :=
  Encodable raw ∧ cookie = some (raw ++ 0x2E :: signature library settings (bytes raw))

theorem signedValue_of_encodable {value : List CodePoint} (h : Encodable value) :
  signedValue library settings value
    = .ok (value ++ 0x2E :: signature library settings (bytes value))
  := by
  rw [signedValue, encodeUtf8_of_encodable h]
  rfl

/-- A text that is split at its last dot. -/
theorem decodeSignedValue_of_rsplitDot {value raw given : List CodePoint}
    (h : rsplitDot value = some (raw, given)) :
  decodeSignedValue library settings (some value) = (do
    let message ← encodeUtf8 raw
    let same ← compareDigest given (signature library settings message)
    .ok (if same then some raw else none))
  := by
  have hvalue : value ≠ [] := by
    rw [rsplitDot_eq_some h]
    simp
  simp only [decodeSignedValue, if_neg hvalue, h]

/-- A signed value is decoded. -/
theorem decodeSignedValue_of_isSigned {cookie : Option (List CodePoint)} {raw : List CodePoint}
    (h : IsSigned library settings cookie raw) :
  decodeSignedValue library settings cookie = .ok (some raw)
  := by
  obtain ⟨hraw, rfl⟩ := h
  have hsplit := rsplitDot_append raw
    (dot_notMem_hexdigest (library.hmacSha256 (cookieSecret settings) (bytes raw)))
  rw [signature, decodeSignedValue_of_rsplitDot hsplit]
  apply Except.bind_eq_ok.mpr
  use bytes raw, encodeUtf8_of_encodable hraw
  apply Except.bind_eq_ok.mpr
  use true
  constructor
  · rw [signature, compareDigest, if_pos ⟨isAscii_hexdigest _, isAscii_hexdigest _⟩,
      decide_eq_true rfl]
  · rfl

/-- The cookies that can be compared with a signature: those without a dot, and those whose last
dot is in front of ASCII characters and behind a text with an encoding. -/
def Comparable (cookie : Option (List CodePoint)) : Prop :=
  ∀ raw given, cookie.bind rsplitDot = some (raw, given) → Encodable raw ∧ IsAscii given

/-- What is decoded of a cookie that can be compared. -/
theorem decodeSignedValue_eq_ok {cookie : Option (List CodePoint)}
    {decoded : Option (List CodePoint)}
    (h : decodeSignedValue library settings cookie = .ok decoded) :
  Comparable cookie ∧ ∀ raw, decoded = some raw → IsSigned library settings cookie raw
  := by
  cases cookie with
  | none =>
    constructor
    · intro raw given hsplit
      cases hsplit
    · cases h
      intro raw hraw
      cases hraw
  | some value =>
    cases hsplit : rsplitDot value with
    | none =>
      constructor
      · intro raw given hdot
        rw [Option.bind_some, hsplit] at hdot
        cases hdot
      · intro raw hraw
        rw [decodeSignedValue, hsplit, ite_self] at h
        rw [hraw] at h
        cases h
    | some parts =>
      obtain ⟨raw, given⟩ := parts
      rw [decodeSignedValue_of_rsplitDot hsplit] at h
      obtain ⟨message, hmessage, h⟩ := Except.bind_eq_ok.mp h
      obtain ⟨hraw, rfl⟩ := encodeUtf8_eq_ok hmessage
      obtain ⟨same, hsame, h⟩ := Except.bind_eq_ok.mp h
      unfold compareDigest at hsame
      split_ifs at hsame with hascii
      rw [Except.ok.injEq] at hsame h
      constructor
      · intro raw' given' hdot
        rw [Option.bind_some, hsplit, Option.some.injEq, Prod.mk.injEq] at hdot
        rw [← hdot.1, ← hdot.2]
        use hraw, hascii.1
      · intro raw' hraw'
        rw [hraw', ← hsame] at h
        split_ifs at h with hequal
        · rw [decide_eq_true_eq] at hequal
          rw [Option.some.injEq] at h
          subst h
          use hraw
          rw [← hequal, ← rsplitDot_eq_some hsplit]

/-- A cookie that can be compared is decoded, to a value or to none. -/
theorem exists_decodeSignedValue {cookie : Option (List CodePoint)} (h : Comparable cookie) :
  ∃ decoded, decodeSignedValue library settings cookie = .ok decoded
  := by
  cases cookie with
  | none => exact ⟨none, rfl⟩
  | some value =>
    cases hsplit : rsplitDot value with
    | none =>
      use none
      rw [decodeSignedValue, hsplit, ite_self]
    | some parts =>
      obtain ⟨raw, given⟩ := parts
      obtain ⟨hraw, hgiven⟩ := h raw given hsplit
      have hsame : compareDigest given (signature library settings (bytes raw))
          = .ok (decide (given = signature library settings (bytes raw))) :=
        if_pos ⟨hgiven, isAscii_hexdigest _⟩
      rw [decodeSignedValue_of_rsplitDot hsplit]
      exact ⟨_, Except.bind_eq_ok.mpr ⟨_, encodeUtf8_of_encodable hraw,
        Except.bind_eq_ok.mpr ⟨_, hsame, rfl⟩⟩⟩

/-! ### Signed JSON -/

/-- What is made of a cookie whose signed value has been decoded. -/
theorem decodeSignedJsonCookie_eq {cookie decoded : Option (List CodePoint)}
    (h : decodeSignedValue library settings cookie = .ok decoded) :
  decodeSignedJsonCookie library settings cookie = readPayload library decoded
  := by
  rw [decodeSignedJsonCookie, h, Except.ok_bind]

/-- Without their padding, the digits of bytes are left. -/
theorem rdropWhile_decodeAscii (message : List UInt8) :
  (decodeAscii (Base64.encode message)).rdropWhile (· = 0x3D)
    = decodeAscii (Base64.digits message)
  := by
  have hpad : ∀ byte : UInt8, Fin.ofNat 0x110000 byte.toNat = 0x3D ↔ byte = Base64.pad := by
    intro byte
    have hbyte := byte.toNat_lt
    constructor
    · intro h
      have hval : (Fin.ofNat 0x110000 byte.toNat).val = 0x3D := congrArg Fin.val h
      rw [Fin.val_ofNat, Nat.mod_eq_of_lt (by omega)] at hval
      exact UInt8.toNat.inj hval
    · rintro rfl
      rfl
  rw [← Base64.rdropWhile_encode, decodeAscii, decodeAscii, List.rdropWhile, List.rdropWhile,
    ← List.map_reverse, List.dropWhile_map, List.map_reverse]
  congr 3
  funext byte
  simp only [Function.comp_apply, hpad]

/-- Digits of bytes without their padding are loaded as the bytes. -/
theorem loadEncoded_digits (message : List UInt8) :
  loadEncoded library (decodeAscii (Base64.digits message)) = library.loads message
  := by
  have htext : decodeAscii (Base64.digits message)
      ++ List.replicate ((4 - (decodeAscii (Base64.digits message)).length % 4) % 4) 0x3D
      = decodeAscii (Base64.encode message) := by
    rw [Base64.encode, decodeAscii, decodeAscii, List.map_append, Base64.padding,
      List.map_replicate, List.length_map]
    rfl
  rw [loadEncoded, htext, encodeAscii_decodeAscii (Base64.encode_lt message), Except.ok_bind,
    urlsafeB64decode, Base64.decode_encode, Except.ok_bind]

theorem encodable_decodeAscii (encoded : List UInt8) :
  Encodable (decodeAscii encoded)
  := by
  intro c hc
  obtain ⟨byte, -, rfl⟩ := List.mem_map.mp hc
  have hbyte := byte.toNat_lt
  rw [IsSurrogate, Fin.val_ofNat]
  omega

/-- An object that is signed is decoded again. -/
theorem decodeSignedJsonCookie_encodeSignedJson {payload read : Json} (hobj : payload.isObj = true)
    (hdumps : library.dumps payload = .ok (payload.sortKeys.write Json.escapeAscii))
    (hloads : library.loads (bytes (payload.sortKeys.write Json.escapeAscii)) = .ok read)
    (hsame : read.Same payload) :
  ∃ signed, encodeSignedJson library settings payload = .ok signed
    ∧ decodeSignedJsonCookie library settings (some signed) = .ok (some read)
  := by
  have hraw : Encodable (payload.sortKeys.write Json.escapeAscii) :=
    fun c hc => (Json.isPrintable_write _ c hc).not_isSurrogate
  have hsome : payload.sortKeys.write Json.escapeAscii ≠ [] := by
    apply Json.write_ne_nil_of_isObj
    rw [Json.sortKeys_isObj, hobj]
  have hread : read.isObj = true := by
    rw [hsame.isObj, hobj]
  generalize payload.sortKeys.write Json.escapeAscii = raw at hdumps hloads hraw hsome
  have hdigits := encodable_decodeAscii (Base64.digits (bytes raw))
  have hne : decodeAscii (Base64.digits (bytes raw)) ≠ [] := by
    intro hnil
    apply Base64.digits_ne_nil _ (List.map_eq_nil_iff.mp hnil)
    intro hbytes
    apply hsome (size_eq_zero.mp _)
    rw [← length_bytes, hbytes, List.length_nil]
  use decodeAscii (Base64.digits (bytes raw))
    ++ 0x2E :: signature library settings (bytes (decodeAscii (Base64.digits (bytes raw))))
  constructor
  · rw [encodeSignedJson, hdumps, Except.ok_bind, encodeUtf8_of_encodable hraw, Except.ok_bind,
      rdropWhile_decodeAscii, signedValue_of_encodable hdigits]
  · rw [decodeSignedJsonCookie_eq (decodeSignedValue_of_isSigned ⟨hdigits, rfl⟩), readPayload,
      if_neg hne, loadEncoded_digits, hloads]
    simp only [hread, if_true]

/-- Every error of the decoding, unless the JSON decoder gives up, means that there is no value. -/
def Loadable (library : CookieLibrary) (settings : DirectoryUiSettings)
    (cookie : Option (List CodePoint)) : Prop :=
  ∀ raw, IsSigned library settings cookie raw → raw ≠ [] →
    ∀ error, loadEncoded library raw = .error error → error.isValueError = true

/-- A cookie is decoded to a JSON object or to none when it can be compared and loaded. -/
theorem exists_decodeSignedJsonCookie {cookie : Option (List CodePoint)} :
  (∃ read, decodeSignedJsonCookie library settings cookie = .ok read)
    ↔ Comparable cookie ∧ Loadable library settings cookie
  := by
  constructor
  · rintro ⟨read, hread⟩
    obtain ⟨decoded, hdecoded, -⟩ := Except.bind_eq_ok.mp hread
    use (decodeSignedValue_eq_ok hdecoded).1
    intro raw hraw hne error herror
    rw [decodeSignedJsonCookie_eq (decodeSignedValue_of_isSigned hraw)] at hread
    simp only [readPayload, if_neg hne, herror] at hread
    by_contra hvalue
    rw [if_neg hvalue] at hread
    cases hread
  · rintro ⟨hcomparable, hloadable⟩
    obtain ⟨decoded, hdecoded⟩ : ∃ decoded, decodeSignedValue library settings cookie = .ok decoded :=
      exists_decodeSignedValue hcomparable
    rw [decodeSignedJsonCookie_eq hdecoded]
    cases decoded with
    | none => exact ⟨_, rfl⟩
    | some raw =>
      by_cases hne : raw = []
      · rw [readPayload, if_pos hne]
        exact ⟨_, rfl⟩
      · simp only [readPayload, if_neg hne]
        cases hload : loadEncoded library raw with
        | ok payload => exact ⟨_, rfl⟩
        | error error =>
          have hvalue := hloadable raw ((decodeSignedValue_eq_ok hdecoded).2 raw rfl) hne error hload
          dsimp only
          rw [if_pos hvalue]
          exact ⟨_, rfl⟩

/-- A JSON object is decoded from a signed value only. -/
theorem isSigned_of_decodeSignedJsonCookie {cookie : Option (List CodePoint)} {read : Json}
    (h : decodeSignedJsonCookie library settings cookie = .ok (some read)) :
  ∃ raw, IsSigned library settings cookie raw
  := by
  obtain ⟨decoded, hdecoded, -⟩ := Except.bind_eq_ok.mp h
  cases decoded with
  | none =>
    rw [decodeSignedJsonCookie_eq hdecoded] at h
    cases h
  | some raw => exact ⟨raw, (decodeSignedValue_eq_ok hdecoded).2 raw rfl⟩

/-! ### The cookies of the service -/

/-- Values and objects come back from their signed form; a cookie has a value or none, and a value
only with its signature. -/
structure CookiesHold (library : CookieLibrary) (settings : DirectoryUiSettings)
    (value : List CodePoint) (payload : Json) (cookie : Option (List CodePoint)) : Prop where
  value_comes_back : ∃ signed, signedValue library settings value = .ok signed
    ∧ decodeSignedValue library settings (some signed) = .ok (some value)
  payload_comes_back : ∃ signed read, encodeSignedJson library settings payload = .ok signed
    ∧ decodeSignedJsonCookie library settings (some signed) = .ok (some read)
    ∧ read.Same payload
  value_or_none : ∃ decoded, decodeSignedValue library settings cookie = .ok decoded
  payload_or_none : ∃ read, decodeSignedJsonCookie library settings cookie = .ok read
  value_signed : ∀ raw, decodeSignedValue library settings cookie = .ok (some raw) →
    IsSigned library settings cookie raw
  payload_signed : ∀ read, decodeSignedJsonCookie library settings cookie = .ok (some read) →
    ∃ raw, IsSigned library settings cookie raw

/-- The cookies hold exactly when the value has an encoding, the cookie can be compared, and the
JSON decoder does not give up on what is signed. -/
theorem cookiesHold_iff (library : CookieLibrary) (settings : DirectoryUiSettings)
    (value : List CodePoint) (payload read : Json) (cookie : Option (List CodePoint))
    (hobj : payload.isObj = true)
    (hdumps : library.dumps payload = .ok (payload.sortKeys.write Json.escapeAscii))
    (hloads : library.loads (bytes (payload.sortKeys.write Json.escapeAscii)) = .ok read)
    (hsame : read.Same payload) :
  CookiesHold library settings value payload cookie
    ↔ Encodable value ∧ Comparable cookie ∧ Loadable library settings cookie
  := by
  constructor
  · intro h
    obtain ⟨signed, hsigned, -⟩ := h.value_comes_back
    obtain ⟨message, hmessage, -⟩ := Except.bind_eq_ok.mp hsigned
    use (encodeUtf8_eq_ok hmessage).1
    exact exists_decodeSignedJsonCookie.mp h.payload_or_none
  · rintro ⟨hvalue, hcomparable, hloadable⟩
    obtain ⟨signed, hsigned, hdecoded⟩ : ∃ signed,
        encodeSignedJson library settings payload = .ok signed
          ∧ decodeSignedJsonCookie library settings (some signed) = .ok (some read) :=
      decodeSignedJsonCookie_encodeSignedJson hobj hdumps hloads hsame
    constructor
    · use value ++ 0x2E :: signature library settings (bytes value), signedValue_of_encodable hvalue
      exact decodeSignedValue_of_isSigned ⟨hvalue, rfl⟩
    · use signed, read
    · exact exists_decodeSignedValue hcomparable
    · exact exists_decodeSignedJsonCookie.mpr ⟨hcomparable, hloadable⟩
    · intro raw hraw
      exact (decodeSignedValue_eq_ok hraw).2 raw rfl
    · intro read' hread'
      exact isSigned_of_decodeSignedJsonCookie hread'

/-- An object with one field. -/
def loginState : Json :=
  .obj [([0x61], .int 1)]

/-- The library where it signs a value and that object under the secret for development. -/
def developmentLibrary : CookieLibrary where
  hmacSha256 := fun _ message =>
    if message = [0x61, 0x62, 0x63] then
      [0x37, 0x73, 0x12, 0x91, 0xD1, 0x9A, 0xC5, 0xBD, 0x37, 0x9E, 0x23, 0xA8, 0x0B, 0x01, 0x4C,
        0x20, 0xB5, 0xCD, 0x72, 0x57, 0xE2, 0xB8, 0xB1, 0x5D, 0x21, 0xD7, 0xA3, 0x82, 0x35, 0x81,
        0xA0, 0xF5]
    else
      [0x3F, 0xEE, 0x2D, 0xA2, 0x19, 0x0C, 0x5F, 0x00, 0x71, 0x78, 0x9B, 0x2E, 0x6B, 0xA6, 0xEB,
        0x23, 0x3F, 0x62, 0x1C, 0xFC, 0xC2, 0xEF, 0x5A, 0xD3, 0x71, 0x53, 0xB7, 0x8D, 0x32, 0x46,
        0x17, 0x92]
  dumps := fun payload => .ok (payload.sortKeys.write Json.escapeAscii)
  loads := fun encoded =>
    if encoded = [0x7B, 0x22, 0x61, 0x22, 0x3A, 0x31, 0x7D] then
      .ok loginState
    else
      .error ⟨.valueError, "Expecting value: line 1 column 1 (char 0)"⟩

/-- A directory service without a token. -/
def developmentSettings : DirectoryUiSettings where
  serviceToken := none

/-- The digits of that object, and their signature. -/
def loginCookie : List CodePoint :=
  ofChars "eyJhIjoxfQ".toList ++ 0x2E :: signature developmentLibrary developmentSettings
    (bytes (ofChars "eyJhIjoxfQ".toList))

/-- A value, an object, and the cookie of that object, which is read as the object. -/
theorem cookiesHold_development :
  CookiesHold developmentLibrary developmentSettings [0x61, 0x62, 0x63] loginState (some loginCookie)
    ∧ decodeSignedJsonCookie developmentLibrary developmentSettings (some loginCookie)
      = .ok (some loginState)
  := by
  have hsorted : loginState.sortKeys = loginState := by
    simp [loginState, Json.sortKeys, Json.sortFields]
  have hsigned : IsSigned developmentLibrary developmentSettings (some loginCookie)
      (ofChars "eyJhIjoxfQ".toList) := ⟨by decide, rfl⟩
  have hread : decodeSignedJsonCookie developmentLibrary developmentSettings (some loginCookie)
      = .ok (some loginState) := by
    rw [decodeSignedJsonCookie_eq (decodeSignedValue_of_isSigned hsigned)]
    rfl
  refine ⟨?_, hread⟩
  apply (cookiesHold_iff developmentLibrary developmentSettings [0x61, 0x62, 0x63] loginState
    loginState (some loginCookie) rfl rfl (by rw [hsorted]; rfl) rfl).mpr
  constructor
  · decide
  · exact exists_decodeSignedJsonCookie.mp ⟨_, hread⟩

/-- A letter, a dot and an accented character. -/
def accentedCookie : List CodePoint :=
  [0x61, 0x2E, 0xE9]

/-- The comparison of a signature that is not ASCII raises an exception. -/
theorem accentedCookie_raises :
  ¬ ∃ decoded, decodeSignedValue developmentLibrary developmentSettings (some accentedCookie)
    = .ok decoded
  := by
  rintro ⟨decoded, hdecoded⟩
  obtain ⟨hcomparable, -⟩ := decodeSignedValue_eq_ok hdecoded
  have hsplit : (some accentedCookie).bind rsplitDot = some ([0x61], [0xE9]) := by
    rw [Option.bind_some]
    exact rsplitDot_append [0x61] (by decide)
  have hascii : ¬ IsAscii [0xE9] := by decide
  exact hascii (hcomparable [0x61] [0xE9] hsplit).2

end GoblinKing.DirectoryUi
