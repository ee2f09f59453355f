import Mathlib.Data.List.Infix
import Mathlib.Data.List.TakeWhile
import Mathlib.Data.Nat.Notation
import Mathlib.Tactic.Cases
import Mathlib.Tactic.Use

/-!
# UTF-8

Texts of code points, among them the surrogates, which have no bytes, and the decoder that reads
bytes one at a time. The decoder reports an error for every maximal part of a character that
cannot be completed; the reader of a text puts a replacement character there, or gives up.

The bytes of a text from some byte on are continuation bytes of the character that is cut, and the
bytes of the characters after it. The decoder reads every such continuation byte as an error.
-/

namespace Utf8

/-- A code point. It may be a surrogate. -/
abbrev CodePoint := Fin 0x110000

instance instNeZeroCodePoints : @NeZero ℕ Zero.ofOfNat0 0x110000 :=
  ⟨Nat.succ_ne_zero _⟩

instance instLawfulBEqCodePoint : LawfulBEq CodePoint :=
  inferInstance

/-- Half of a pair of UTF-16, which UTF-8 has no bytes for. -/
def IsSurrogate (c : CodePoint) : Prop :=
  0xD800 ≤ c.val ∧ c.val < 0xE000

instance : DecidablePred IsSurrogate :=
  fun _ => inferInstanceAs (Decidable (_ ∧ _))

/-- A text without surrogates. -/
def Encodable (text : List CodePoint) : Prop :=
  ∀ c ∈ text, ¬ IsSurrogate c

instance : DecidablePred Encodable :=
  fun text => List.decidableBAll _ text

/-- What stands for bytes that are not UTF-8. -/
def replacement : CodePoint := 0xFFFD

/-- The code points of characters. -/
def ofChars (text : List Char) : List CodePoint :=
  text.map (fun c => Fin.ofNat _ c.toNat)

/-! ### Encoding -/

/-- A byte of a character after its first one, with six bits of the code point. -/
def continuation (bits : ℕ) : UInt8 :=
  .ofNat (0x80 + bits % 64)

/-- The bytes of a code point. -/
def encodeChar (c : CodePoint) : List UInt8 :=
  if c.val < 0x80 then
    [.ofNat c.val]
  else if c.val < 0x800 then
    [.ofNat (0xC0 + c.val / 64), continuation c.val]
  else if c.val < 0x10000 then
    [.ofNat (0xE0 + c.val / 4096), continuation (c.val / 64), continuation c.val]
  else
    [.ofNat (0xF0 + c.val / 262144), continuation (c.val / 4096), continuation (c.val / 64),
      continuation c.val]

/-- The bytes of the code points of a text, one after the other. -/
def bytes (text : List CodePoint) : List UInt8 :=
  text.flatMap encodeChar

/-- The size of a text in bytes. -/
def size (text : List CodePoint) : ℕ :=
  (bytes text).length

/-- The encoding of a text; none if it has a surrogate. -/
def encode : List CodePoint → Option (List UInt8)
  | [] => some []
  | c :: text => if IsSurrogate c then none else (encode text).map (encodeChar c ++ ·)

@[simp]
theorem bytes_nil :
  bytes [] = []
  := rfl

@[simp]
theorem bytes_cons (c : CodePoint) (text : List CodePoint) :
  bytes (c :: text) = encodeChar c ++ bytes text
  := rfl

@[simp]
theorem bytes_append (text text' : List CodePoint) :
  bytes (text ++ text') = bytes text ++ bytes text'
  := List.flatMap_append

theorem length_bytes (text : List CodePoint) :
  (bytes text).length = size text
  := rfl

@[simp]
theorem size_nil :
  size [] = 0
  := rfl

@[simp]
theorem size_cons (c : CodePoint) (text : List CodePoint) :
  size (c :: text) = (encodeChar c).length + size text
  := by
  simp [size]

@[simp]
theorem size_append (text text' : List CodePoint) :
  size (text ++ text') = size text + size text'
  := by
  simp [size]

theorem length_encodeChar_pos (c : CodePoint) :
  0 < (encodeChar c).length
  := by
  unfold encodeChar
  split_ifs <;> simp

theorem length_encodeChar_le (c : CodePoint) :
  (encodeChar c).length ≤ 4
  := by
  unfold encodeChar
  split_ifs <;> simp

theorem size_eq_zero {text : List CodePoint} :
  size text = 0 ↔ text = []
  := by
  cases text with
  | nil => simp
  | cons c text =>
    have hpos := length_encodeChar_pos c
    simp only [size_cons, reduceCtorEq, iff_false]
    omega

theorem Encodable.of_suffix {text text' : List CodePoint} (h : Encodable text)
    (hsuffix : text' <:+ text) :
  Encodable text'
  := fun c hc => h c (hsuffix.subset hc)

theorem encodable_cons {c : CodePoint} {text : List CodePoint} :
  Encodable (c :: text) ↔ ¬ IsSurrogate c ∧ Encodable text
  := List.forall_mem_cons

theorem encode_of_encodable {text : List CodePoint} (h : Encodable text) :
  encode text = some (bytes text)
  := by
  induction text with
  | nil => rfl
  | cons c text ih =>
    obtain ⟨hc, htext⟩ := encodable_cons.mp h
    rw [encode, if_neg hc, ih htext]
    rfl

theorem encode_of_not_encodable {text : List CodePoint} (h : ¬ Encodable text) :
  encode text = none
  := by
  induction text with
  | nil =>
    apply absurd _ h
    simp [Encodable]
  | cons c text ih =>
    rw [encode]
    split_ifs with hc
    · rfl
    · have htext : ¬ Encodable text := fun htext => h (encodable_cons.mpr ⟨hc, htext⟩)
      rw [ih htext]
      rfl

theorem size_replicate_replacement (n : ℕ) :
  size (List.replicate n replacement) = 3 * n
  := by
  induction n with
  | zero => rfl
  | succ n ih =>
    have hchar : (encodeChar replacement).length = 3 := by decide
    rw [List.replicate_succ, size_cons, hchar, ih]
    omega

/-! ### Decoding -/

/-- Where the decoder is: between two characters, or within one of which, after the next byte, some
bytes are missing. It has read some bits of the code point, and the next byte has to be between two
bounds. -/
inductive Decoder where
  | between
  | within (missing bits low high : ℕ)
  deriving DecidableEq, Repr

namespace Decoder

/-- Read a byte between two characters. -/
def start (byte : ℕ) : List (Option CodePoint) × Decoder :=
  if byte < 0x80 then
    ([some (Fin.ofNat _ byte)], .between)
  else if 0xC2 ≤ byte ∧ byte < 0xE0 then
    ([], .within 0 (byte - 0xC0) 0x80 0xC0)
  else if 0xE0 ≤ byte ∧ byte < 0xF0 then
    ([], .within 1 (byte - 0xE0)
      -- the bytes of fewer than three bytes' code points, and of the surrogates, are refused
      (if byte = 0xE0 then 0xA0 else 0x80) (if byte = 0xED then 0xA0 else 0xC0))
  else if 0xF0 ≤ byte ∧ byte < 0xF5 then
    ([], .within 2 (byte - 0xF0)
      (if byte = 0xF0 then 0x90 else 0x80) (if byte = 0xF4 then 0x90 else 0xC0))
  else
    ([none], .between)

/-- Read a byte. -/
def step : Decoder → ℕ → List (Option CodePoint) × Decoder
  | .between, byte => start byte
  | .within missing bits low high, byte =>
      if low ≤ byte ∧ byte < high then
        match missing with
        | 0 => ([some (Fin.ofNat _ (bits * 64 + byte % 64))], .between)
        | missing + 1 => ([], .within missing (bits * 64 + byte % 64) 0x80 0xC0)
      else
        (none :: (start byte).1, (start byte).2)

/-- What is reported at the end of the bytes. -/
def finish : Decoder → List (Option CodePoint)
  | .between => []
  | .within _ _ _ _ => [none]

/-- Read bytes to their end. Errors are reported as `none`. -/
def run : Decoder → List UInt8 → List (Option CodePoint)
  | decoder, [] => decoder.finish
  | decoder, byte :: rest =>
      (decoder.step byte.toNat).1 ++ run (decoder.step byte.toNat).2 rest

end Decoder

/-- Decode, with a replacement character for every error. -/
def decodeReplace (b : List UInt8) : List CodePoint :=
  (Decoder.between.run b).map (·.getD replacement)

/-- Decode; none if there is an error. -/
def decode (b : List UInt8) : Option (List CodePoint) :=
  (Decoder.between.run b).mapM id

/-- A byte that cannot begin a character, and may be within one. -/
def IsContinuation (byte : UInt8) : Bool :=
  decide (0x80 ≤ byte.toNat ∧ byte.toNat < 0xC0)

@[simp]
theorem toNat_continuation (bits : ℕ) :
  (continuation bits).toNat = 0x80 + bits % 64
  := by
  have hbits : bits % 64 < 64 := Nat.mod_lt _ (by omega)
  simp only [continuation, UInt8.toNat_ofNat']
  omega

@[simp]
theorem isContinuation_continuation (bits : ℕ) :
  IsContinuation (continuation bits) = true
  := by
  have hbits : bits % 64 < 64 := Nat.mod_lt _ (by omega)
  simp only [IsContinuation, toNat_continuation, decide_eq_true_eq]
  omega

namespace Decoder

@[simp]
theorem run_nil (decoder : Decoder) :
  decoder.run [] = decoder.finish
  := rfl

theorem run_cons (decoder : Decoder) (byte : UInt8) (rest : List UInt8) :
  decoder.run (byte :: rest)
    = (decoder.step byte.toNat).1 ++ (decoder.step byte.toNat).2.run rest
  := rfl

/-- Within a character, the last byte completes it. -/
theorem run_last {bits low high n : ℕ} (hlow : low ≤ 0x80 + n % 64) (hhigh : 0x80 + n % 64 < high)
    (rest : List UInt8) :
  (within 0 bits low high).run (continuation n :: rest)
    = some (Fin.ofNat _ (bits * 64 + n % 64)) :: between.run rest
  := by
  have hmod : (0x80 + n % 64) % 64 = n % 64 := by omega
  rw [run_cons, toNat_continuation, step, if_pos ⟨hlow, hhigh⟩, hmod]
  rfl

/-- Within a character, a byte before the last one adds to its bits. -/
theorem run_more {missing bits low high n : ℕ} (hlow : low ≤ 0x80 + n % 64)
    (hhigh : 0x80 + n % 64 < high) (rest : List UInt8) :
  (within (missing + 1) bits low high).run (continuation n :: rest)
    = (within missing (bits * 64 + n % 64) 0x80 0xC0).run rest
  := by
  have hmod : (0x80 + n % 64) % 64 = n % 64 := by omega
  rw [run_cons, toNat_continuation, step, if_pos ⟨hlow, hhigh⟩, hmod]
  rfl

/-- Reading the bytes of a character gives the character. -/
theorem run_encodeChar {c : CodePoint} (h : ¬ IsSurrogate c) (rest : List UInt8) :
  between.run (encodeChar c ++ rest) = some c :: between.run rest
  := by
  have hc := c.isLt
  unfold IsSurrogate at h
  unfold encodeChar
  split_ifs with h₁ h₂ h₃
  · have hbyte : c.val % 256 = c.val := by omega
    have hchar : Fin.ofNat 0x110000 c.val = c := by
      ext
      apply Nat.mod_eq_of_lt hc
    rw [List.singleton_append, run_cons, UInt8.toNat_ofNat', hbyte, step, start, if_pos h₁, hchar]
    rfl
  · have hbyte : (0xC0 + c.val / 64) % 256 = 0xC0 + c.val / 64 := by omega
    have hlead : 0xC2 ≤ 0xC0 + c.val / 64 ∧ 0xC0 + c.val / 64 < 0xE0 := by omega
    have hchar : Fin.ofNat 0x110000 (c.val / 64 * 64 + c.val % 64) = c := by
      ext
      simp only [Fin.ofNat]
      omega
    rw [List.cons_append, run_cons, UInt8.toNat_ofNat', hbyte, step, start, if_neg (by omega),
      if_pos hlead, Nat.add_sub_cancel_left, List.nil_append, List.singleton_append,
      run_last (by omega) (by omega), hchar]
  · have hbyte : (0xE0 + c.val / 4096) % 256 = 0xE0 + c.val / 4096 := by omega
    have hlead : 0xE0 ≤ 0xE0 + c.val / 4096 ∧ 0xE0 + c.val / 4096 < 0xF0 := by omega
    have hchar : Fin.ofNat 0x110000
        ((c.val / 4096 * 64 + c.val / 64 % 64) * 64 + c.val % 64) = c := by
      ext
      simp only [Fin.ofNat]
      omega
    rw [List.cons_append, run_cons, UInt8.toNat_ofNat', hbyte, step, start, if_neg (by omega),
      if_neg (by omega), if_pos hlead, Nat.add_sub_cancel_left, List.nil_append, List.cons_append,
      run_more (by split_ifs <;> omega) (by split_ifs <;> omega), List.singleton_append,
      run_last (by omega) (by omega), hchar]
  · have hbyte : (0xF0 + c.val / 262144) % 256 = 0xF0 + c.val / 262144 := by omega
    have hlead : 0xF0 ≤ 0xF0 + c.val / 262144 ∧ 0xF0 + c.val / 262144 < 0xF5 := by omega
    have hchar : Fin.ofNat 0x110000 (((c.val / 262144 * 64 + c.val / 4096 % 64) * 64
        + c.val / 64 % 64) * 64 + c.val % 64) = c := by
      ext
      simp only [Fin.ofNat]
      omega
    rw [List.cons_append, run_cons, UInt8.toNat_ofNat', hbyte, step, start, if_neg (by omega),
      if_neg (by omega), if_neg (by omega), if_pos hlead, Nat.add_sub_cancel_left, List.nil_append,
      List.cons_append, run_more (by split_ifs <;> omega) (by split_ifs <;> omega),
      List.cons_append, run_more (by omega) (by omega), List.singleton_append,
      run_last (by omega) (by omega), hchar]

/-- Reading the bytes of a text gives its characters. -/
theorem run_bytes {text : List CodePoint} (h : Encodable text) (rest : List UInt8) :
  between.run (bytes text ++ rest) = text.map some ++ between.run rest
  := by
  induction text with
  | nil => rfl
  | cons c text ih =>
    obtain ⟨hc, htext⟩ := List.forall_mem_cons.mp h
    rw [bytes_cons, List.append_assoc, run_encodeChar hc, ih htext]
    rfl

/-- Between two characters, every continuation byte is an error. -/
theorem run_continuations {strays : List UInt8} (h : ∀ b ∈ strays, IsContinuation b = true)
    (rest : List UInt8) :
  between.run (strays ++ rest) = List.replicate strays.length none ++ between.run rest
  := by
  induction strays with
  | nil => rfl
  | cons b strays ih =>
    obtain ⟨hb, hstrays⟩ := List.forall_mem_cons.mp h
    simp only [IsContinuation, decide_eq_true_eq] at hb
    rw [List.cons_append, run_cons, step, start, if_neg (by omega), if_neg (by omega),
      if_neg (by omega), if_neg (by omega), ih hstrays]
    rfl

end Decoder

/-! ### What is decoded is encodable -/

namespace Decoder

/-- What the bytes of a character have to be for the decoder to be within it: the bits read so far
do not lead to a surrogate, nor beyond the last code point. -/
def Sound : Decoder → Prop
  | .between => True
  | .within 0 bits low high =>
      bits < 0x4400 ∧ ¬ (0x360 ≤ bits ∧ bits < 0x380) ∧ 0x80 ≤ low ∧ high ≤ 0xC0
  | .within 1 bits low high => bits < 0x110 ∧ (bits = 13 → high ≤ 0xA0) ∧ 0x80 ≤ low ∧ high ≤ 0xC0
  | .within 2 bits low high =>
      bits ≤ 4 ∧ (bits = 0 → 0x90 ≤ low) ∧ (bits = 4 → high ≤ 0x90) ∧ 0x80 ≤ low ∧ high ≤ 0xC0
  | .within (_ + 3) _ _ _ => False

theorem not_isSurrogate_ofNat {n : ℕ} (hn : n < 0x110000) (h : ¬ (0xD800 ≤ n ∧ n < 0xE000)) :
  ¬ IsSurrogate (Fin.ofNat 0x110000 n)
  := by
  rw [IsSurrogate, Fin.val_ofNat, Nat.mod_eq_of_lt hn]
  exact h

theorem start_sound (byte : ℕ) :
  (start byte).2.Sound ∧ ∀ c, some c ∈ (start byte).1 → ¬ IsSurrogate c
  := by
  unfold start
  by_cases hascii : byte < 0x80
  · rw [if_pos hascii]
    use trivial
    intro c hc
    rw [List.mem_singleton, Option.some.injEq] at hc
    subst hc
    apply not_isSurrogate_ofNat (by omega) (by omega)
  rw [if_neg hascii]
  by_cases htwo : 0xC2 ≤ byte ∧ byte < 0xE0
  · rw [if_pos htwo]
    constructor
    · simp only [Sound]
      omega
    · simp
  rw [if_neg htwo]
  by_cases hthree : 0xE0 ≤ byte ∧ byte < 0xF0
  · rw [if_pos hthree]
    constructor
    · simp only [Sound]
      split_ifs <;> omega
    · simp
  rw [if_neg hthree]
  by_cases hfour : 0xF0 ≤ byte ∧ byte < 0xF5
  · rw [if_pos hfour]
    constructor
    · simp only [Sound]
      split_ifs <;> omega
    · simp
  · rw [if_neg hfour]
    simp [Sound]

theorem step_sound {decoder : Decoder} (h : decoder.Sound) (byte : ℕ) :
  (decoder.step byte).2.Sound ∧ ∀ c, some c ∈ (decoder.step byte).1 → ¬ IsSurrogate c
  := by
  cases decoder with
  | between => exact start_sound byte
  | within missing bits low high =>
    simp only [step]
    split_ifs with hbyte
    · match missing with
      | 0 =>
        obtain ⟨hbits, hsurrogate, hlow, hhigh⟩ := h
        use trivial
        intro c hc
        rw [List.mem_singleton, Option.some.injEq] at hc
        subst hc
        exact not_isSurrogate_ofNat (by omega) (by omega)
      | 1 =>
        obtain ⟨hbits, hsurrogate, hlow, hhigh⟩ := h
        constructor
        · simp only [Sound]
          omega
        · simp
      | 2 =>
        obtain ⟨hbits, hfirst, hlast, hlow, hhigh⟩ := h
        constructor
        · simp only [Sound]
          omega
        · simp
    · obtain ⟨hstart, hchars⟩ := start_sound byte
      use hstart
      intro c hc
      rw [List.mem_cons] at hc
      exact hchars c (hc.resolve_left (by simp))

theorem run_sound {decoder : Decoder} (h : decoder.Sound) (b : List UInt8) :
  ∀ c, some c ∈ decoder.run b → ¬ IsSurrogate c
  := by
  induction b generalizing decoder with
  | nil => cases decoder <;> simp [finish]
  | cons byte b ih =>
    obtain ⟨hstep, hchars⟩ := step_sound h byte.toNat
    intro c hc
    rw [run_cons, List.mem_append] at hc
    apply hc.elim (hchars c) (ih hstep c)

end Decoder

/-- What is decoded with replacements has an encoding. -/
theorem encodable_decodeReplace (b : List UInt8) :
  Encodable (decodeReplace b)
  := by
  intro c hc
  obtain ⟨o, ho, rfl⟩ := List.mem_map.mp hc
  cases o with
  | none => decide
  | some c =>
    have hsound : Decoder.between.Sound := trivial
    exact Decoder.run_sound hsound b c ho

/-! ### Round trips -/

/-- A text survives its encoding. -/
theorem decode_bytes {text : List CodePoint} (h : Encodable text) :
  decode (bytes text) = some text
  := by
  rw [decode, ← List.append_nil (bytes text), Decoder.run_bytes h, Decoder.run_nil,
    Decoder.finish, List.append_nil]
  induction text with
  | nil => rfl
  | cons c text ih =>
    rw [List.map_cons, List.mapM_cons, ih (List.forall_mem_cons.mp h).2]
    rfl

theorem decodeReplace_bytes {text : List CodePoint} (h : Encodable text) :
  decodeReplace (bytes text) = text
  := by
  rw [decodeReplace, ← List.append_nil (bytes text), Decoder.run_bytes h, Decoder.run_nil,
    Decoder.finish, List.append_nil, List.map_map]
  apply List.map_id

/-- Continuation bytes in front of an encoding are read as replacement characters. -/
theorem decodeReplace_continuations {strays : List UInt8} {text : List CodePoint}
    (hstrays : ∀ b ∈ strays, IsContinuation b = true) (h : Encodable text) :
  decodeReplace (strays ++ bytes text) = List.replicate strays.length replacement ++ text
  := by
  have htext := decodeReplace_bytes h
  unfold decodeReplace at htext ⊢
  rw [Decoder.run_continuations hstrays, List.map_append, List.map_replicate, htext]
  rfl

/-! ### The bytes of a text from some byte on -/

/-- The first byte of a character is no continuation byte, and the others are. -/
theorem encodeChar_eq_cons (c : CodePoint) :
  ∃ lead tail, encodeChar c = lead :: tail ∧ IsContinuation lead = false
    ∧ ∀ b ∈ tail, IsContinuation b = true
  := by
  have hc := c.isLt
  unfold encodeChar
  split_ifs <;>
  · refine ⟨_, _, rfl, ?_, by simp⟩
    simp only [IsContinuation, UInt8.toNat_ofNat', decide_eq_false_iff_not]
    omega

/-- A text does not begin with a continuation byte. -/
theorem takeWhile_bytes (text : List CodePoint) :
  (bytes text).takeWhile IsContinuation = []
  := by
  cases text with
  | nil => rfl
  | cons c text =>
    obtain ⟨lead, tail, hchar, hlead, -⟩ := encodeChar_eq_cons c
    rw [bytes_cons, hchar, List.cons_append, List.takeWhile_cons_of_neg (by simp [hlead])]

/-- What is left of a text behind some bytes of it: the other bytes of the character that is cut,
and the characters behind it. -/
structure Cut (text : List CodePoint) (dropped : ℕ) (strays : List UInt8)
    (rest : List CodePoint) : Prop where
  drop : (bytes text).drop dropped = strays ++ bytes rest
  continuations : ∀ b ∈ strays, IsContinuation b = true
  suffix : rest <:+ text
  within : strays ≠ [] →
    ∃ front c, text = front ++ c :: rest ∧ strays.length < (encodeChar c).length

theorem exists_cut (text : List CodePoint) (dropped : ℕ) :
  ∃ strays rest, Cut text dropped strays rest
  := by
  induction text generalizing dropped with
  | nil =>
    use [], []
    constructor
    · simp
    · simp
    · simp
    · simp
  | cons c text ih =>
    by_cases hfirst : dropped = 0
    · use [], c :: text
      constructor
      · simp [hfirst]
      · simp
      · simp
      · simp
    by_cases hin : dropped < (encodeChar c).length
    · -- the cut is within the first character
      obtain ⟨lead, tail, hchar, -, htail⟩ := encodeChar_eq_cons c
      use (encodeChar c).drop dropped, text
      constructor
      · rw [bytes_cons, List.drop_append_of_le_length hin.le]
      · obtain ⟨n, rfl⟩ := Nat.exists_eq_succ_of_ne_zero hfirst
        rw [hchar, List.drop_succ_cons]
        intro b hb
        exact htail b (List.mem_of_mem_drop hb)
      · exact List.suffix_cons c text
      · intro _
        use [], c
        use rfl
        rw [List.length_drop]
        omega
    · obtain ⟨strays, rest, hcut⟩ := ih (dropped - (encodeChar c).length)
      use strays, rest
      constructor
      · rw [bytes_cons, List.drop_append, List.drop_eq_nil_of_le (by omega), hcut.drop]
        rfl
      · exact hcut.continuations
      · exact hcut.suffix.trans (List.suffix_cons c text)
      · intro hstrays
        obtain ⟨front, c', rfl, hlength⟩ := hcut.within hstrays
        use c :: front, c'
        use rfl

namespace Cut

variable {text rest : List CodePoint} {dropped : ℕ} {strays : List UInt8}

/-- The continuation bytes at the cut, read off the bytes. -/
theorem takeWhile (h : Cut text dropped strays rest) :
  ((bytes text).drop dropped).takeWhile IsContinuation = strays
  := by
  rw [h.drop, List.takeWhile_append_of_pos h.continuations, takeWhile_bytes, List.append_nil]

theorem length (h : Cut text dropped strays rest) :
  size text - dropped = strays.length + size rest
  := by
  have hlength := congrArg List.length h.drop
  simpa [size] using hlength

/-- The decoder reads the bytes of the cut character as replacement characters. -/
theorem decodeReplace (h : Cut text dropped strays rest) (htext : Encodable text) :
  Utf8.decodeReplace ((bytes text).drop dropped)
    = List.replicate strays.length replacement ++ rest
  := by
  rw [h.drop, decodeReplace_continuations h.continuations (htext.of_suffix h.suffix)]

/-- Every end of the text that is not longer than what is left is behind the cut character. -/
theorem suffix_of_size_le (h : Cut text dropped strays rest) {tail : List CodePoint}
    (htail : tail <:+ text) (hsize : size tail ≤ size text - dropped) :
  tail <:+ rest
  := by
  rw [h.length] at hsize
  by_contra hnot
  obtain ⟨front, rfl⟩ := (List.suffix_or_suffix_of_suffix htail h.suffix).resolve_left hnot
  obtain ⟨front', c, rfl⟩ := front.eq_nil_or_concat.resolve_left (by
    rintro rfl
    exact hnot (List.suffix_refl _))
  have hpos := length_encodeChar_pos c
  rw [List.concat_eq_append, List.append_assoc, List.singleton_append, size_append, size_cons]
    at hsize
  by_cases hstrays : strays = []
  · rw [hstrays, List.length_nil] at hsize
    omega
  · obtain ⟨front'', c', htext, hlength⟩ := h.within hstrays
    have hend : c :: rest <:+ text := by
      apply List.IsSuffix.trans _ htail
      rw [List.concat_eq_append, List.append_assoc, List.singleton_append]
      apply List.suffix_append
    have hend' : c' :: rest <:+ text := by
      rw [htext]
      apply List.suffix_append
    have hsame : c :: rest = c' :: rest :=
      (List.suffix_of_suffix_length_le hend hend' le_rfl).eq_of_length rfl
    rw [(List.cons.inj hsame).1] at hsize
    omega

end Cut

/-! ### Characters, and where a character begins -/

/-- The characters of code points that are no surrogates. -/
def toChars (text : List CodePoint) : List Char :=
  text.map (fun c => Char.ofNat c.val)

theorem toNat_lt (c : Char) :
  c.toNat < 0x110000 ∧ ¬ (0xD800 ≤ c.toNat ∧ c.toNat < 0xE000)
  := by
  have hvalid := c.valid
  simp only [UInt32.isValidChar, Nat.isValidChar, Char.toNat] at hvalid ⊢
  omega

theorem val_ofChar (c : Char) :
  (Fin.ofNat 0x110000 c.toNat).val = c.toNat
  := Nat.mod_eq_of_lt (toNat_lt c).1

theorem encodable_ofChars (text : List Char) :
  Encodable (ofChars text)
  := by
  intro c hc
  obtain ⟨d, -, rfl⟩ := List.mem_map.mp hc
  rw [IsSurrogate, val_ofChar]
  exact (toNat_lt d).2

theorem toChars_ofChars (text : List Char) :
  toChars (ofChars text) = text
  := by
  rw [toChars, ofChars, List.map_map]
  have hchar : ∀ c ∈ text,
      ((fun c : CodePoint => Char.ofNat c.val) ∘ fun c : Char => Fin.ofNat _ c.toNat) c = id c := by
    intro c _
    rw [Function.comp_apply, val_ofChar, Char.ofNat_toNat, id]
  rw [List.map_congr_left hchar, List.map_id]

theorem ofChars_injective :
  Function.Injective ofChars
  := Function.LeftInverse.injective toChars_ofChars

theorem ofChars_toChars {text : List CodePoint} (h : Encodable text) :
  ofChars (toChars text) = text
  := by
  rw [toChars, ofChars, List.map_map]
  have hchar : ∀ c ∈ text,
      ((fun c : Char => Fin.ofNat 0x110000 c.toNat) ∘ fun c : CodePoint => Char.ofNat c.val) c
        = id c := by
    intro c hc
    have hvalid : c.val.isValidChar := by
      have hsurrogate := h c hc
      have hlt := c.isLt
      unfold IsSurrogate at hsurrogate
      unfold Nat.isValidChar
      omega
    have hnat : (Char.ofNat c.val).toNat = c.val := by
      rw [Char.ofNat, dif_pos hvalid]
      rfl
    rw [Function.comp_apply, id, hnat]
    ext
    exact Nat.mod_eq_of_lt c.isLt
  rw [List.map_congr_left hchar, List.map_id]

theorem encodeChar_ofChar (c : Char) :
  encodeChar (Fin.ofNat _ c.toNat) = String.utf8EncodeChar c
  := by
  have hc := (toNat_lt c).1
  have hval : c.val.toNat = c.toNat := rfl
  simp only [encodeChar, String.utf8EncodeChar, val_ofChar, continuation, hval]
  generalize c.toNat = n at hc
  have hlt : ∀ m, n < m + 1 ↔ n ≤ m := fun m => Nat.lt_succ_iff
  simp only [hlt 0x7F, hlt 0x7FF, hlt 0xFFFF, Nat.add_comm 0x80]
  split_ifs with h₁ h₂ h₃
  · rfl
  · have hlead : 0xC0 + n / 64 = n / 64 % 0x20 + 0xC0 := by omega
    rw [hlead]
  · have hlead : 0xE0 + n / 4096 = n / 4096 % 0x10 + 0xE0 := by omega
    rw [hlead]
  · have hlead : 0xF0 + n / 262144 = n / 262144 % 0x08 + 0xF0 := by omega
    rw [hlead]

namespace Decoder

/-- Within a character, every byte that may follow is a continuation byte. -/
theorem Sound.bounds {missing bits low high : ℕ} (h : (within missing bits low high).Sound) :
  0x80 ≤ low ∧ high ≤ 0xC0
  := by
  match missing, h with
  | 0, h => exact h.2.2
  | 1, h => exact h.2.2
  | 2, h => exact h.2.2.2

/-- A character begins anew wherever the decoder is. -/
theorem run_append_encodeChar {decoder : Decoder} (hsound : decoder.Sound) (b : List UInt8)
    {c : CodePoint} (hc : ¬ IsSurrogate c) (rest : List UInt8) :
  decoder.run (b ++ (encodeChar c ++ rest)) = decoder.run b ++ some c :: between.run rest
  := by
  induction b generalizing decoder with
  | nil =>
    rw [List.nil_append, run_nil]
    cases decoder with
    | between => exact run_encodeChar hc rest
    | within missing bits low high =>
      have hbounds := hsound.bounds
      have hbetween := run_encodeChar hc rest
      obtain ⟨lead, tail, hchar, hlead, -⟩ := encodeChar_eq_cons c
      simp only [IsContinuation, decide_eq_false_iff_not] at hlead
      rw [hchar, List.cons_append, run_cons] at hbetween ⊢
      have hrefused : ¬ (low ≤ lead.toNat ∧ lead.toNat < high) := by omega
      simp only [step, if_neg hrefused, List.cons_append] at hbetween ⊢
      exact congrArg _ hbetween
  | cons byte b ih =>
    rw [List.cons_append, run_cons, run_cons, ih (step_sound hsound _).1, List.append_assoc]

/-- Within a character, one error more can be reported than between two characters. -/
theorem length_run_le {decoder : Decoder} (hsound : decoder.Sound) (b : List UInt8) :
  (decoder.run b).length ≤ (between.run b).length + 1
  := by
  induction b generalizing decoder with
  | nil => cases decoder <;> simp [finish]
  | cons byte b ih =>
    cases decoder with
    | between => exact Nat.le_succ _
    | within missing bits low high =>
      have hbounds := hsound.bounds
      have hnext := ih (step_sound hsound byte.toNat).1
      rw [run_cons, run_cons]
      simp only [step] at hnext ⊢
      split_ifs at hnext ⊢ with hbyte
      · have herror : start byte.toNat = ([none], between) := by
          rw [start, if_neg (by omega), if_neg (by omega), if_neg (by omega), if_neg (by omega)]
        rw [herror]
        cases missing with
        | zero => simp
        | succ missing =>
          simp only [List.nil_append, List.singleton_append, List.length_cons] at hnext ⊢
          omega
      · simp

end Decoder

/-- Bytes are decoded to at most as many characters. -/
theorem length_decodeReplace_cons_le (byte : UInt8) (b : List UInt8) :
  (decodeReplace (byte :: b)).length ≤ (decodeReplace b).length + 1
  := by
  have hstart := (Decoder.start_sound byte.toNat).1
  have hone : (Decoder.start byte.toNat).1.length ≤ 1
      ∧ ((Decoder.start byte.toNat).2 ≠ .between → (Decoder.start byte.toNat).1 = []) := by
    unfold Decoder.start
    split_ifs <;> simp
  rw [decodeReplace, decodeReplace, List.length_map, List.length_map, Decoder.run_cons, Decoder.step,
    List.length_append]
  by_cases hbetween : (Decoder.start byte.toNat).2 = .between
  · rw [hbetween]
    omega
  · rw [hone.2 hbetween]
    simpa using Decoder.length_run_le hstart b

/-- A text is decoded in two where a character begins. -/
theorem decodeReplace_append_encodeChar (b : List UInt8) {c : CodePoint} (hc : ¬ IsSurrogate c)
    (rest : List UInt8) :
  decodeReplace (b ++ (encodeChar c ++ rest)) = decodeReplace b ++ c :: decodeReplace rest
  := by
  have hsound : Decoder.between.Sound := trivial
  rw [decodeReplace, Decoder.run_append_encodeChar hsound b hc rest, List.map_append]
  rfl

end Utf8
