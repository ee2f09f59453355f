import Mathlib.Data.List.DropRight
import Mathlib.Data.Nat.Notation
import Mathlib.Tactic.IntervalCases

/-!
# Base64

The encoding of bytes in digits of six bits, in the alphabet that is safe in URLs, and a lenient
decoder. The decoder skips what is no digit. It stops at padding that completes four digits, and
fails when the digits end elsewhere. It reads back what was encoded, also when the padding was taken
away in between and put back.
-/

namespace Base64

/-- The padding character. -/
def pad : UInt8 := 0x3D

/-- The digit for six bits. -/
def digit (n : ℕ) : UInt8 :=
  .ofNat (if n < 26 then 0x41 + n
    else if n < 52 then 0x61 + (n - 26)
    else if n < 62 then 0x30 + (n - 52)
    else if n = 62 then 0x2D
    else 0x5F)

/-- The six bits of a digit. The alphabet that is not safe in URLs has two other digits. -/
def sextet (byte : UInt8) : Option ℕ :=
  if 0x41 ≤ byte ∧ byte ≤ 0x5A then some (byte.toNat - 0x41)
  else if 0x61 ≤ byte ∧ byte ≤ 0x7A then some (byte.toNat - 0x61 + 26)
  else if 0x30 ≤ byte ∧ byte ≤ 0x39 then some (byte.toNat - 0x30 + 52)
  else if byte = 0x2D ∨ byte = 0x2B then some 62
  else if byte = 0x5F ∨ byte = 0x2F then some 63
  else none

/-- The digits of bytes. -/
def digits : List UInt8 → List UInt8
  | a :: b :: c :: rest =>
      digit (a.toNat / 4) :: digit (a.toNat % 4 * 16 + b.toNat / 16)
        :: digit (b.toNat % 16 * 4 + c.toNat / 64) :: digit (c.toNat % 64) :: digits rest
  | [a, b] =>
      [digit (a.toNat / 4), digit (a.toNat % 4 * 16 + b.toNat / 16), digit (b.toNat % 16 * 4)]
  | [a] => [digit (a.toNat / 4), digit (a.toNat % 4 * 16)]
  | [] => []

/-- The padding behind a number of digits. -/
def padding (length : ℕ) : List UInt8 :=
  List.replicate ((4 - length % 4) % 4) pad

/-- The digits of bytes, with padding up to a multiple of four. -/
def encode (bytes : List UInt8) : List UInt8 :=
  digits bytes ++ padding (digits bytes).length

/-- What the decoder has of the four digits it is within: how many they are, the bits that have not
gone into a byte, and how many paddings came in a row. -/
structure Quad where
  position : ℕ
  left : ℕ
  pads : ℕ

/-- Between four digits and the next ones. -/
def Quad.start : Quad where
  position := 0
  left := 0
  pads := 0

/-- Read a digit. -/
def Quad.next (quad : Quad) (n : ℕ) : List UInt8 × Quad :=
  match quad.position with
  | 0 => ([], ⟨1, n, 0⟩)
  | 1 => ([.ofNat (quad.left * 4 + n / 16)], ⟨2, n % 16, 0⟩)
  | 2 => ([.ofNat (quad.left * 16 + n / 4)], ⟨3, n % 4, 0⟩)
  | _ => ([.ofNat (quad.left * 64 + n)], .start)

/-- Decode the rest of a text; none where the digits end too early. -/
def Quad.decode (quad : Quad) : List UInt8 → Option (List UInt8)
  | [] => if quad.position = 0 then some [] else none
  | byte :: rest =>
      if byte = pad then
        if 2 ≤ quad.position then
          if 4 ≤ quad.position + (quad.pads + 1) then
            some []
          else
            Quad.decode { quad with pads := quad.pads + 1 } rest
        else
          Quad.decode quad rest
      else
        match sextet byte with
        | none => Quad.decode quad rest
        | some n => ((quad.next n).2.decode rest).map ((quad.next n).1 ++ ·)

/-- Decode a text. -/
def decode (text : List UInt8) : Option (List UInt8) :=
  Quad.start.decode text

/-! ### Round trips -/

theorem sextet_digit {n : ℕ} (h : n < 64) :
  sextet (digit n) = some n
  := by
  interval_cases n <;> rfl

theorem digit_ne_pad {n : ℕ} (h : n < 64) :
  digit n ≠ pad
  := by
  interval_cases n <;> decide

theorem decode_digit (quad : Quad) {n : ℕ} (h : n < 64) (rest : List UInt8) :
  quad.decode (digit n :: rest) = ((quad.next n).2.decode rest).map ((quad.next n).1 ++ ·)
  := by
  rw [Quad.decode, if_neg (digit_ne_pad h), sextet_digit h]

theorem decode_first {n : ℕ} (h : n < 64) (rest : List UInt8) :
  Quad.start.decode (digit n :: rest) = (Quad.mk 1 n 0).decode rest
  := by
  rw [decode_digit _ h]
  apply Option.map_id'

theorem decode_second (left pads : ℕ) {n : ℕ} (h : n < 64) (rest : List UInt8) :
  (Quad.mk 1 left pads).decode (digit n :: rest)
    = ((Quad.mk 2 (n % 16) 0).decode rest).map (.ofNat (left * 4 + n / 16) :: ·)
  := decode_digit _ h rest

theorem decode_third (left pads : ℕ) {n : ℕ} (h : n < 64) (rest : List UInt8) :
  (Quad.mk 2 left pads).decode (digit n :: rest)
    = ((Quad.mk 3 (n % 4) 0).decode rest).map (.ofNat (left * 16 + n / 4) :: ·)
  := decode_digit _ h rest

theorem decode_fourth (left pads : ℕ) {n : ℕ} (h : n < 64) (rest : List UInt8) :
  (Quad.mk 3 left pads).decode (digit n :: rest)
    = (Quad.start.decode rest).map (.ofNat (left * 64 + n) :: ·)
  := decode_digit _ h rest

theorem ofNat_eq {n : ℕ} {byte : UInt8} (h : n = byte.toNat) :
  UInt8.ofNat n = byte
  := by
  rw [h, UInt8.ofNat_toNat]

/-- The decoder reads back what was encoded. -/
theorem decode_encode (bytes : List UInt8) :
  decode (encode bytes) = some bytes
  := by
  unfold decode encode
  induction bytes using digits.induct with
  | case1 a b c rest ih =>
    have ha := a.toNat_lt
    have hb := b.toNat_lt
    have hc := c.toNat_lt
    have hfirst : UInt8.ofNat (a.toNat / 4 * 4 + (a.toNat % 4 * 16 + b.toNat / 16) / 16) = a :=
      ofNat_eq (by omega)
    have hsecond : UInt8.ofNat ((a.toNat % 4 * 16 + b.toNat / 16) % 16 * 16
        + (b.toNat % 16 * 4 + c.toNat / 64) / 4) = b := ofNat_eq (by omega)
    have hthird : UInt8.ofNat ((b.toNat % 16 * 4 + c.toNat / 64) % 4 * 64 + c.toNat % 64) = c :=
      ofNat_eq (by omega)
    have hpadding : padding (digits (a :: b :: c :: rest)).length = padding (digits rest).length := by
      simp only [digits, List.length_cons, padding]
      congr 1
      omega
    rw [hpadding, digits]
    simp only [List.cons_append]
    rw [decode_first (by omega), decode_second _ _ (by omega), decode_third _ _ (by omega),
      decode_fourth _ _ (by omega), ih, hfirst, hsecond, hthird]
    rfl
  | case2 a b =>
    have ha := a.toNat_lt
    have hb := b.toNat_lt
    have hfirst : UInt8.ofNat (a.toNat / 4 * 4 + (a.toNat % 4 * 16 + b.toNat / 16) / 16) = a :=
      ofNat_eq (by omega)
    have hsecond : UInt8.ofNat ((a.toNat % 4 * 16 + b.toNat / 16) % 16 * 16
        + b.toNat % 16 * 4 / 4) = b := ofNat_eq (by omega)
    rw [digits]
    simp only [List.cons_append, List.nil_append]
    rw [decode_first (by omega), decode_second _ _ (by omega), decode_third _ _ (by omega), hfirst,
      hsecond]
    rfl
  | case3 a =>
    have ha := a.toNat_lt
    have hfirst : UInt8.ofNat (a.toNat / 4 * 4 + a.toNat % 4 * 16 / 16) = a :=
      ofNat_eq (by omega)
    rw [digits]
    simp only [List.cons_append, List.nil_append]
    rw [decode_first (by omega), decode_second _ _ (by omega), hfirst]
    rfl
  | case4 => rfl

/-- What holds of all digits holds of all characters of an encoding without padding. -/
theorem forall_mem_digits {P : UInt8 → Prop} (h : ∀ n < 64, P (digit n)) (bytes : List UInt8) :
  ∀ byte ∈ digits bytes, P byte
  := by
  induction bytes using digits.induct with
  | case1 a b c rest ih =>
    have ha := a.toNat_lt
    have hb := b.toNat_lt
    have hc := c.toNat_lt
    have hfirst := h (a.toNat / 4) (by omega)
    have hsecond := h (a.toNat % 4 * 16 + b.toNat / 16) (by omega)
    have hthird := h (b.toNat % 16 * 4 + c.toNat / 64) (by omega)
    have hfourth := h (c.toNat % 64) (by omega)
    simp only [digits, List.forall_mem_cons]
    use hfirst, hsecond, hthird, hfourth
  | case2 a b =>
    have ha := a.toNat_lt
    have hb := b.toNat_lt
    have hfirst := h (a.toNat / 4) (by omega)
    have hsecond := h (a.toNat % 4 * 16 + b.toNat / 16) (by omega)
    have hthird := h (b.toNat % 16 * 4) (by omega)
    simp only [digits, List.forall_mem_cons]
    use hfirst, hsecond, hthird
    exact fun _ h => absurd h List.not_mem_nil
  | case3 a =>
    have ha := a.toNat_lt
    have hfirst := h (a.toNat / 4) (by omega)
    have hsecond := h (a.toNat % 4 * 16) (by omega)
    simp only [digits, List.forall_mem_cons]
    use hfirst, hsecond
    exact fun _ h => absurd h List.not_mem_nil
  | case4 => exact fun _ h => absurd h List.not_mem_nil

theorem digits_ne_nil {bytes : List UInt8} (h : bytes ≠ []) :
  digits bytes ≠ []
  := by
  match bytes, h with
  | [a], _ => simp [digits]
  | [a, b], _ => simp [digits]
  | a :: b :: c :: rest, _ => simp [digits]

theorem toNat_digit_lt {n : ℕ} (h : n < 64) :
  (digit n).toNat < 0x80
  := by
  interval_cases n <;> decide

/-- An encoding is ASCII. -/
theorem encode_lt (bytes : List UInt8) :
  ∀ byte ∈ encode bytes, byte.toNat < 0x80
  := by
  rw [encode, List.forall_mem_append]
  use forall_mem_digits (fun n hn => toNat_digit_lt hn) bytes
  intro byte hbyte
  rw [List.eq_of_mem_replicate hbyte]
  decide

/-- Without the padding, the digits are left. -/
theorem rdropWhile_encode (bytes : List UInt8) :
  (encode bytes).rdropWhile (· = pad) = digits bytes
  := by
  rw [encode, padding]
  induction (4 - (digits bytes).length % 4) % 4 with
  | zero =>
    rw [List.replicate_zero, List.append_nil, List.rdropWhile_eq_self_iff]
    intro hne hlast
    rw [decide_eq_true_eq] at hlast
    have hpad : ∀ byte ∈ digits bytes, byte ≠ pad :=
      forall_mem_digits (fun n hn => digit_ne_pad hn) bytes
    exact hpad _ (List.getLast_mem hne) hlast
  | succ n ih =>
    rw [List.replicate_succ', ← List.append_assoc, List.rdropWhile_concat_pos _ _ _ (by simp), ih]

end Base64
