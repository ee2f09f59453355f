import GoblinKing.Library.Json
import Mathlib.Algebra.GroupWithZero.Nat
import Mathlib.Algebra.Order.BigOperators.Group.List
import Mathlib.Algebra.Order.Group.Nat
import Mathlib.Data.List.TakeWhile

/-!
# Reading JSON texts back

The text of a value can be split off the front of a longer text in one way only, where what follows it
does not go on like a number or a name. So the text determines the value when no string has a
surrogate in it, and with sorted keys it determines a dictionary. The size of a text in bytes is bounded
by the sizes of its parts.
-/

open Utf8

namespace Json

/-! ### The characters of strings -/

/-- The number of a hexadecimal digit. -/
def hexValue (c : CodePoint) : ℕ :=
  if c.val < 0x3A then c.val - 0x30 else c.val - 0x57

/-- The character of a short escape sequence, for the letter behind the backslash. -/
def shortCharacter (letter : CodePoint) : CodePoint :=
  if letter = 0x62 then 0x08
  else if letter = 0x74 then 0x09
  else if letter = 0x6E then 0x0A
  else if letter = 0x66 then 0x0C
  else if letter = 0x72 then 0x0D
  else letter

/-- The code unit at the front of a text, and the rest of the text. -/
def readUnit : List CodePoint → Option (ℕ × List CodePoint)
  | _ :: _ :: a :: b :: c :: d :: rest =>
      some (hexValue a * 4096 + hexValue b * 256 + hexValue c * 16 + hexValue d, rest)
  | _ => none

/-- The character of two code units. -/
def pairCharacter (high low : ℕ) : CodePoint :=
  Fin.ofNat _ (0x10000 + (high - 0xD800) * 0x400 + (low - 0xDC00))

/-- The character of a string at the front of a text in ASCII, and the rest of the text. -/
def readCharacter (text : List CodePoint) : Option (CodePoint × List CodePoint) :=
  match text with
  | [] => none
  | c :: rest =>
      if c ≠ 0x5C then
        some (c, rest)
      else
        match rest with
        | [] => none
        | letter :: rest =>
            if letter ≠ 0x75 then
              some (shortCharacter letter, rest)
            else
              (readUnit text).bind (fun (unit, rest) =>
                if 0xD800 ≤ unit ∧ unit < 0xDC00 then
                  (readUnit rest).map (fun (low, rest) => (pairCharacter unit low, rest))
                else
                  some (Fin.ofNat _ unit, rest))

theorem hexValue_hexDigit (n : ℕ) :
  hexValue (hexDigit n) = n % 16
  := by
  have hdigit : (hexDigit n).val = if n % 16 < 10 then 0x30 + n % 16 else 0x57 + n % 16 := by
    apply Nat.mod_eq_of_lt
    split <;> omega
  rw [hexValue, hdigit]
  split <;> split <;> omega

/-- A code unit is read from its escape sequence. -/
theorem readUnit_unicodeEscape {n : ℕ} (h : n < 0x10000) (rest : List CodePoint) :
  readUnit (unicodeEscape n ++ rest) = some (n, rest)
  := by
  have hvalue : n / 4096 % 16 * 4096 + n / 256 % 16 * 256 + n / 16 % 16 * 16 + n % 16 = n := by
    omega
  simp only [unicodeEscape, List.cons_append, List.nil_append, readUnit, hexValue_hexDigit, hvalue]

/-- A character is read from its short escape sequence. -/
theorem shortCharacter_shortEscape {c letter : CodePoint} (h : shortEscape c = some letter) :
  shortCharacter letter = c ∧ letter ≠ 0x75
  := by
  rw [shortEscape] at h
  split_ifs at h with hself <;> obtain rfl := Option.some.inj h
  · rcases hself with rfl | rfl <;> decide
  all_goals
    subst_vars
    decide

/-- After the escape sequence of a code unit, a high surrogate reads on. -/
theorem readCharacter_unicodeEscape {n : ℕ} (h : n < 0x10000) (rest : List CodePoint) :
  readCharacter (unicodeEscape n ++ rest)
    = if 0xD800 ≤ n ∧ n < 0xDC00 then
        (readUnit rest).map (fun (low, rest) => (pairCharacter n low, rest))
      else
        some (Fin.ofNat _ n, rest)
  := by
  have hread := readUnit_unicodeEscape h rest
  simp only [unicodeEscape, List.cons_append, List.nil_append] at hread ⊢
  simp only [readCharacter, ne_eq, not_true_eq_false, if_false, hread, Option.bind_some]

/-- A character that is not a surrogate is read from what is written for it. -/
theorem readCharacter_escapeAscii {c : CodePoint} (h : ¬ IsSurrogate c) (rest : List CodePoint) :
  readCharacter (escapeAscii c ++ rest) = some (c, rest)
  := by
  rw [IsSurrogate] at h
  rw [escapeAscii]
  cases hshort : shortEscape c with
  | some letter =>
      obtain ⟨hcharacter, hletter⟩ := shortCharacter_shortEscape hshort
      simp only [List.cons_append, List.nil_append, readCharacter, ne_eq, not_true_eq_false,
        if_false, hletter, not_false_eq_true, if_true, hcharacter]
  | none =>
      have hplain : c ≠ 0x5C := by
        rintro rfl
        cases hshort
      dsimp only
      split_ifs with hprintable hunit
      · simp only [List.cons_append, List.nil_append, readCharacter, ne_eq, hplain,
          not_false_eq_true, if_true]
      · have hhigh : ¬ (0xD800 ≤ c.val ∧ c.val < 0xDC00) := by omega
        rw [readCharacter_unicodeEscape hunit, if_neg hhigh]
        simp
      · have hlt := c.isLt
        have hhigh : 0xD800 ≤ 0xD800 + (c.val - 0x10000) / 0x400
            ∧ 0xD800 + (c.val - 0x10000) / 0x400 < 0xDC00 := by omega
        have hpair : pairCharacter (0xD800 + (c.val - 0x10000) / 0x400)
            (0xDC00 + (c.val - 0x10000) % 0x400) = c := by
          apply Fin.ext
          rw [pairCharacter, Fin.val_ofNat]
          omega
        rw [List.append_assoc, readCharacter_unicodeEscape (by omega), if_pos hhigh,
          readUnit_unicodeEscape (by omega), Option.map_some]
        exact congrArg (fun c => some (c, rest)) hpair

/-- A character that is not a surrogate is read from what is written for it outside of ASCII. -/
theorem readCharacter_escape {c : CodePoint} (h : ¬ IsSurrogate c) (rest : List CodePoint) :
  readCharacter (escape c ++ rest) = some (c, rest)
  := by
  rw [IsSurrogate] at h
  rw [escape]
  cases hshort : shortEscape c with
  | some letter =>
      obtain ⟨hcharacter, hletter⟩ := shortCharacter_shortEscape hshort
      simp only [List.cons_append, List.nil_append, readCharacter, ne_eq, not_true_eq_false,
        if_false, hletter, not_false_eq_true, if_true, hcharacter]
  | none =>
      have hplain : c ≠ 0x5C := by
        rintro rfl
        cases hshort
      dsimp only
      split_ifs with hcontrol
      · have hhigh : ¬ (0xD800 ≤ c.val ∧ c.val < 0xDC00) := by omega
        rw [readCharacter_unicodeEscape (by omega), if_neg hhigh]
        simp
      · simp only [List.cons_append, List.nil_append, readCharacter, ne_eq, hplain,
          not_false_eq_true, if_true]

/-! ### Strings -/

/-- What is written for the characters with a property is not a quotation mark, and can be split off
the front of a text in one way only. -/
structure Separates (esc : CodePoint → List CodePoint) (P : CodePoint → Prop) : Prop where
  unquoted : ∀ c, P c → ∀ rest rest', esc c ++ rest ≠ 0x22 :: rest'
  split : ∀ c d, P c → P d → ∀ rest rest', esc c ++ rest = esc d ++ rest' → c = d ∧ rest = rest'

variable {esc : CodePoint → List CodePoint} {P : CodePoint → Prop} {rest rest' : List CodePoint}

/-- Characters are separated when they are read from what is written for them, and a quotation mark is
escaped. -/
theorem separates_of_read
    (hread : ∀ c, ¬ IsSurrogate c → ∀ rest, readCharacter (esc c ++ rest) = some (c, rest))
    (hescaped : ∀ rest rest', esc 0x22 ++ rest ≠ 0x22 :: rest') :
  Separates esc (fun c => ¬ IsSurrogate c)
  := by
  constructor
  · intro c hc rest rest' h
    have hfirst := hread c hc rest
    have hquote : readCharacter (0x22 :: rest') = some (0x22, rest') := rfl
    rw [h, hquote] at hfirst
    obtain ⟨rfl, rfl⟩ := Prod.mk.inj (Option.some.inj hfirst)
    exact hescaped _ _ h
  · intro c d hc hd rest rest' h
    have hfirst := hread c hc rest
    rw [h, hread d hd rest'] at hfirst
    obtain ⟨rfl, rfl⟩ := Prod.mk.inj (Option.some.inj hfirst)
    exact ⟨rfl, rfl⟩

/-- ASCII separates the characters that are not surrogates. -/
theorem separates_escapeAscii :
  Separates escapeAscii (fun c => ¬ IsSurrogate c)
  := by
  apply separates_of_read
  · exact fun c hc rest => readCharacter_escapeAscii hc rest
  · intro rest rest' h
    simp [escapeAscii, shortEscape] at h

/-- The characters that are not surrogates are separated also where they are not restricted to
ASCII. -/
theorem separates_escape :
  Separates escape (fun c => ¬ IsSurrogate c)
  := by
  apply separates_of_read
  · exact fun c hc rest => readCharacter_escape hc rest
  · intro rest rest' h
    simp [escape, shortEscape] at h

/-- A string with its quotation marks can be split off in one way only. -/
theorem Separates.quoted (h : Separates esc P) {a b : List CodePoint} (ha : ∀ c ∈ a, P c)
    (hb : ∀ c ∈ b, P c) (heq : quoted esc a ++ rest = quoted esc b ++ rest') :
  a = b ∧ rest = rest'
  := by
  rw [Json.quoted, Json.quoted, List.cons_append, List.cons_append, List.append_assoc,
    List.append_assoc] at heq
  replace heq := List.tail_eq_of_cons_eq heq
  induction a generalizing b with
  | nil =>
      cases b with
      | nil => exact ⟨rfl, List.tail_eq_of_cons_eq heq⟩
      | cons d b =>
          rw [List.flatMap_cons, List.append_assoc] at heq
          exact absurd heq.symm (h.unquoted d (hb d List.mem_cons_self) _ _)
  | cons c a ih =>
      cases b with
      | nil =>
          rw [List.flatMap_cons, List.append_assoc] at heq
          exact absurd heq (h.unquoted c (ha c List.mem_cons_self) _ _)
      | cons d b =>
          rw [List.flatMap_cons, List.flatMap_cons, List.append_assoc, List.append_assoc] at heq
          obtain ⟨rfl, htail⟩ := h.split c d (ha c List.mem_cons_self) (hb d List.mem_cons_self) _ _ heq
          obtain ⟨rfl, hrest⟩ := ih (List.forall_mem_cons.mp ha).2 (List.forall_mem_cons.mp hb).2 htail
          exact ⟨rfl, hrest⟩

/-! ### Numbers -/

/-- The characters of integers. -/
def isNumberCharacter (c : CodePoint) : Bool :=
  decide (c = 0x2D ∨ 0x30 ≤ c.val ∧ c.val ≤ 0x39)

/-- A text that does not go on like a number. -/
def Delimited (rest : List CodePoint) : Prop :=
  ∀ c ∈ rest.head?, isNumberCharacter c = false

/-- The characters of an integer. -/
theorem isNumberCharacter_decimal (n : ℤ) :
  ∀ c ∈ decimal n, isNumberCharacter c = true
  := by
  have hdigits : ∀ n : ℕ, ∀ c ∈ ofChars (Nat.toDigits 10 n), isNumberCharacter c = true := by
    intro n c hc
    obtain ⟨d, hd, rfl⟩ := List.mem_map.mp hc
    have hdigit := Nat.isDigit_of_mem_toDigits (by decide) (by decide) hd
    rw [Char.isDigit, Bool.and_eq_true, decide_eq_true_iff, decide_eq_true_iff] at hdigit
    apply decide_eq_true
    rw [val_ofChar]
    exact .inr hdigit
  cases n with
  | ofNat n => exact hdigits n
  | negSucc n => exact List.forall_mem_cons.mpr ⟨by decide, hdigits (n + 1)⟩

/-- The digits of a number determine it. -/
theorem toDigits_injective {m n : ℕ} (h : ofChars (Nat.toDigits 10 m) = ofChars (Nat.toDigits 10 n)) :
  m = n
  := by
  have hdigits := congrArg toChars h
  rw [toChars_ofChars, toChars_ofChars] at hdigits
  rw [← Nat.ofDigitChars_ten_toDigits (n := m), hdigits, Nat.ofDigitChars_ten_toDigits]

/-- A number does not begin with a sign. -/
theorem toDigits_ne_negative (n : ℕ) (text : List CodePoint) :
  ofChars (Nat.toDigits 10 n) ≠ 0x2D :: text
  := by
  intro h
  have hsign : (0x2D : CodePoint) ∈ ofChars (Nat.toDigits 10 n) := h ▸ List.mem_cons_self
  obtain ⟨d, hd, hval⟩ := List.mem_map.mp hsign
  have hdigit := Nat.isDigit_of_mem_toDigits (by decide) (by decide) hd
  rw [Char.isDigit, Bool.and_eq_true, decide_eq_true_iff, decide_eq_true_iff] at hdigit
  have hnat := congrArg Fin.val hval
  rw [val_ofChar] at hnat
  have hlower : 0x30 ≤ d.toNat := hdigit.1
  rw [hnat] at hlower
  exact absurd hlower (by decide)

/-- The text of an integer determines it. -/
theorem decimal_injective :
  Function.Injective decimal
  := by
  intro m n h
  cases m with
  | ofNat m =>
      cases n with
      | ofNat n => exact congrArg Int.ofNat (toDigits_injective h)
      | negSucc n => exact absurd h (toDigits_ne_negative m _)
  | negSucc m =>
      cases n with
      | ofNat n => exact absurd h.symm (toDigits_ne_negative n _)
      | negSucc n =>
          have hsucc := toDigits_injective (List.tail_eq_of_cons_eq h)
          exact congrArg Int.negSucc (Nat.succ.inj hsucc)

/-- An integer can be split off in one way only, where what follows does not go on like a number. -/
theorem decimal_split {m n : ℤ} (hrest : Delimited rest) (hrest' : Delimited rest')
    (h : decimal m ++ rest = decimal n ++ rest') :
  m = n ∧ rest = rest'
  := by
  have htake : ∀ n : ℤ, ∀ rest, Delimited rest →
      (decimal n ++ rest).takeWhile isNumberCharacter = decimal n := by
    intro n rest hrest
    rw [List.takeWhile_append_of_pos (isNumberCharacter_decimal n)]
    cases rest with
    | nil => simp
    | cons c rest => simp [hrest c rfl]
  have hdecimal : decimal m = decimal n := by
    rw [← htake m rest hrest, h, htake n rest' hrest']
  rw [hdecimal] at h
  exact ⟨decimal_injective hdecimal, List.append_cancel_left h⟩

/-- The characters of integers, and those of floats with their names. -/
def isScalarCharacter (c : CodePoint) : Bool :=
  isNumberCharacter c
    || decide (c = 0x2B ∨ c = 0x2E ∨ 0x41 ≤ c.val ∧ c.val ≤ 0x5A ∨ 0x61 ≤ c.val ∧ c.val ≤ 0x7A)

/-- A text that does not go on like a number or a name. -/
def Apart (rest : List CodePoint) : Prop :=
  ∀ c ∈ rest.head?, isScalarCharacter c = false

theorem apart_nil :
  Apart []
  := by
  intro c hc
  cases hc

theorem Apart.delimited (h : Apart rest) :
  Delimited rest
  := by
  intro c hc
  exact (Bool.or_eq_false_iff.mp (h c hc)).1

/-- What is written with the characters of scalars ends where they end. -/
theorem Apart.takeWhile_append {text : List CodePoint} (hrest : Apart rest)
    (htext : ∀ c ∈ text, isScalarCharacter c = true) :
  (text ++ rest).takeWhile isScalarCharacter = text
  := by
  rw [List.takeWhile_append_of_pos htext]
  cases rest with
  | nil => simp
  | cons c rest => simp [hrest c rfl]

theorem isScalarCharacter_decimal (n : ℤ) :
  ∀ c ∈ decimal n, isScalarCharacter c = true
  := by
  intro c hc
  rw [isScalarCharacter, isNumberCharacter_decimal n c hc, Bool.true_or]

/-! ### Values -/

/-- A value without floats, whose strings and keys consist of characters with a property. -/
inductive Exact (P : CodePoint → Prop) : Json → Prop where
  | null : Exact P .null
  | bool (b : Bool) : Exact P (.bool b)
  | int (n : ℤ) : Exact P (.int n)
  | str {text : List CodePoint} (h : ∀ c ∈ text, P c) : Exact P (.str text)
  | arr {items : List Json} (h : ∀ item ∈ items, Exact P item) : Exact P (.arr items)
  | obj {fields : List (List CodePoint × Json)} (hkeys : ∀ field ∈ fields, ∀ c ∈ field.1, P c)
      (hvalues : ∀ field ∈ fields, Exact P field.2) : Exact P (.obj fields)

/-- What a text can stand for, by its first character. -/
inductive Shape where
  | null
  | true
  | false
  | number
  | string
  | array
  | object

/-- The shape of a value. -/
def shape : Json → Shape
  | .null => .null
  | .bool true => .true
  | .bool false => .false
  | .int _ | .float _ => .number
  | .str _ => .string
  | .arr _ => .array
  | .obj _ => .object

/-- The shape of what a text with a first character stands for. -/
def shapeOf (c : CodePoint) : Shape :=
  if c = 0x6E then .null
  else if c = 0x74 then .true
  else if c = 0x66 then .false
  else if c = 0x22 then .string
  else if c = 0x5B then .array
  else if c = 0x7B then .object
  else .number

/-- The text of a float: no integer, and with another first character than the texts of other values. -/
structure IsFloatText (text : List CodePoint) : Prop where
  scalar : ∀ c ∈ text, isScalarCharacter c = true
  fractional : ∃ c ∈ text, isNumberCharacter c = false
  number : ∀ c ∈ text.head?, shapeOf c = .number

/-- A value whose strings and keys consist of characters with a property. -/
inductive Legible (P : CodePoint → Prop) : Json → Prop where
  | null : Legible P .null
  | bool (b : Bool) : Legible P (.bool b)
  | int (n : ℤ) : Legible P (.int n)
  | float {text : FloatText} (h : IsFloatText text.val) : Legible P (.float text)
  | str {text : List CodePoint} (h : ∀ c ∈ text, P c) : Legible P (.str text)
  | arr {items : List Json} (h : ∀ item ∈ items, Legible P item) : Legible P (.arr items)
  | obj {fields : List (List CodePoint × Json)} (hkeys : ∀ field ∈ fields, ∀ c ∈ field.1, P c)
      (hvalues : ∀ field ∈ fields, Legible P field.2) : Legible P (.obj fields)

theorem Exact.legible {value : Json} (h : Exact P value) :
  Legible P value
  := by
  induction h with
  | null => exact .null
  | bool b => exact .bool b
  | int n => exact .int n
  | str htext => exact .str htext
  | arr _ ih => exact .arr ih
  | obj hkeys _ ih => exact .obj hkeys ih

theorem decimal_ne_nil (n : ℤ) :
  decimal n ≠ []
  := by
  cases n with
  | ofNat n => exact fun h => Nat.toDigits_ne_nil (List.map_eq_nil_iff.mp h)
  | negSucc n => exact List.cons_ne_nil _ _

/-- The first character of a text tells the shape of the value, and does not close an array. -/
theorem Legible.write_eq_cons {value : Json} (h : Legible P value) (esc : CodePoint → List CodePoint) :
  ∃ c text, write esc value = c :: text ∧ shapeOf c = value.shape ∧ c ≠ 0x5D
  := by
  cases h with
  | int n =>
      obtain ⟨c, text, hcons⟩ := List.exists_cons_of_ne_nil (decimal_ne_nil n)
      have hnumber := isNumberCharacter_decimal n c (hcons ▸ List.mem_cons_self)
      have hne : ∀ d : CodePoint, isNumberCharacter d = false → c ≠ d := by
        rintro d hd rfl
        rw [hnumber] at hd
        cases hd
      use c, text, hcons
      constructor
      · rw [shapeOf]
        iterate 6 rw [if_neg (hne _ (by decide))]
        rfl
      · exact hne _ (by decide)
  | float htext =>
      obtain ⟨c, hc, -⟩ := htext.fractional
      obtain ⟨d, text, hcons⟩ := List.exists_cons_of_ne_nil (List.ne_nil_of_mem hc)
      have hnumber : shapeOf d = .number := htext.number d (by rw [hcons, List.head?_cons]; rfl)
      use d, text, hcons, hnumber
      rintro rfl
      have hclose := htext.scalar _ (hcons ▸ List.mem_cons_self)
      revert hclose
      decide
  | bool b => cases b <;> exact ⟨_, _, rfl, rfl, by decide⟩
  | _ => exact ⟨_, _, rfl, rfl, by decide⟩

/-- Equal texts stand for values of the same shape. -/
theorem Legible.shape_eq {a b : Json} (ha : Legible P a) (hb : Legible P b)
    (h : write esc a ++ rest = write esc b ++ rest') :
  a.shape = b.shape
  := by
  obtain ⟨c, text, hcons, hshape, -⟩ := ha.write_eq_cons esc
  obtain ⟨d, text', hcons', hshape', -⟩ := hb.write_eq_cons esc
  rw [hcons, hcons', List.cons_append, List.cons_append] at h
  rw [← hshape, ← hshape', List.head_eq_of_cons_eq h]

/-- The text of a value does not close an array. -/
theorem Legible.write_ne_close {value : Json} (h : Legible P value) (esc : CodePoint → List CodePoint)
    (rest rest' : List CodePoint) :
  write esc value ++ rest ≠ 0x5D :: rest'
  := by
  intro heq
  obtain ⟨c, text, hcons, -, hclose⟩ := h.write_eq_cons esc
  rw [hcons, List.cons_append] at heq
  exact hclose (List.head_eq_of_cons_eq heq)

/-! ### Separated texts -/

section Separated

variable {α : Type*} {w : α → List CodePoint} {close : CodePoint} {xs ys : List α}

/-- A text that begins with no character of a scalar does not go on like one. -/
theorem apart_cons {c : CodePoint} (h : isScalarCharacter c = false) (rest : List CodePoint) :
  Apart (c :: rest)
  := by
  intro d hd
  obtain rfl := Option.some.inj hd
  exact h

/-- What follows the first of separated texts does not go on like a scalar. -/
theorem apart_flatMap (hclose : isScalarCharacter close = false) (texts : List (List CodePoint))
    (rest : List CodePoint) :
  Apart (texts.flatMap (0x2C :: ·) ++ close :: rest)
  := by
  cases texts with
  | nil => exact apart_cons hclose rest
  | cons text texts => exact apart_cons (by decide) _

/-- Texts behind commas can be split off in one way only, when each of them can. -/
theorem flatMap_split (hclose : isScalarCharacter close = false) (hcomma : close ≠ 0x2C)
    (hsplit : ∀ x ∈ xs, ∀ y ∈ ys, ∀ rest rest', Apart rest → Apart rest' →
      w x ++ rest = w y ++ rest' → x = y ∧ rest = rest')
    (h : (xs.map w).flatMap (0x2C :: ·) ++ close :: rest
      = (ys.map w).flatMap (0x2C :: ·) ++ close :: rest') :
  xs = ys ∧ rest = rest'
  := by
  induction xs generalizing ys with
  | nil =>
      cases ys with
      | nil => exact ⟨rfl, List.tail_eq_of_cons_eq h⟩
      | cons y ys => exact absurd (List.head_eq_of_cons_eq h) hcomma
  | cons x xs ih =>
      cases ys with
      | nil => exact absurd (List.head_eq_of_cons_eq h).symm hcomma
      | cons y ys =>
          simp only [List.map_cons, List.flatMap_cons, List.cons_append, List.append_assoc,
            List.cons.injEq, true_and] at h
          obtain ⟨rfl, htail⟩ := hsplit x List.mem_cons_self y List.mem_cons_self _ _
            (apart_flatMap hclose _ _) (apart_flatMap hclose _ _) h
          obtain ⟨rfl, hrest⟩ := ih (fun x hx y hy =>
            hsplit x (List.mem_cons_of_mem _ hx) y (List.mem_cons_of_mem _ hy)) htail
          exact ⟨rfl, hrest⟩

/-- Separated texts can be split off in one way only, when each of them can and none of them closes
the others. -/
theorem separated_split (hclose : isScalarCharacter close = false) (hcomma : close ≠ 0x2C)
    (hsplit : ∀ x ∈ xs, ∀ y ∈ ys, ∀ rest rest', Apart rest → Apart rest' →
      w x ++ rest = w y ++ rest' → x = y ∧ rest = rest')
    (hxs : ∀ x ∈ xs, ∀ rest rest', w x ++ rest ≠ close :: rest')
    (hys : ∀ y ∈ ys, ∀ rest rest', w y ++ rest ≠ close :: rest')
    (h : separated (xs.map w) ++ close :: rest = separated (ys.map w) ++ close :: rest') :
  xs = ys ∧ rest = rest'
  := by
  cases xs with
  | nil =>
      cases ys with
      | nil => exact ⟨rfl, List.tail_eq_of_cons_eq h⟩
      | cons y ys =>
          rw [List.map_cons, separated, List.append_assoc] at h
          exact absurd h.symm (hys y List.mem_cons_self _ _)
  | cons x xs =>
      cases ys with
      | nil =>
          rw [List.map_cons, separated, List.append_assoc] at h
          exact absurd h (hxs x List.mem_cons_self _ _)
      | cons y ys =>
          apply flatMap_split hclose hcomma hsplit
          rw [List.map_cons, separated, List.append_assoc, List.map_cons, separated,
            List.append_assoc] at h
          rw [List.map_cons, List.flatMap_cons, List.append_assoc, List.map_cons, List.flatMap_cons,
            List.append_assoc, List.cons_append, List.cons_append, h]

end Separated

/-! ### Arrays and objects -/

theorem writeItems_eq_map (esc : CodePoint → List CodePoint) (items : List Json) :
  writeItems esc items = items.map (write esc)
  := by
  induction items with
  | nil => rfl
  | cons item items ih => rw [writeItems, ih, List.map_cons]

/-- The text of a field. -/
def writeField (esc : CodePoint → List CodePoint) (field : List CodePoint × Json) : List CodePoint :=
  quoted esc field.1 ++ 0x3A :: write esc field.2

theorem writeFields_eq_map (esc : CodePoint → List CodePoint)
    (fields : List (List CodePoint × Json)) :
  writeFields esc fields = fields.map (writeField esc)
  := by
  induction fields with
  | nil => rfl
  | cons field fields ih => rw [writeFields, ih, List.map_cons, writeField]

/-- The text of a field does not close an object. -/
theorem writeField_ne_close {field : List CodePoint × Json} :
  writeField esc field ++ rest ≠ 0x7D :: rest'
  := by
  intro h
  exact absurd (List.head_eq_of_cons_eq h) (by decide)

/-- The text of a field can be split off in one way only, when the one of its value can. -/
theorem field_split (hesc : Separates esc P) {field field' : List CodePoint × Json}
    (hkey : ∀ c ∈ field.1, P c) (hkey' : ∀ c ∈ field'.1, P c)
    (hvalue : write esc field.2 ++ rest = write esc field'.2 ++ rest' →
      field.2 = field'.2 ∧ rest = rest')
    (h : writeField esc field ++ rest = writeField esc field' ++ rest') :
  field = field' ∧ rest = rest'
  := by
  rw [writeField, writeField, List.append_assoc, List.append_assoc] at h
  obtain ⟨hkeys, htail⟩ := hesc.quoted hkey hkey' h
  obtain ⟨hvalues, hrest⟩ := hvalue (List.tail_eq_of_cons_eq htail)
  exact ⟨Prod.ext hkeys hvalues, hrest⟩

/-- The text of a float can be split off in one way only. -/
theorem IsFloatText.split {text text' : List CodePoint} (h : IsFloatText text)
    (h' : IsFloatText text') (hrest : Apart rest) (hrest' : Apart rest')
    (heq : text ++ rest = text' ++ rest') :
  text = text' ∧ rest = rest'
  := by
  have htext : text = text' := by
    rw [← hrest.takeWhile_append h.scalar, heq, hrest'.takeWhile_append h'.scalar]
  subst htext
  exact ⟨rfl, List.append_cancel_left heq⟩

/-- The text of a float does not begin with an integer. -/
theorem IsFloatText.append_ne_decimal {text : List CodePoint} {n : ℤ} (h : IsFloatText text)
    (hrest : Apart rest) (hrest' : Apart rest') :
  text ++ rest ≠ decimal n ++ rest'
  := by
  intro heq
  have htext : text = decimal n := by
    rw [← hrest.takeWhile_append h.scalar, heq,
      hrest'.takeWhile_append (isScalarCharacter_decimal n)]
  obtain ⟨c, hc, hnumber⟩ := h.fractional
  rw [isNumberCharacter_decimal n c (htext ▸ hc)] at hnumber
  cases hnumber

/-- The text of a value can be split off in one way only, where what follows does not go on like a
scalar. -/
theorem Legible.split (hesc : Separates esc P) {a : Json} (ha : Legible P a) :
  ∀ b, Legible P b → ∀ rest rest', Apart rest → Apart rest' →
    write esc a ++ rest = write esc b ++ rest' → a = b ∧ rest = rest'
  := by
  induction ha with
  | null =>
      intro b hb rest rest' _ _ h
      have hshape := Legible.null.shape_eq hb h
      cases hb with
      | null => exact ⟨rfl, List.append_cancel_left h⟩
      | bool b => cases b <;> cases hshape
      | _ => cases hshape
  | bool a =>
      intro b hb rest rest' _ _ h
      have hshape := (Legible.bool a).shape_eq hb h
      cases hb with
      | bool b =>
          have hab : a = b := by
            cases a <;> cases b <;> first | rfl | cases hshape
          subst hab
          exact ⟨rfl, List.append_cancel_left h⟩
      | _ => cases a <;> cases hshape
  | int m =>
      intro b hb rest rest' hrest hrest' h
      have hshape := (Legible.int m).shape_eq hb h
      cases hb with
      | int n =>
          obtain ⟨rfl, heq⟩ := decimal_split hrest.delimited hrest'.delimited h
          exact ⟨rfl, heq⟩
      | float htext => exact absurd h.symm (htext.append_ne_decimal hrest' hrest)
      | bool b => cases b <;> cases hshape
      | _ => cases hshape
  | float htext =>
      intro b hb rest rest' hrest hrest' h
      have hshape := (Legible.float htext).shape_eq hb h
      cases hb with
      | int n => exact absurd h (htext.append_ne_decimal hrest hrest')
      | float htext' =>
          obtain ⟨hval, heq⟩ := htext.split htext' hrest hrest' h
          exact ⟨congrArg Json.float (Subtype.ext hval), heq⟩
      | bool b => cases b <;> cases hshape
      | _ => cases hshape
  | str htext =>
      intro b hb rest rest' _ _ h
      have hshape := (Legible.str htext).shape_eq hb h
      cases hb with
      | str htext' =>
          obtain ⟨rfl, heq⟩ := hesc.quoted htext htext' h
          exact ⟨rfl, heq⟩
      | bool b => cases b <;> cases hshape
      | _ => cases hshape
  | arr hitems ih =>
      intro b hb rest rest' _ _ h
      have hshape := (Legible.arr hitems).shape_eq hb h
      cases hb with
      | arr hitems' =>
          simp only [write, writeItems_eq_map, List.cons_append, List.append_assoc, List.nil_append,
            List.cons.injEq, true_and] at h
          obtain ⟨rfl, heq⟩ := separated_split (by decide) (by decide)
            (fun x hx y hy => ih x hx y (hitems' y hy))
            (fun x hx => (hitems x hx).write_ne_close esc)
            (fun y hy => (hitems' y hy).write_ne_close esc) h
          exact ⟨rfl, heq⟩
      | bool b => cases b <;> cases hshape
      | _ => cases hshape
  | obj hkeys hvalues ih =>
      intro b hb rest rest' _ _ h
      have hshape := (Legible.obj hkeys hvalues).shape_eq hb h
      cases hb with
      | obj hkeys' hvalues' =>
          simp only [write, writeFields_eq_map, List.cons_append, List.append_assoc, List.nil_append,
            List.cons.injEq, true_and] at h
          obtain ⟨rfl, heq⟩ := separated_split (by decide) (by decide)
            (fun x hx y hy rest rest' hrest hrest' => field_split hesc (hkeys x hx) (hkeys' y hy)
              (ih x hx y.2 (hvalues' y hy) rest rest' hrest hrest'))
            (fun _ _ _ _ => writeField_ne_close) (fun _ _ _ _ => writeField_ne_close) h
          exact ⟨rfl, heq⟩
      | bool b => cases b <;> cases hshape
      | _ => cases hshape

/-- The text of a value determines it. -/
theorem Legible.write_injective (hesc : Separates esc P) {a b : Json} (ha : Legible P a)
    (hb : Legible P b) (h : write esc a = write esc b) :
  a = b
  := by
  apply (ha.split hesc b hb [] [] apart_nil apart_nil _).1
  rw [h]

/-! ### Dictionaries -/

theorem sortItems_eq_map (items : List Json) :
  sortItems items = items.map sortKeys
  := by
  induction items with
  | nil => rfl
  | cons item items ih => rw [sortItems, ih, List.map_cons]

theorem sortFields_eq_map (fields : List (List CodePoint × Json)) :
  sortFields fields = fields.map (fun field => (field.1, field.2.sortKeys))
  := by
  induction fields with
  | nil => rfl
  | cons field fields ih => rw [sortFields, ih, List.map_cons]

/-- Sorting the keys changes no strings. -/
theorem Exact.sortKeys {a : Json} (ha : Exact P a) :
  Exact P a.sortKeys
  := by
  induction ha with
  | null => exact .null
  | bool b => exact .bool b
  | int n => exact .int n
  | str htext => exact .str htext
  | arr _ ih =>
      rw [Json.sortKeys, sortItems_eq_map]
      apply Exact.arr
      exact List.forall_mem_map.mpr ih
  | obj hkeys _ ih =>
      rw [Json.sortKeys, sortFields_eq_map]
      apply Exact.obj
      · intro field hfield
        obtain ⟨field, hmem, rfl⟩ := List.mem_map.mp (List.mem_mergeSort.mp hfield)
        exact hkeys field hmem
      · intro field hfield
        obtain ⟨field, hmem, rfl⟩ := List.mem_map.mp (List.mem_mergeSort.mp hfield)
        exact ih field hmem

/-- The text with sorted keys determines a dictionary. -/
theorem Exact.same_of_write_eq (hesc : Separates esc P) {a b : Json} (ha : Exact P a) (hb : Exact P b)
    (h : write esc a.sortKeys = write esc b.sortKeys) :
  Same a b
  := ha.sortKeys.legible.write_injective hesc hb.sortKeys.legible h

/-- The same dictionaries have the same fields. -/
theorem Same.exists_field {fields fields' : List (List CodePoint × Json)}
    (h : Same (.obj fields) (.obj fields')) {key : List CodePoint} {value : Json}
    (hfield : (key, value) ∈ fields) :
  ∃ value', (key, value') ∈ fields' ∧ Same value value'
  := by
  rw [Same, sortKeys, sortKeys, sortFields_eq_map, sortFields_eq_map] at h
  have hmem : (key, value.sortKeys) ∈ fields.map (fun field => (field.1, field.2.sortKeys)) :=
    List.mem_map.mpr ⟨(key, value), hfield, rfl⟩
  have hsorted := List.mergeSort_perm (fields.map (fun field => (field.1, field.2.sortKeys)))
    (fun a b => decide (a.1 ≤ b.1))
  rw [Json.obj.inj h] at hsorted
  have hperm := hsorted.symm.trans (List.mergeSort_perm _ _)
  obtain ⟨field, hfield', heq⟩ := List.mem_map.mp (hperm.subset hmem)
  obtain ⟨rfl, hvalue⟩ := Prod.mk.inj heq
  exact ⟨field.2, hfield', hvalue.symm⟩

/-! ### Characters and sizes -/

theorem itemChars_eq_flatMap (items : List Json) :
  itemChars items = items.flatMap chars
  := by
  induction items with
  | nil => rfl
  | cons item items ih => rw [itemChars, ih, List.flatMap_cons]

theorem fieldChars_eq_flatMap (fields : List (List CodePoint × Json)) :
  fieldChars fields = fields.flatMap (fun field => field.1 ++ chars field.2)
  := by
  induction fields with
  | nil => rfl
  | cons field fields ih => rw [fieldChars, ih, List.flatMap_cons]

/-- A value without floats has the properties of the characters of its strings. -/
theorem Exact.of_chars {Q : CodePoint → Prop} {a : Json} (ha : Exact P a) (h : ∀ c ∈ a.chars, Q c) :
  Exact Q a
  := by
  induction ha with
  | null => exact .null
  | bool b => exact .bool b
  | int n => exact .int n
  | str => exact .str h
  | @arr items _ ih =>
      rw [chars, itemChars_eq_flatMap] at h
      apply Exact.arr
      intro item hitem
      apply ih item hitem
      exact fun c hc => h c (List.mem_flatMap_of_mem hitem hc)
  | @obj fields _ _ ih =>
      rw [chars, fieldChars_eq_flatMap] at h
      apply Exact.obj
      · exact fun field hfield c hc =>
          h c (List.mem_flatMap_of_mem hfield (List.mem_append_left _ hc))
      · intro field hfield
        apply ih field hfield
        exact fun c hc => h c (List.mem_flatMap_of_mem hfield (List.mem_append_right _ hc))

/-- The characters of the strings of a value have the properties of its characters. -/
theorem Exact.forall_mem_chars {a : Json} (ha : Exact P a) :
  ∀ c ∈ a.chars, P c
  := by
  induction ha with
  | null => exact List.forall_mem_nil _
  | bool b => exact List.forall_mem_nil _
  | int n => exact List.forall_mem_nil _
  | str htext => exact htext
  | arr _ ih =>
      intro c hc
      rw [chars, itemChars_eq_flatMap] at hc
      obtain ⟨item, hitem, hc⟩ := List.mem_flatMap.mp hc
      exact ih item hitem c hc
  | obj hkeys _ ih =>
      intro c hc
      rw [chars, fieldChars_eq_flatMap] at hc
      obtain ⟨field, hfield, hc⟩ := List.mem_flatMap.mp hc
      rcases List.mem_append.mp hc with hc | hc
      · exact hkeys field hfield c hc
      · exact ih field hfield c hc

/-- Printable characters have one byte each. -/
theorem size_of_printable {text : List CodePoint} (h : ∀ c ∈ text, IsPrintable c) :
  Utf8.size text = text.length
  := by
  induction text with
  | nil => rfl
  | cons c text ih =>
      obtain ⟨hc, htext⟩ := List.forall_mem_cons.mp h
      have hchar : (Utf8.encodeChar c).length = 1 := by
        rw [Utf8.encodeChar, if_pos (lt_trans hc.2 (by decide))]
        rfl
      rw [Utf8.size_cons, hchar, ih htext, List.length_cons, Nat.add_comm]

/-- An integer has its digits and perhaps a sign. -/
theorem size_decimal_le {n : ℤ} {k : ℕ} (hk : 0 < k) (h : n.natAbs < 10 ^ k) :
  Utf8.size (decimal n) ≤ k + 1
  := by
  rw [size_of_printable (isPrintable_decimal n)]
  cases n with
  | ofNat n =>
      have hlength : (Nat.toDigits 10 n).length ≤ k :=
        (Nat.length_toDigits_le_iff (by decide) hk).mpr h
      calc (decimal (.ofNat n)).length
          = (Nat.toDigits 10 n).length := List.length_map _
        _ ≤ k + 1 := hlength.trans (Nat.le_succ k)
  | negSucc n =>
      have hlength : (Nat.toDigits 10 (n + 1)).length ≤ k :=
        (Nat.length_toDigits_le_iff (by decide) hk).mpr h
      calc (decimal (.negSucc n)).length
          = (Nat.toDigits 10 (n + 1)).length + 1 := by
            rw [decimal, List.length_cons, ofChars, List.length_map]
        _ ≤ k + 1 := Nat.succ_le_succ hlength

theorem size_escape_le (c : CodePoint) :
  Utf8.size (escape c) ≤ 6
  := by
  rw [escape]
  cases hshort : shortEscape c with
  | some letter =>
      have hprintable : ∀ d ∈ [0x5C, letter], IsPrintable d := by
        have hbackslash : IsPrintable 0x5C := by decide
        simp [hbackslash, (shortEscape_eq_some hshort).1]
      dsimp only
      rw [size_of_printable hprintable]
      simp
  | none =>
      dsimp only
      split_ifs
      · rw [size_of_printable (isPrintable_unicodeEscape _)]
        exact le_rfl
      · have hchar := Utf8.length_encodeChar_le c
        rw [Utf8.size_cons, Utf8.size_nil]
        omega

/-- A string is written in at most six bytes for each of its characters. -/
theorem size_quoted_le (text : List CodePoint) :
  Utf8.size (quoted escape text) ≤ 6 * text.length + 2
  := by
  have hquote : (Utf8.encodeChar 0x22).length = 1 := by decide
  have hchars : Utf8.size (text.flatMap escape) ≤ 6 * text.length := by
    induction text with
    | nil => exact le_rfl
    | cons c text ih =>
        have hchar := size_escape_le c
        rw [List.flatMap_cons, Utf8.size_append, List.length_cons]
        omega
  rw [quoted, Utf8.size_cons, Utf8.size_append, Utf8.size_cons, Utf8.size_nil, hquote]
  omega

/-- The size of texts that are separated by commas. -/
theorem size_separated_le (texts : List (List CodePoint)) :
  Utf8.size (separated texts) ≤ (texts.map (fun text => Utf8.size text + 1)).sum
  := by
  have hcomma : (Utf8.encodeChar 0x2C).length = 1 := by decide
  have hrest : ∀ rest : List (List CodePoint), Utf8.size (rest.flatMap (0x2C :: ·))
      = (rest.map (fun text => Utf8.size text + 1)).sum := by
    intro rest
    induction rest with
    | nil => rfl
    | cons text rest ih =>
        rw [List.flatMap_cons, Utf8.size_append, Utf8.size_cons, hcomma, ih, List.map_cons,
          List.sum_cons, Nat.add_comm 1]
  cases texts with
  | nil => exact le_rfl
  | cons text rest =>
      rw [separated, Utf8.size_append, hrest, List.map_cons, List.sum_cons]
      omega

/-- The size of an object is bounded by the sizes of its fields. -/
theorem size_write_obj_le (fields : List (List CodePoint × Json)) :
  Utf8.size (write escape (.obj fields))
    ≤ (fields.map (fun field =>
        6 * field.1.length + Utf8.size (write escape field.2) + 4)).sum + 2
  := by
  have hopen : (Utf8.encodeChar 0x7B).length = 1 := by decide
  have hclose : (Utf8.encodeChar 0x7D).length = 1 := by decide
  have hcolon : (Utf8.encodeChar 0x3A).length = 1 := by decide
  have hfields := size_separated_le (writeFields escape fields)
  have hfield : ∀ field ∈ fields, Utf8.size (writeField escape field) + 1
      ≤ 6 * field.1.length + Utf8.size (write escape field.2) + 4 := by
    intro field _
    have hkey := size_quoted_le field.1
    rw [writeField, Utf8.size_append, Utf8.size_cons, hcolon]
    omega
  rw [writeFields_eq_map, List.map_map] at hfields
  have hsum := hfields.trans (List.sum_le_sum hfield)
  rw [write, Utf8.size_cons, Utf8.size_append, Utf8.size_cons, Utf8.size_nil, hopen, hclose,
    writeFields_eq_map]
  omega

end Json
