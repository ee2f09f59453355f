import GoblinKing.Library.Utf8
import Mathlib.Data.Bool.AllAny
import Mathlib.Data.List.Sort
import Mathlib.Data.Int.Notation
import Mathlib.Data.List.Lex

/-!
# JSON

JSON values, and the texts that stand for them without blanks. The characters of a string are
written by a function, so that a text can be restricted to ASCII or not. Everything else in a text
is ASCII, and so a text is encodable when what is written for the characters of its strings is.

Objects are lists of fields. As dictionaries they are the same when they are equal after their
keys have been sorted.
-/

open Utf8

/-- The text of a float. -/
abbrev FloatText := { text : List CodePoint // ∀ c ∈ text, 0x20 ≤ c.val ∧ c.val < 0x7F }

/-- A JSON value. -/
inductive Json where
  | null
  | bool (b : Bool)
  | int (n : ℤ)
  | float (text : FloatText)
  | str (text : List CodePoint)
  | arr (items : List Json)
  | obj (fields : List (List CodePoint × Json))

namespace Json

/-! ### The characters of strings -/

/-- A digit of a hexadecimal number. -/
def hexDigit (n : ℕ) : CodePoint :=
  Fin.ofNat _ (if n % 16 < 10 then 0x30 + n % 16 else 0x57 + n % 16)

/-- The escape sequence of a code unit of UTF-16. -/
def unicodeEscape (n : ℕ) : List CodePoint :=
  [0x5C, 0x75, hexDigit (n / 4096), hexDigit (n / 256), hexDigit (n / 16), hexDigit n]

/-- The letter behind the backslash in a short escape sequence. -/
def shortEscape (c : CodePoint) : Option CodePoint :=
  if c = 0x22 ∨ c = 0x5C then some c
  else if c = 0x08 then some 0x62
  else if c = 0x09 then some 0x74
  else if c = 0x0A then some 0x6E
  else if c = 0x0C then some 0x66
  else if c = 0x0D then some 0x72
  else none

/-- A character of a string, escaped only where it has to be. -/
def escape (c : CodePoint) : List CodePoint :=
  match shortEscape c with
  | some letter => [0x5C, letter]
  | none => if c.val < 0x20 then unicodeEscape c.val else [c]

/-- A character of a string in ASCII. Beyond the code units of UTF-16 it is written as a pair. -/
def escapeAscii (c : CodePoint) : List CodePoint :=
  match shortEscape c with
  | some letter => [0x5C, letter]
  | none =>
      if 0x20 ≤ c.val ∧ c.val < 0x7F then
        [c]
      else if c.val < 0x10000 then
        unicodeEscape c.val
      else
        unicodeEscape (0xD800 + (c.val - 0x10000) / 0x400)
          ++ unicodeEscape (0xDC00 + (c.val - 0x10000) % 0x400)

/-! ### Texts -/

/-- A string with its quotation marks. -/
def quoted (esc : CodePoint → List CodePoint) (text : List CodePoint) : List CodePoint :=
  0x22 :: (text.flatMap esc ++ [0x22])

/-- The digits of an integer. -/
def decimal : ℤ → List CodePoint
  | .ofNat n => ofChars (Nat.toDigits 10 n)
  | .negSucc n => 0x2D :: ofChars (Nat.toDigits 10 (n + 1))

/-- Texts separated by commas. -/
def separated : List (List CodePoint) → List CodePoint
  | [] => []
  | text :: rest => text ++ rest.flatMap (0x2C :: ·)

mutual

/-- The text of a value. -/
def write (esc : CodePoint → List CodePoint) : Json → List CodePoint
  | .null => ofChars ['n', 'u', 'l', 'l']
  | .bool true => ofChars ['t', 'r', 'u', 'e']
  | .bool false => ofChars ['f', 'a', 'l', 's', 'e']
  | .int n => decimal n
  | .float text => text.val
  | .str text => quoted esc text
  | .arr items => 0x5B :: (separated (writeItems esc items) ++ [0x5D])
  | .obj fields => 0x7B :: (separated (writeFields esc fields) ++ [0x7D])

/-- The texts of the items of an array. -/
def writeItems (esc : CodePoint → List CodePoint) : List Json → List (List CodePoint)
  | [] => []
  | item :: items => write esc item :: writeItems esc items

/-- The texts of the fields of an object. -/
def writeFields (esc : CodePoint → List CodePoint) :
    List (List CodePoint × Json) → List (List CodePoint)
  | [] => []
  | (key, value) :: fields =>
      (quoted esc key ++ 0x3A :: write esc value) :: writeFields esc fields

end

mutual

/-- The characters of all strings of a value, and of its keys. -/
def chars : Json → List CodePoint
  | .null | .bool _ | .int _ | .float _ => []
  | .str text => text
  | .arr items => itemChars items
  | .obj fields => fieldChars fields

/-- The characters of the items of an array. -/
def itemChars : List Json → List CodePoint
  | [] => []
  | item :: items => chars item ++ itemChars items

/-- The characters of the fields of an object. -/
def fieldChars : List (List CodePoint × Json) → List CodePoint
  | [] => []
  | (key, value) :: fields => key ++ chars value ++ fieldChars fields

end

/-! ### What a text consists of -/

theorem mem_separated {texts : List (List CodePoint)} {c : CodePoint} :
  c ∈ separated texts ↔ (c = 0x2C ∧ 2 ≤ texts.length) ∨ ∃ text ∈ texts, c ∈ text
  := by
  cases texts with
  | nil => simp [separated]
  | cons text rest =>
    cases rest with
    | nil => simp [separated]
    | cons text' rest =>
      simp only [separated, List.mem_append, List.mem_flatMap, List.mem_cons, List.length_cons]
      constructor
      · rintro (hc | ⟨other, hother, rfl | hc⟩)
        · exact .inr ⟨text, .inl rfl, hc⟩
        · exact .inl ⟨rfl, by omega⟩
        · exact .inr ⟨other, .inr hother, hc⟩
      · rintro (⟨rfl, -⟩ | ⟨other, rfl | hother, hc⟩)
        · exact .inr ⟨text', .inl rfl, .inl rfl⟩
        · exact .inl hc
        · exact .inr ⟨other, hother, .inr hc⟩

/-- The characters of ASCII that are not control characters. -/
def IsPrintable (c : CodePoint) : Prop :=
  0x20 ≤ c.val ∧ c.val < 0x7F

instance : DecidablePred IsPrintable :=
  fun _ => inferInstanceAs (Decidable (_ ∧ _))

theorem IsPrintable.not_isSurrogate {c : CodePoint} (h : IsPrintable c) :
  ¬ IsSurrogate c
  := by
  unfold IsPrintable at h
  unfold IsSurrogate
  omega

theorem isPrintable_hexDigit (n : ℕ) :
  IsPrintable (hexDigit n)
  := by
  rw [IsPrintable, hexDigit, Fin.val_ofNat]
  split_ifs <;> omega

theorem isPrintable_unicodeEscape (n : ℕ) :
  ∀ c ∈ unicodeEscape n, IsPrintable c
  := by
  simp only [unicodeEscape, List.forall_mem_cons, List.not_mem_nil, false_imp_iff, implies_true,
    isPrintable_hexDigit, and_true]
  decide

theorem isPrintable_ofChars {text : List Char} (h : ∀ c ∈ text, 0x20 ≤ c.toNat ∧ c.toNat < 0x7F) :
  ∀ c ∈ ofChars text, IsPrintable c
  := by
  intro c hc
  obtain ⟨d, hd, rfl⟩ := List.mem_map.mp hc
  have hrange := h d hd
  rw [IsPrintable, Fin.val_ofNat]
  omega

theorem isPrintable_decimal (n : ℤ) :
  ∀ c ∈ decimal n, IsPrintable c
  := by
  have hdigits : ∀ m, ∀ c ∈ ofChars (Nat.toDigits 10 m), IsPrintable c := by
    intro m
    apply isPrintable_ofChars
    intro c hc
    have hdigit := Nat.isDigit_of_mem_toDigits (by decide) (by decide) hc
    have hcode : 48 ≤ c.toNat ∧ c.toNat ≤ 57 := by
      simpa [Char.isDigit, UInt32.le_iff_toNat_le] using hdigit
    omega
  cases n with
  | ofNat n => exact hdigits n
  | negSucc n =>
    rw [decimal, List.forall_mem_cons]
    use by decide
    exact hdigits (n + 1)

variable {P : CodePoint → Prop} {esc : CodePoint → List CodePoint}

theorem forall_mem_separated (hascii : ∀ c, IsPrintable c → P c)
    (texts : List (List CodePoint)) :
  (∀ c ∈ separated texts, P c) ↔ ∀ text ∈ texts, ∀ c ∈ text, P c
  := by
  constructor
  · intro h text htext c hc
    exact h c (mem_separated.mpr (.inr ⟨text, htext, hc⟩))
  · intro h c hc
    rcases mem_separated.mp hc with ⟨rfl, -⟩ | ⟨text, htext, hc⟩
    · exact hascii _ (by decide)
    · exact h text htext c hc

theorem forall_mem_quoted (hascii : ∀ c, IsPrintable c → P c) (text : List CodePoint) :
  (∀ c ∈ quoted esc text, P c) ↔ ∀ c ∈ text, ∀ d ∈ esc c, P d
  := by
  have hquote : P 0x22 := hascii _ (by decide)
  simp only [quoted, List.forall_mem_cons, List.forall_mem_append, List.mem_flatMap, hquote,
    List.not_mem_nil, false_imp_iff, implies_true, and_true, true_and]
  constructor
  · intro h c hc d hd
    exact h d ⟨c, hc, hd⟩
  · rintro h d ⟨c, hc, hd⟩
    exact h c hc d hd

mutual

/-- All characters of a text have a property of printable characters exactly when those have it
that are written for the characters of the strings. -/
theorem forall_mem_write (hascii : ∀ c, IsPrintable c → P c) :
    ∀ value : Json, (∀ c ∈ write esc value, P c) ↔ ∀ c ∈ value.chars, ∀ d ∈ esc c, P d
  | .null => by
    simp only [write, chars, List.not_mem_nil, false_imp_iff, implies_true, iff_true]
    intro c hc
    exact hascii c (isPrintable_ofChars (List.all_iff_forall_prop.mp (by decide)) c hc)
  | .bool true => by
    simp only [write, chars, List.not_mem_nil, false_imp_iff, implies_true, iff_true]
    intro c hc
    exact hascii c (isPrintable_ofChars (List.all_iff_forall_prop.mp (by decide)) c hc)
  | .bool false => by
    simp only [write, chars, List.not_mem_nil, false_imp_iff, implies_true, iff_true]
    intro c hc
    exact hascii c (isPrintable_ofChars (List.all_iff_forall_prop.mp (by decide)) c hc)
  | .int n => by
    simp only [write, chars, List.not_mem_nil, false_imp_iff, implies_true, iff_true]
    intro c hc
    exact hascii c (isPrintable_decimal n c hc)
  | .float text => by
    simp only [write, chars, List.not_mem_nil, false_imp_iff, implies_true, iff_true]
    intro c hc
    exact hascii c (text.property c hc)
  | .str text => by
    rw [write, chars, forall_mem_quoted hascii]
  | .arr items => by
    have hopen : P 0x5B := hascii _ (by decide)
    have hclose : P 0x5D := hascii _ (by decide)
    rw [write, chars, ← forall_mem_writeItems hascii items, ← forall_mem_separated hascii]
    simp [hopen, hclose, or_imp, forall_and]
  | .obj fields => by
    have hopen : P 0x7B := hascii _ (by decide)
    have hclose : P 0x7D := hascii _ (by decide)
    rw [write, chars, ← forall_mem_writeFields hascii fields, ← forall_mem_separated hascii]
    simp [hopen, hclose, or_imp, forall_and]

theorem forall_mem_writeItems (hascii : ∀ c, IsPrintable c → P c) :
    ∀ items : List Json, (∀ text ∈ writeItems esc items, ∀ c ∈ text, P c)
      ↔ ∀ c ∈ itemChars items, ∀ d ∈ esc c, P d
  | [] => by simp [writeItems, itemChars]
  | item :: items => by
    rw [writeItems, itemChars, List.forall_mem_cons, List.forall_mem_append,
      forall_mem_write hascii item, forall_mem_writeItems hascii items]

theorem forall_mem_writeFields (hascii : ∀ c, IsPrintable c → P c) :
    ∀ fields : List (List CodePoint × Json), (∀ text ∈ writeFields esc fields, ∀ c ∈ text, P c)
      ↔ ∀ c ∈ fieldChars fields, ∀ d ∈ esc c, P d
  | [] => by simp [writeFields, fieldChars]
  | (key, value) :: fields => by
    have hcolon : P 0x3A := hascii _ (by decide)
    rw [writeFields, fieldChars, List.forall_mem_cons, List.forall_mem_append,
      List.forall_mem_append, List.forall_mem_append, List.forall_mem_cons,
      forall_mem_quoted hascii, forall_mem_write hascii value,
      forall_mem_writeFields hascii fields]
    simp only [hcolon, true_and]

end

theorem shortEscape_eq_some {c letter : CodePoint} (h : shortEscape c = some letter) :
  IsPrintable letter ∧ ¬ IsSurrogate c
  := by
  unfold shortEscape at h
  split_ifs at h with hself hb ht hn hf hr
  · rw [Option.some.injEq] at h
    subst h
    rcases hself with rfl | rfl <;> decide
  all_goals
    rw [Option.some.injEq] at h
    subst c
    subst h
    decide

/-- What is written for a character in ASCII. -/
theorem isPrintable_escapeAscii (c : CodePoint) :
  ∀ d ∈ escapeAscii c, IsPrintable d
  := by
  rw [escapeAscii]
  cases hshort : shortEscape c with
  | some letter =>
    have hbackslash : IsPrintable 0x5C := by decide
    simp [hbackslash, (shortEscape_eq_some hshort).1]
  | none =>
    dsimp only
    split_ifs with hself hunit
    · rw [List.forall_mem_singleton]
      exact hself
    · apply isPrintable_unicodeEscape
    · apply List.forall_mem_append.mpr
        ⟨isPrintable_unicodeEscape _, isPrintable_unicodeEscape _⟩

/-- A text in ASCII. -/
theorem isPrintable_write (value : Json) :
  ∀ c ∈ write escapeAscii value, IsPrintable c
  := (forall_mem_write (fun _ h => h) value).mpr (fun c _ => isPrintable_escapeAscii c)

theorem forall_mem_escape (c : CodePoint) :
  (∀ d ∈ escape c, ¬ IsSurrogate d) ↔ ¬ IsSurrogate c
  := by
  rw [escape]
  cases hshort : shortEscape c with
  | some letter =>
    obtain ⟨hletter, hc⟩ := shortEscape_eq_some hshort
    have hbackslash : ¬ IsSurrogate 0x5C := by decide
    simp [hbackslash, hletter.not_isSurrogate, hc]
  | none =>
    dsimp only
    split_ifs with hcontrol
    · apply iff_of_true
      · intro d hd
        exact (isPrintable_unicodeEscape _ d hd).not_isSurrogate
      · unfold IsSurrogate
        omega
    · exact List.forall_mem_singleton

/-- A text that is not restricted to ASCII is encodable when the strings are. -/
theorem encodable_write (value : Json) :
  Utf8.Encodable (write escape value) ↔ Utf8.Encodable value.chars
  := by
  rw [Utf8.Encodable, forall_mem_write (fun _ => IsPrintable.not_isSurrogate)]
  simp only [forall_mem_escape, Utf8.Encodable]

/-! ### Dictionaries -/

mutual

/-- The value with the keys of all its objects sorted. -/
def sortKeys : Json → Json
  | .null => .null
  | .bool b => .bool b
  | .int n => .int n
  | .float text => .float text
  | .str text => .str text
  | .arr items => .arr (sortItems items)
  | .obj fields => .obj ((sortFields fields).mergeSort (fun a b => decide (a.1 ≤ b.1)))

/-- The items with the keys of all their objects sorted. -/
def sortItems : List Json → List Json
  | [] => []
  | item :: items => sortKeys item :: sortItems items

/-- The fields with the keys of all objects in their values sorted. -/
def sortFields : List (List CodePoint × Json) → List (List CodePoint × Json)
  | [] => []
  | (key, value) :: fields => (key, sortKeys value) :: sortFields fields

end

/-- Two values are the same up to the order of the fields of objects. -/
def Same (a b : Json) : Prop :=
  a.sortKeys = b.sortKeys

/-- The value is an object. -/
def isObj : Json → Bool
  | .obj _ => true
  | _ => false

theorem sortKeys_isObj (value : Json) :
  value.sortKeys.isObj = value.isObj
  := by
  cases value <;> rfl

theorem write_ne_nil_of_isObj {value : Json} (h : value.isObj = true)
    (esc : CodePoint → List CodePoint) :
  value.write esc ≠ []
  := by
  cases value with
  | obj fields => simp [write]
  | _ => cases h

theorem Same.isObj {a b : Json} (h : Same a b) :
  a.isObj = b.isObj
  := by
  rw [← sortKeys_isObj a, ← sortKeys_isObj b, h]

end Json
