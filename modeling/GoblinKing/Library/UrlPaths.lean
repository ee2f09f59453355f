import GoblinKing.Library.Utf8
import Mathlib.Data.List.DropRight
import Mathlib.Data.List.Infix
import Mathlib.Tactic.IntervalCases

/-!
# Paths of URLs

Percent-encoding and the removal of dot segments. What was percent-encoded is decoded to the bytes of
the text. A path whose dot segments are removed leaves the directory it begins in only by more dots
than names, and in the directory where it comes out it goes down by the names that are left.
-/

open Utf8

namespace Url

/-! ### Percent-encoding -/

/-- The value of a hexadecimal digit. -/
def hexValue (c : CodePoint) : Option ℕ :=
  if 0x30 ≤ c.val ∧ c.val ≤ 0x39 then some (c.val - 0x30)
  else if 0x41 ≤ c.val ∧ c.val ≤ 0x46 then some (c.val - 0x37)
  else if 0x61 ≤ c.val ∧ c.val ≤ 0x66 then some (c.val - 0x57)
  else none

/-- The byte that a text begins with as an escape sequence. -/
def escapeAt : List CodePoint → Option UInt8
  | c :: high :: low :: _ =>
      if c = 0x25 then
        match hexValue high, hexValue low with
        | some h, some l => some (.ofNat (16 * h + l))
        | _, _ => none
      else
        none
  | _ => none

/-- The bytes of a text behind some characters, with its escape sequences decoded. -/
def percentDecodeFrom : ℕ → List CodePoint → List UInt8
  | _, [] => []
  | skip + 1, _ :: rest => percentDecodeFrom skip rest
  | 0, c :: rest =>
      match escapeAt (c :: rest) with
      | some byte => byte :: percentDecodeFrom 2 rest
      | none => encodeChar c ++ percentDecodeFrom 0 rest

/-- The bytes of a text, with its escape sequences decoded. -/
def percentDecode (text : List CodePoint) : List UInt8 :=
  percentDecodeFrom 0 text

/-- The characters that are never percent-encoded: letters, digits and four others. -/
def IsUnreserved (c : CodePoint) : Prop :=
  (0x30 ≤ c.val ∧ c.val ≤ 0x39) ∨ (0x41 ≤ c.val ∧ c.val ≤ 0x5A) ∨ (0x61 ≤ c.val ∧ c.val ≤ 0x7A)
    ∨ c = 0x5F ∨ c = 0x2E ∨ c = 0x2D ∨ c = 0x7E

instance : DecidablePred IsUnreserved :=
  fun _ => inferInstanceAs (Decidable (_ ∨ _))

/-- A digit of an escape sequence. -/
def upperHexDigit (n : ℕ) : CodePoint :=
  Fin.ofNat _ (if n < 10 then 0x30 + n else 0x37 + n)

/-- The escape sequence of a byte. -/
def percentByte (byte : UInt8) : List CodePoint :=
  [0x25, upperHexDigit (byte.toNat / 16), upperHexDigit (byte.toNat % 16)]

/-- Percent-encode a text, except for some characters. -/
def quote (safe : List CodePoint) (text : List CodePoint) : List CodePoint :=
  text.flatMap (fun c =>
    if IsUnreserved c ∨ c ∈ safe then [c] else (encodeChar c).flatMap percentByte)

theorem quote_append (safe text text' : List CodePoint) :
  quote safe (text ++ text') = quote safe text ++ quote safe text'
  := List.flatMap_append

theorem quote_eq_nil {safe text : List CodePoint} :
  quote safe text = [] ↔ text = []
  := by
  cases text with
  | nil => simp [quote]
  | cons c text =>
    obtain ⟨byte, rest, hbytes⟩ := List.exists_cons_of_length_pos (length_encodeChar_pos c)
    rw [quote, List.flatMap_cons, List.append_eq_nil_iff]
    split_ifs
    · simp
    · simp [hbytes, percentByte]

theorem quote_of_forall_mem {safe text : List CodePoint} (h : ∀ c ∈ text, c ∈ safe) :
  quote safe text = text
  := by
  induction text with
  | nil => rfl
  | cons c text ih =>
    rw [List.forall_mem_cons] at h
    rw [quote, List.flatMap_cons, if_pos (Or.inr h.1), ← quote, ih h.2, List.singleton_append]

theorem hexValue_upperHexDigit {n : ℕ} (h : n < 16) :
  hexValue (upperHexDigit n) = some n
  := by
  interval_cases n <;> rfl

theorem escapeAt_percentByte (byte : UInt8) (rest : List CodePoint) :
  escapeAt (percentByte byte ++ rest) = some byte
  := by
  have hbyte := byte.toNat_lt
  have hvalue : 16 * (byte.toNat / 16) + byte.toNat % 16 = byte.toNat := by omega
  simp only [percentByte, List.cons_append, List.nil_append, escapeAt, if_true]
  rw [hexValue_upperHexDigit (by omega), hexValue_upperHexDigit (by omega)]
  simp only [hvalue, UInt8.ofNat_toNat]

theorem escapeAt_cons_of_ne {c : CodePoint} (h : c ≠ 0x25) (rest : List CodePoint) :
  escapeAt (c :: rest) = none
  := by
  match rest with
  | [] => rfl
  | [_] => rfl
  | _ :: _ :: _ => exact if_neg h

theorem percentDecode_percentByte (byte : UInt8) (rest : List CodePoint) :
  percentDecode (percentByte byte ++ rest) = byte :: percentDecode rest
  := by
  have hescape := escapeAt_percentByte byte rest
  simp only [percentByte, List.cons_append, List.nil_append] at hescape ⊢
  simp only [percentDecode, percentDecodeFrom, hescape]

theorem percentDecode_cons_of_ne {c : CodePoint} (h : c ≠ 0x25) (rest : List CodePoint) :
  percentDecode (c :: rest) = encodeChar c ++ percentDecode rest
  := by
  simp only [percentDecode, percentDecodeFrom, escapeAt_cons_of_ne h]

/-- What was percent-encoded is decoded to the bytes of the text. -/
theorem percentDecode_quote {safe : List CodePoint} (hsafe : 0x25 ∉ safe) (text rest : List CodePoint) :
  percentDecode (quote safe text ++ rest) = bytes text ++ percentDecode rest
  := by
  have hbytes : ∀ (l : List UInt8) (rest : List CodePoint),
      percentDecode (l.flatMap percentByte ++ rest) = l ++ percentDecode rest := by
    intro l rest
    induction l with
    | nil => rfl
    | cons byte l ih =>
      rw [List.flatMap_cons, List.append_assoc, percentDecode_percentByte, ih, List.cons_append]
  induction text with
  | nil => rfl
  | cons c text ih =>
    rw [quote, List.flatMap_cons, List.append_assoc, bytes_cons, List.append_assoc, ← ih]
    split_ifs with hc
    · have hne : c ≠ 0x25 := by
        rintro rfl
        exact hc.elim (by decide) hsafe
      rw [List.singleton_append, percentDecode_cons_of_ne hne]
      rfl
    · rw [hbytes]
      rfl

/-- What was percent-encoded has only characters that are kept, percent signs and digits. -/
theorem forall_mem_quote {P : CodePoint → Prop} {safe : List CodePoint}
    (hunreserved : ∀ c, IsUnreserved c → P c) (hsafe : ∀ c ∈ safe, P c) (hpercent : P 0x25)
    (text : List CodePoint) :
  ∀ c ∈ quote safe text, P c
  := by
  have hdigit : ∀ n < 16, P (upperHexDigit n) := by
    intro n hn
    apply hunreserved
    interval_cases n <;> decide
  intro c hc
  obtain ⟨d, -, hc⟩ := List.mem_flatMap.mp hc
  split_ifs at hc with hd
  · rw [List.mem_singleton] at hc
    subst hc
    exact hd.elim (hunreserved c) (hsafe c)
  · obtain ⟨byte, -, hc⟩ := List.mem_flatMap.mp hc
    have hbyte := byte.toNat_lt
    simp only [percentByte, List.mem_cons, List.not_mem_nil, or_false] at hc
    rcases hc with rfl | rfl | rfl
    · exact hpercent
    · exact hdigit _ (by omega)
    · exact hdigit _ (by omega)

/-- An encoded text can be encoded. -/
theorem encodable_quote {safe : List CodePoint} (hsafe : Encodable safe) (text : List CodePoint) :
  Encodable (quote safe text)
  := by
  apply forall_mem_quote
  · intro c hc
    have hvalues : ∀ n : CodePoint, n = 0x5F ∨ n = 0x2E ∨ n = 0x2D ∨ n = 0x7E → ¬ IsSurrogate n := by
      rintro n (rfl | rfl | rfl | rfl) <;> decide
    rcases hc with hc | hc | hc | hc
    · unfold IsSurrogate
      omega
    · unfold IsSurrogate
      omega
    · unfold IsSurrogate
      omega
    · exact hvalues c hc
  · exact hsafe
  · decide

/-- An escape sequence has three characters. -/
theorem length_of_escapeAt {text : List CodePoint} {byte : UInt8} (h : escapeAt text = some byte) :
  3 ≤ text.length
  := by
  match text with
  | [] => cases h
  | [_] => cases h
  | [_, _] => cases h
  | _ :: _ :: _ :: _ => simp

/-- An escape sequence does not go on with a character that is no digit. -/
theorem escapeAt_append {c : CodePoint} (hc : hexValue c = none) (text rest : List CodePoint)
    (hne : text ≠ []) :
  escapeAt (text ++ c :: rest) = escapeAt text
  := by
  match text, hne with
  | [d], _ =>
    cases rest with
    | nil => rfl
    | cons e rest => simp only [List.cons_append, List.nil_append, escapeAt, hc, ite_self]
  | [d, e], _ =>
    simp only [List.cons_append, List.nil_append, escapeAt, hc]
    cases hexValue e <;> simp
  | d :: e :: f :: text, _ => rfl

theorem percentDecodeFrom_append {c : CodePoint} (hc : hexValue c = none) (skip : ℕ)
    (text rest : List CodePoint) (h : skip ≤ text.length) :
  percentDecodeFrom skip (text ++ c :: rest)
    = percentDecodeFrom skip text ++ percentDecode (c :: rest)
  := by
  induction text generalizing skip with
  | nil =>
    obtain rfl : skip = 0 := Nat.le_zero.mp h
    rfl
  | cons d text ih =>
    cases skip with
    | succ skip =>
      rw [List.cons_append, percentDecodeFrom, percentDecodeFrom,
        ih skip (Nat.le_of_succ_le_succ h)]
    | zero =>
      have hescape := escapeAt_append hc (d :: text) rest (by simp)
      rw [List.cons_append] at hescape ⊢
      cases hbyte : escapeAt (d :: text) with
      | some byte =>
        have hskip := length_of_escapeAt hbyte
        rw [List.length_cons] at hskip
        rw [hbyte] at hescape
        simp only [percentDecodeFrom, hescape, hbyte]
        rw [ih 2 (by omega), List.cons_append]
      | none =>
        rw [hbyte] at hescape
        simp only [percentDecodeFrom, hescape, hbyte]
        rw [ih 0 (Nat.zero_le _), List.append_assoc]

/-- A text is decoded in two in front of a character that is no digit. -/
theorem percentDecode_append {c : CodePoint} (hc : hexValue c = none) (text rest : List CodePoint) :
  percentDecode (text ++ c :: rest) = percentDecode text ++ percentDecode (c :: rest)
  := percentDecodeFrom_append hc 0 text rest (Nat.zero_le _)

/-- Two texts with a slash between them are decoded one after the other. -/
theorem percentDecode_append_slash (text rest : List CodePoint) :
  percentDecode (text ++ 0x2F :: rest) = percentDecode text ++ 0x2F :: percentDecode rest
  := by
  rw [percentDecode_append rfl, percentDecode_cons_of_ne (by decide)]
  rfl

/-- There is an escape sequence in a text. -/
def HasEscape (text : List CodePoint) : Prop :=
  ∃ tail ∈ text.tails, escapeAt tail ≠ none

instance : DecidablePred HasEscape :=
  fun text => List.decidableBEx _ text.tails

theorem hasEscape_cons {c : CodePoint} {text : List CodePoint} :
  HasEscape (c :: text) ↔ escapeAt (c :: text) ≠ none ∨ HasEscape text
  := by
  unfold HasEscape
  rw [List.tails_cons, List.exists_mem_cons_iff]

/-- Without escape sequences, a text is decoded to its bytes. -/
theorem percentDecode_of_not_hasEscape {text : List CodePoint} (h : ¬ HasEscape text) :
  percentDecode text = bytes text
  := by
  induction text with
  | nil => rfl
  | cons c text ih =>
    rw [hasEscape_cons, not_or, not_not] at h
    have hrest := ih h.2
    unfold percentDecode at hrest ⊢
    simp only [percentDecodeFrom, h.1]
    rw [hrest, bytes_cons]

/-- Behind a character that is no digit, the escape sequences are those of the two texts. -/
theorem hasEscape_append {c : CodePoint} (hc : hexValue c = none) (text rest : List CodePoint) :
  HasEscape (text ++ c :: rest) ↔ HasEscape text ∨ HasEscape (c :: rest)
  := by
  induction text with
  | nil => simp [HasEscape, escapeAt]
  | cons d text ih =>
    have hescape := escapeAt_append hc (d :: text) rest (by simp)
    rw [List.cons_append] at hescape ⊢
    rw [hasEscape_cons, hasEscape_cons, hescape, ih, or_assoc]

/-- A text without percent signs has no escape sequences. -/
theorem not_hasEscape_of_notMem {text : List CodePoint} (h : 0x25 ∉ text) :
  ¬ HasEscape text
  := by
  induction text with
  | nil => simp [HasEscape, escapeAt]
  | cons c text ih =>
    rw [List.mem_cons, not_or] at h
    rw [hasEscape_cons, not_or, not_not]
    exact ⟨escapeAt_cons_of_ne (Ne.symm h.1) text, ih h.2⟩

/-- An encoding of characters is decoded to as many characters, or to fewer when it has escape
sequences. -/
theorem length_decodeReplace_percentDecodeFrom {text : List CodePoint} (hencodable : Encodable text)
    (skip : ℕ) (hskip : skip ≤ text.length) :
  (decodeReplace (percentDecodeFrom skip text)).length + skip ≤ text.length
    ∧ (HasEscape (text.drop skip) →
      (decodeReplace (percentDecodeFrom skip text)).length + skip < text.length)
  := by
  induction text generalizing skip with
  | nil =>
    obtain rfl : skip = 0 := Nat.le_zero.mp hskip
    constructor
    · exact Nat.le_refl _
    · intro h
      exact absurd h (not_hasEscape_of_notMem List.not_mem_nil)
  | cons c text ih =>
    obtain ⟨hc, htext⟩ := encodable_cons.mp hencodable
    cases skip with
    | succ skip =>
      obtain ⟨hle, hlt⟩ := ih htext skip (Nat.le_of_succ_le_succ hskip)
      rw [percentDecodeFrom, List.drop_succ_cons, List.length_cons]
      constructor
      · omega
      · intro h
        have hless := hlt h
        omega
    | zero =>
      cases hbyte : escapeAt (c :: text) with
      | some byte =>
        have hlength := length_of_escapeAt hbyte
        rw [List.length_cons] at hlength
        obtain ⟨hle, -⟩ := ih htext 2 (by omega)
        have hcons := length_decodeReplace_cons_le byte (percentDecodeFrom 2 text)
        simp only [percentDecodeFrom, hbyte, List.length_cons]
        omega
      | none =>
        obtain ⟨hle, hlt⟩ := ih htext 0 (Nat.zero_le _)
        have hcons : decodeReplace (encodeChar c ++ percentDecodeFrom 0 text)
            = decodeReplace [] ++ c :: decodeReplace (percentDecodeFrom 0 text) :=
          decodeReplace_append_encodeChar [] hc _
        simp only [percentDecodeFrom, hbyte, hcons, List.drop_zero, hasEscape_cons, ne_eq,
          not_true_eq_false, false_or]
        simp only [List.drop_zero] at hlt
        have hnil : (decodeReplace []).length = 0 := rfl
        simp only [List.length_append, List.length_cons, hnil]
        constructor
        · omega
        · intro h
          have hless := hlt h
          omega

/-! ### Dot segments -/

/-- The segment that goes up. -/
def up : List UInt8 := [0x2E, 0x2E]

/-- The segment that stays. -/
def here : List UInt8 := [0x2E]

/-- The segments of an absolute path, which begins with a slash unless it is empty. -/
def segments : List UInt8 → List (List UInt8)
  | [] => []
  | _ :: rest => rest.splitOn 0x2F

/-- Go on from a directory by a segment. -/
def descendOne (directory : List (List UInt8)) (segment : List UInt8) : List (List UInt8) :=
  if segment = up then directory.dropLast
  else if segment = here then directory
  else directory ++ [segment]

/-- Go on from a directory by segments. -/
def descend (directory path : List (List UInt8)) : List (List UInt8) :=
  path.foldl descendOne directory

/-- What is left of a last dot segment: an empty one. -/
def trailing (path : List (List UInt8)) : List (List UInt8) :=
  if path.getLast? = some up ∨ path.getLast? = some here then [[]] else []

/-- Remove the dot segments of an absolute path. -/
def removeDots (path : List (List UInt8)) : List (List UInt8) :=
  descend [] path ++ trailing path

/-- How far a path goes up in all, and the names by which it then goes down. -/
def climb (path : List (List UInt8)) : ℕ × List (List UInt8) :=
  path.foldl
    (fun reached segment =>
      if segment = up then
        if reached.2 = [] then (reached.1 + 1, []) else (reached.1, reached.2.dropLast)
      else if segment = here then reached
      else (reached.1, reached.2 ++ [segment]))
    (0, [])

/-- A path leaves as many directories as it goes up, and enters those of the names. -/
theorem descend_eq (directory path : List (List UInt8)) :
  descend directory path
    = directory.take (directory.length - (climb path).1) ++ (climb path).2
  := by
  induction path using List.reverseRecOn with
  | nil => simp [descend, climb]
  | append_singleton path segment ih =>
    unfold descend climb at ih ⊢
    rw [List.foldl_append, List.foldl_append, ih, List.foldl_cons, List.foldl_nil, List.foldl_cons,
      List.foldl_nil]
    generalize List.foldl _ (0, []) path = reached
    obtain ⟨n, names⟩ := reached
    unfold descendOne
    split_ifs with hup hnames hhere
    · dsimp only at hnames
      subst hnames
      rw [List.append_nil, List.append_nil, List.dropLast_eq_take, List.length_take,
        List.take_take]
      congr 1
      dsimp only
      omega
    · rw [List.dropLast_append_of_ne_nil hnames]
    · rfl
    · rw [List.append_assoc]

theorem descend_append (directory path path' : List (List UInt8)) :
  descend directory (path ++ path') = descend (descend directory path) path'
  := List.foldl_append

theorem trailing_append (directory : List (List UInt8)) {path : List (List UInt8)} (h : path ≠ []) :
  trailing (directory ++ path) = trailing path
  := by
  rw [trailing, trailing, List.getLast?_append_of_ne_nil _ h]

/-- A path that does not go up stays where it is. -/
theorem climb_fst_eq_zero {path : List (List UInt8)} (h : up ∉ path) :
  (climb path).1 = 0
  := by
  induction path using List.reverseRecOn with
  | nil => rfl
  | append_singleton path segment ih =>
    rw [List.mem_append, List.mem_singleton, not_or] at h
    unfold climb at ih ⊢
    rw [List.foldl_append, List.foldl_cons, List.foldl_nil, if_neg (Ne.symm h.2)]
    split_ifs
    · exact ih h.1
    · exact ih h.1

/-- A path that leaves a directory comes back to it by the names of the directories it has left. -/
def StaysIn (directory path : List (List UInt8)) : Prop :=
  directory.drop (directory.length - (climb path).1) <+: (climb path).2 ++ trailing path

instance decidableStaysIn (directory path : List (List UInt8)) : Decidable (StaysIn directory path) :=
  inferInstanceAs (Decidable (_ <+: _))

theorem staysIn_of_climb {directory path : List (List UInt8)} (h : (climb path).1 = 0) :
  StaysIn directory path
  := by
  simp [StaysIn, h]

/-- Without its dot segments, a path behind a directory goes on from it if it comes back by the names
of the directories it has left, and goes on from there. -/
theorem removeDots_append_eq_iff (directory rest : List (List UInt8)) {path : List (List UInt8)}
    (h : path ≠ []) :
  removeDots (directory ++ path) = descend [] directory ++ rest
    ↔ (climb path).2 ++ trailing path
      = (descend [] directory).drop ((descend [] directory).length - (climb path).1) ++ rest
  := by
  rw [removeDots, descend_append, trailing_append _ h]
  generalize descend [] directory = reached
  rw [descend_eq reached path, List.append_assoc]
  have hsplit := List.take_append_drop (reached.length - (climb path).1) reached
  conv_lhs =>
    rhs
    rw [← hsplit, List.append_assoc]
  exact List.append_right_inj _

/-- Without its dot segments, a path behind a directory is in the directory if it stays there. -/
theorem prefix_removeDots_iff (directory : List (List UInt8)) {path : List (List UInt8)}
    (h : path ≠ []) :
  descend [] directory <+: removeDots (directory ++ path) ↔ StaysIn (descend [] directory) path
  := by
  apply exists_congr
  intro rest
  rw [eq_comm, removeDots_append_eq_iff directory rest h, eq_comm]

/-- The directory of a path, without slashes at its end. -/
def directoryOf (base : List CodePoint) : List (List UInt8) :=
  descend [] (segments (percentDecode (base.rdropWhile (· = 0x2F))))

/-- A path is that of a directory or lies beneath it, once both are decoded and have no dot
segments. -/
def Beneath (base path : List CodePoint) : Prop :=
  directoryOf base <+: removeDots (segments (percentDecode path))

instance decidableBeneath (base path : List CodePoint) : Decidable (Beneath base path) :=
  inferInstanceAs (Decidable (_ <+: _))

theorem segments_append_slash {base : List CodePoint} (hbase : ∀ c ∈ base.head?, c = 0x2F)
    (rest : List CodePoint) :
  segments (percentDecode (base ++ 0x2F :: rest))
    = segments (percentDecode base) ++ (percentDecode rest).splitOn 0x2F
  := by
  have hslash : ∀ text, percentDecode (0x2F :: text) = 0x2F :: percentDecode text :=
    percentDecode_append_slash []
  cases base with
  | nil =>
    rw [List.nil_append, hslash]
    rfl
  | cons c base =>
    obtain rfl : c = 0x2F := hbase c rfl
    rw [List.cons_append, hslash, hslash, percentDecode_append_slash]
    exact List.splitOn_append_cons_self _ _

variable {base : List CodePoint}

theorem head?_rdropWhile (hbase : ∀ c ∈ base.head?, c = 0x2F) :
  ∀ c ∈ (base.rdropWhile (· = 0x2F)).head?, c = 0x2F
  := by
  intro c hc
  obtain ⟨rest, hrest⟩ := base.rdropWhile_prefix (fun c => decide (c = 0x2F))
  apply hbase c
  rw [← hrest, List.head?_append, Option.mem_def.mp hc]
  rfl

/-- Behind the path of a directory, a path is beneath it if it stays there. -/
theorem beneath_append_iff (hbase : ∀ c ∈ base.head?, c = 0x2F) (rest : List CodePoint) :
  Beneath base (base.rdropWhile (· = 0x2F) ++ 0x2F :: rest)
    ↔ StaysIn (directoryOf base) ((percentDecode rest).splitOn 0x2F)
  := by
  rw [Beneath, segments_append_slash (head?_rdropWhile hbase), directoryOf,
    prefix_removeDots_iff _ (List.splitOn_ne_nil _ _)]

theorem beneath_rdropWhile (base : List CodePoint) :
  Beneath base (base.rdropWhile (· = 0x2F))
  := List.prefix_append _ _

/-- Slashes have only empty segments between them. -/
theorem up_notMem_splitOn {slashes : List CodePoint} (h : ∀ c ∈ slashes, c = 0x2F) :
  up ∉ (percentDecode slashes).splitOn 0x2F
  := by
  induction slashes with
  | nil => decide
  | cons c slashes ih =>
    obtain rfl : c = 0x2F := h c List.mem_cons_self
    have hslash : percentDecode (0x2F :: slashes) = 0x2F :: percentDecode slashes :=
      percentDecode_append_slash [] slashes
    rw [hslash, List.splitOn_cons_eq_if_modifyHead, if_pos (by simp), List.mem_cons, not_or]
    constructor
    · decide
    · exact ih (fun c hc => h c (List.mem_cons_of_mem _ hc))

/-- The path of a directory is beneath it, with any slashes behind it. -/
theorem beneath_append_slashes (hbase : ∀ c ∈ base.head?, c = 0x2F) {slashes : List CodePoint}
    (h : ∀ c ∈ slashes, c = 0x2F) :
  Beneath base (base.rdropWhile (· = 0x2F) ++ slashes)
  := by
  cases slashes with
  | nil =>
    rw [List.append_nil]
    exact beneath_rdropWhile base
  | cons c slashes =>
    obtain rfl : c = 0x2F := h c List.mem_cons_self
    rw [beneath_append_iff hbase]
    apply staysIn_of_climb
    apply climb_fst_eq_zero
    exact up_notMem_splitOn (fun c hc => h c (List.mem_cons_of_mem _ hc))

theorem beneath_self (hbase : ∀ c ∈ base.head?, c = 0x2F) :
  Beneath base base
  := by
  have hslashes : ∀ c ∈ base.rtakeWhile (· = 0x2F), c = 0x2F := by
    intro c hc
    simpa using List.mem_rtakeWhile_imp hc
  have hbeneath := beneath_append_slashes hbase hslashes
  rwa [List.rdropWhile_append_rtakeWhile] at hbeneath

/-- A text is taken apart in front of the characters at its end for which a condition holds. -/
theorem rsplit_append {p : CodePoint → Bool} {front back : List CodePoint}
    (hfront : ∀ c ∈ front.getLast?, p c = false) (hback : ∀ c ∈ back, p c = true) :
  (front ++ back).rdropWhile p = front ∧ (front ++ back).rtakeWhile p = back
  := by
  have hreverse : ∀ c ∈ back.reverse, p c = true := by
    intro c hc
    exact hback c (List.mem_reverse.mp hc)
  rw [List.rdropWhile, List.rtakeWhile, List.reverse_append, List.dropWhile_append_of_pos hreverse,
    List.takeWhile_append_of_pos hreverse]
  induction front using List.reverseRecOn with
  | nil => simp
  | append_singleton front c =>
    have hc : p c = false := hfront c (by simp)
    simp [hc]

/-- The last character of a text without slashes at its end is not a slash. -/
theorem getLast?_rdropWhile (text : List CodePoint) :
  ∀ c ∈ (text.rdropWhile (· = 0x2F)).getLast?, decide (c = 0x2F) = false
  := by
  intro c hc
  by_cases hnil : text.rdropWhile (· = 0x2F) = []
  · rw [hnil] at hc
    cases hc
  · rw [List.getLast?_eq_some_getLast hnil] at hc
    have hlast := List.rdropWhile_last_not _ text hnil
    rw [Option.some.inj hc] at hlast
    simpa using hlast

end Url
