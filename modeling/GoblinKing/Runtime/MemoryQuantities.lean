import GoblinKing.Runtime.DockerCommand
import Mathlib.Algebra.GroupWithZero.Nat

/-!
# Quantities of memory

A limit of memory is a text of digits and a unit. The ceilings are checked on the bytes that the
text denotes, with units that are powers of 1000 and units that are powers of 1024. Docker gets
the text with the binary units replaced by letters, and reads every letter as a power of 1024. So
the two agree on the numbers without a unit and on the binary units, and disagree on the decimal
ones, which Docker gets as they are.
-/

namespace GoblinKing

/-! ### Units -/

/-- The prefixes of the units. -/
inductive UnitPrefix where
  | kilo
  | mega
  | giga
  | tera
  deriving DecidableEq

/-- The letter of a prefix. -/
def UnitPrefix.letter : UnitPrefix → Char
  | kilo => 'K'
  | mega => 'M'
  | giga => 'G'
  | tera => 'T'

/-- The power that a prefix stands for. -/
def UnitPrefix.exponent : UnitPrefix → ℕ
  | kilo => 1
  | mega => 2
  | giga => 3
  | tera => 4

/-- The units of a quantity of bytes. -/
inductive ByteUnit where
  | bytes
  | decimal (unit : UnitPrefix)
  | binary (unit : UnitPrefix)
  deriving DecidableEq

/-- A unit as it is written. -/
def ByteUnit.text : ByteUnit → List Char
  | bytes => []
  | decimal unit => [unit.letter]
  | binary unit => [unit.letter, 'i']

/-- The bytes of a unit. -/
def ByteUnit.multiplier : ByteUnit → ℕ
  | bytes => 1
  | decimal unit => 1000 ^ unit.exponent
  | binary unit => 1024 ^ unit.exponent

/-- A unit as it is written for Docker. -/
def ByteUnit.dockerText : ByteUnit → List Char
  | bytes => []
  | decimal unit => [unit.letter]
  | binary unit => [unit.letter.toLower]

/-- The bytes of a unit that is written for Docker, as Docker reads it. -/
def ByteUnit.dockerMultiplier : ByteUnit → ℕ
  | bytes => 1
  | decimal unit | binary unit => 1024 ^ unit.exponent

/-- Decimal units are read as larger ones by Docker, the other units as they are. -/
theorem ByteUnit.dockerMultiplier_eq_iff (unit : ByteUnit) :
  unit.dockerMultiplier = unit.multiplier ↔ ∀ letter, unit ≠ .decimal letter
  := by
  cases unit with
  | bytes => simp [dockerMultiplier, multiplier]
  | binary letter => simp [dockerMultiplier, multiplier]
  | decimal letter =>
      cases letter <;> simp [dockerMultiplier, multiplier, UnitPrefix.exponent]

/-- The multipliers are those of the units. -/
theorem byteMultiplier_eq_some {text : String} {multiplier : ℕ}
    (h : byteMultiplier text = some multiplier) :
  ∃ unit : ByteUnit, text.toList = unit.text ∧ multiplier = unit.multiplier
  := by
  unfold byteMultiplier at h
  split at h
  case h_1 => exact ⟨.bytes, rfl, (Option.some.inj h).symm⟩
  case h_2 => exact ⟨.decimal .kilo, rfl, (Option.some.inj h).symm⟩
  case h_3 => exact ⟨.decimal .mega, rfl, (Option.some.inj h).symm⟩
  case h_4 => exact ⟨.decimal .giga, rfl, (Option.some.inj h).symm⟩
  case h_5 => exact ⟨.decimal .tera, rfl, (Option.some.inj h).symm⟩
  case h_6 => exact ⟨.binary .kilo, rfl, (Option.some.inj h).symm⟩
  case h_7 => exact ⟨.binary .mega, rfl, (Option.some.inj h).symm⟩
  case h_8 => exact ⟨.binary .giga, rfl, (Option.some.inj h).symm⟩
  case h_9 => exact ⟨.binary .tera, rfl, (Option.some.inj h).symm⟩
  case h_10 => cases h

/-! ### Quantities -/

/-- The number that decimal digits denote. -/
def decimalValue (digits : List Char) : ℕ :=
  digits.foldl (fun n digit => 10 * n + (digit.toNat - '0'.toNat)) 0

/-- Digits denote zero when they are zeros. -/
theorem decimalValue_eq_zero {digits : List Char} (h : ∀ c ∈ digits, c.isDigit = true) :
  decimalValue digits = 0 ↔ ∀ c ∈ digits, c = '0'
  := by
  induction digits using List.reverseRecOn with
  | nil => simp [decimalValue]
  | append_singleton digits digit ih =>
      have hdigits : ∀ c ∈ digits, c.isDigit = true :=
        fun c hc => h c (List.mem_append_left _ hc)
      have hbounds : '0'.toNat ≤ digit.toNat := by
        have hdigit := h digit (List.mem_append_right _ (List.mem_singleton_self _))
        simp only [Char.isDigit, Bool.and_eq_true, decide_eq_true_eq, ge_iff_le,
          UInt32.le_iff_toNat_le] at hdigit
        exact hdigit.1
      have hzero : digit.toNat - '0'.toNat = 0 ↔ digit = '0' := by
        rw [← Char.toNat_inj]
        omega
      have hstep : decimalValue (digits ++ [digit])
          = 10 * decimalValue digits + (digit.toNat - '0'.toNat) := by
        simp [decimalValue]
      rw [hstep, List.forall_mem_append, List.forall_mem_singleton, ← ih hdigits, ← hzero]
      omega

/-- A quantity of bytes: digits and a unit. -/
structure ByteQuantity where
  digits : List Char
  unit : ByteUnit
  nonempty : digits ≠ []
  decimal : ∀ c ∈ digits, c.isDigit = true

/-- A quantity as it is written. -/
def ByteQuantity.text (quantity : ByteQuantity) : List Char :=
  quantity.digits ++ quantity.unit.text

/-- The bytes of a quantity. -/
def ByteQuantity.bytes (quantity : ByteQuantity) : ℕ :=
  decimalValue quantity.digits * quantity.unit.multiplier

/-- A quantity as it is written for Docker. -/
def ByteQuantity.dockerText (quantity : ByteQuantity) : List Char :=
  quantity.digits ++ quantity.unit.dockerText

/-- The bytes of a quantity that is written for Docker, as Docker reads it. -/
def ByteQuantity.dockerBytes (quantity : ByteQuantity) : ℕ :=
  decimalValue quantity.digits * quantity.unit.dockerMultiplier

/-- Docker reads a quantity as it is, unless it is one of a decimal unit and not zero. -/
theorem ByteQuantity.dockerBytes_eq_iff (quantity : ByteQuantity) :
  quantity.dockerBytes = quantity.bytes ↔
    ∀ letter, quantity.unit = .decimal letter → ∀ c ∈ quantity.digits, c = '0'
  := by
  rw [dockerBytes, bytes, mul_eq_mul_left_iff, quantity.unit.dockerMultiplier_eq_iff,
    decimalValue_eq_zero quantity.decimal]
  constructor
  · rintro (hunit | hzeros) letter heq
    · cases hunit letter heq
    · exact hzeros
  · intro h
    by_cases hunit : ∀ letter, quantity.unit ≠ .decimal letter
    · left
      exact hunit
    · right
      push Not at hunit
      obtain ⟨letter, hletter⟩ := hunit
      exact h letter hletter

/-- A text that is accepted is a quantity, which may be followed by a newline. -/
theorem parseBytes_ok {value : String} {n : ℕ} (h : parseBytes (some value) = .ok (some n)) :
  ∃ quantity : ByteQuantity, n = quantity.bytes ∧
    (value.toList = quantity.text ∨ value.toList = quantity.text ++ ['\n'])
  := by
  rw [parseBytes] at h
  split at h
  case h_1 => cases h
  case h_2 multiplier hmultiplier =>
    obtain ⟨unit, hunit, rfl⟩ := byteMultiplier_eq_some hmultiplier
    obtain ⟨_, hempty, h⟩ := Except.bind_eq_ok.mp h
    obtain ⟨number, hnumber, h⟩ := Except.bind_eq_ok.mp h
    obtain ⟨_, _, hvalue⟩ := Except.bind_eq_ok.mp hnumber
    have hdigits := List.isEmpty_eq_false_iff.mp (raiseIf_ok.mp hempty)
    obtain rfl := Except.ok.inj hvalue
    obtain rfl := Option.some.inj (Except.ok.inj h)
    refine ⟨{
      digits := _
      unit := unit
      nonempty := hdigits
      decimal := fun c hc => List.mem_takeWhile_imp hc }, rfl, ?_⟩
    rw [String.toList_ofList] at hunit
    rw [ByteQuantity.text, ← hunit, List.takeWhile_append_dropWhile]
    split
    case isTrue hline =>
      right
      exact (List.dropLast_append_getLast? _ hline).symm
    case isFalse => exact .inl rfl

/-! ### Docker -/

/-- Two characters end a text with the two characters that it ends with. -/
theorem isSuffixOf_pair (text : List Char) (a b c d : Char) :
  [a, b].isSuffixOf (text ++ [c, d]) = (a == c && b == d)
  := by
  rw [Bool.eq_iff_iff, List.isSuffixOf_iff_suffix, ← List.reverse_prefix]
  simp [and_comm]

/-- A text whose last character is not an `i` is left as it is. -/
theorem dockerMemoryQuantity_eq_self {value : String} (h : value.toList.getLast? ≠ some 'i') :
  dockerMemoryQuantity value = value
  := by
  have hsuffix : ∀ letter, [letter, 'i'].isSuffixOf value.toList = false := by
    intro letter
    apply Bool.eq_false_iff.mpr
    intro hsuffix
    obtain ⟨front, hfront⟩ := List.isSuffixOf_iff_suffix.mp hsuffix
    apply h
    rw [← hfront, List.getLast?_append]
    rfl
  simp [dockerMemoryQuantity, hsuffix]

/-- The last character of a quantity is a digit, the letter of a decimal unit or an `i`. -/
theorem ByteQuantity.getLast?_text (quantity : ByteQuantity) :
  ∃ c, quantity.text.getLast? = some c ∧
    match quantity.unit with
    | .bytes => c.isDigit = true
    | .decimal letter => c = letter.letter
    | .binary _ => c = 'i'
  := by
  cases hunit : quantity.unit with
  | bytes =>
      use quantity.digits.getLast quantity.nonempty
      constructor
      · rw [text, hunit, ByteUnit.text, List.append_nil,
          List.getLast?_eq_some_getLast quantity.nonempty]
      · exact quantity.decimal _ (List.getLast_mem _)
  | decimal letter => exact ⟨letter.letter, by simp [text, hunit, ByteUnit.text], rfl⟩
  | binary letter => exact ⟨'i', by simp [text, hunit, ByteUnit.text], rfl⟩

/-- The unit of a quantity is replaced by the one for Docker. -/
theorem ByteQuantity.dockerMemoryQuantity_text {quantity : ByteQuantity} {value : String}
    (h : value.toList = quantity.text) :
  dockerMemoryQuantity value = String.ofList quantity.dockerText
  := by
  have hvalue : value = String.ofList quantity.text := by rw [← h, String.ofList_toList]
  obtain ⟨c, hlast, hc⟩ := quantity.getLast?_text
  cases hunit : quantity.unit with
  | bytes =>
      simp only [hunit] at hc
      rw [dockerMemoryQuantity_eq_self, hvalue, text, dockerText, hunit]
      · rfl
      · rw [h, hlast]
        rintro ⟨⟩
        cases hc
  | decimal letter =>
      simp only [hunit] at hc
      rw [dockerMemoryQuantity_eq_self, hvalue, text, dockerText, hunit]
      · rfl
      · rw [h, hlast, hc]
        cases letter <;> decide
  | binary letter =>
      rw [text, hunit, ByteUnit.text] at h
      rw [dockerMemoryQuantity, h, dockerText, hunit]
      cases letter <;> simp [isSuffixOf_pair, UnitPrefix.letter, ByteUnit.dockerText]

/-- The power of 1024 that Docker reads a letter as, in either case. -/
def dockerExponent : Char → Option ℕ
  | 'k' | 'K' => some 1
  | 'm' | 'M' => some 2
  | 'g' | 'G' => some 3
  | 't' | 'T' => some 4
  | _ => none

/-- How Docker reads a size: a number without a unit is one of bytes, a letter in either case is a
power of 1024, and a text that ends with a newline is no size. -/
structure ReadsSizes (readsMemory : String → Option ℕ) : Prop where
  number : ∀ digits : List Char, digits ≠ [] → (∀ c ∈ digits, c.isDigit = true) →
    readsMemory (String.ofList digits) = some (decimalValue digits)
  suffixed : ∀ (digits : List Char) letter exponent, digits ≠ [] →
    (∀ c ∈ digits, c.isDigit = true) → dockerExponent letter = some exponent →
    readsMemory (String.ofList (digits ++ [letter])) = some (decimalValue digits * 1024 ^ exponent)
  refused : ∀ text : String, text.toList.getLast? = some '\n' → readsMemory text = none

/-- Docker reads a quantity that is written for it. -/
theorem ReadsSizes.dockerText {readsMemory : String → Option ℕ} (h : ReadsSizes readsMemory)
    (quantity : ByteQuantity) :
  readsMemory (String.ofList quantity.dockerText) = some quantity.dockerBytes
  := by
  rw [ByteQuantity.dockerText, ByteQuantity.dockerBytes]
  cases quantity.unit with
  | bytes =>
      rw [ByteUnit.dockerText, List.append_nil, ByteUnit.dockerMultiplier, Nat.mul_one]
      exact h.number _ quantity.nonempty quantity.decimal
  | decimal letter =>
      apply h.suffixed _ _ _ quantity.nonempty quantity.decimal
      cases letter <;> rfl
  | binary letter =>
      apply h.suffixed _ _ _ quantity.nonempty quantity.decimal
      cases letter <;> rfl

/-- The memory option of a container has the limit of its policy. -/
theorem limit_of_memory_option {library : RuntimeLibrary} {policy : ResourcePolicy}
    {options : List RunOption} {text : String}
    (h : dockerPolicyArgs library policy = .ok options) (htext : .value .memory text ∈ options) :
  ∃ limit, policy.memory.limit = some limit ∧ text = dockerMemoryQuantity limit
  := by
  obtain ⟨cpus, hcpus, h⟩ := Except.bind_eq_ok.mp h
  obtain rfl := Except.ok.inj h
  have hcpus : .value .memory text ∉ cpus := by
    rw [cpusArgs] at hcpus
    split at hcpus
    case h_1 =>
      obtain rfl := Except.ok.inj hcpus
      simp
    case h_2 =>
      split at hcpus
      case isTrue =>
        obtain ⟨number, -, hcpus⟩ := Except.bind_eq_ok.mp hcpus
        obtain rfl := Except.ok.inj hcpus
        simp
      case isFalse =>
        obtain rfl := Except.ok.inj hcpus
        simp
  have hroot : .value .memory text
      ∉ if policy.filesystem.readOnlyRoot = some true then [RunOption.readOnly] else [] := by
    split <;> simp
  simp only [List.mem_append, hcpus, hroot, false_or, or_false] at htext
  have hlimit : ∃ limit, (policy.memory.limit = some limit ∧ ¬ limit = "")
      ∧ dockerMemoryQuantity limit = text := by
    simpa using htext
  obtain ⟨limit, ⟨hlimit, -⟩, rfl⟩ := hlimit
  exact ⟨limit, hlimit, rfl⟩

/-! ### Agreement -/

/-- A limit means the same to the ceilings and to Docker: Docker enforces the bytes that the
ceilings are checked on, and so the container of a policy that is within its ceiling gets no more
than the ceiling. -/
structure MeansTheSame (readsMemory : String → Option ℕ) (value : String) (n : ℕ) : Prop where
  enforced : readsMemory (dockerMemoryQuantity value) = some n
  withinCeiling : ∀ (library : RuntimeLibrary) (ceilings policy : ResourcePolicy) (kind : String) options
    text bytes ceiling, policy.memory.limit = some value →
    validateWithinCeilings library.floats ceilings kind policy = .ok () →
    parseBytes ceilings.memory.limit = .ok (some ceiling) →
    dockerPolicyArgs library policy = .ok options → .value .memory text ∈ options →
    readsMemory text = some bytes → bytes ≤ ceiling

/-- A text that is read alike: it does not end with a newline, and not with the letter of a decimal
unit either, unless everything in front of the letter is zeros. -/
def ReadAlike (value : String) : Prop :=
  value.toList.getLast? ≠ some '\n' ∧
    ∀ unit : UnitPrefix, value.toList.getLast? = some unit.letter →
      ∀ c ∈ value.toList.dropLast, c = '0'

/-- A quantity without a newline is read alike when its unit is not a decimal one or its digits are
zeros. -/
theorem ByteQuantity.readAlike_iff {quantity : ByteQuantity} {value : String}
    (h : value.toList = quantity.text) :
  ReadAlike value ↔ ∀ letter, quantity.unit = .decimal letter → ∀ c ∈ quantity.digits, c = '0'
  := by
  obtain ⟨c, hlast, hc⟩ := quantity.getLast?_text
  rw [ReadAlike, h, hlast]
  cases hunit : quantity.unit with
  | bytes =>
      simp only [hunit] at hc
      have hletters : ∀ unit : UnitPrefix, c ≠ unit.letter := by
        rintro unit rfl
        cases unit <;> cases hc
      have hline : c ≠ '\n' := by
        rintro rfl
        cases hc
      simp [hletters, hline]
  | decimal letter =>
      simp only [hunit] at hc
      have hline : letter.letter ≠ '\n' := by cases letter <;> decide
      have hfront : quantity.text.dropLast = quantity.digits := by
        simp [text, hunit, ByteUnit.text]
      rw [hc, hfront]
      constructor
      · rintro ⟨-, hzeros⟩ other -
        exact hzeros letter rfl
      · intro hzeros
        use by simpa using hline
        intro unit _
        exact hzeros letter rfl
  | binary letter =>
      simp only [hunit] at hc
      have hletters : ∀ unit : UnitPrefix, 'i' ≠ unit.letter := by
        intro unit
        cases unit <;> decide
      simp [hc, hletters]

/-- A limit that is enforced as it is keeps the containers within their ceilings. -/
theorem MeansTheSame.of_enforced {readsMemory : String → Option ℕ} {value : String} {n : ℕ}
    (hvalue : parseBytes (some value) = .ok (some n))
    (h : readsMemory (dockerMemoryQuantity value) = some n) :
  MeansTheSame readsMemory value n
  := by
  use h
  intro library ceilings policy kind options text bytes ceiling hlimit hvalid hceiling hoptions
    htext hbytes
  obtain ⟨limit, hlimit', rfl⟩ := limit_of_memory_option hoptions htext
  obtain rfl := Option.some.inj (hlimit'.symm.trans hlimit)
  obtain rfl := Option.some.inj (hbytes.symm.trans h)
  apply memory_le_of_validateWithinCeilings hvalid _ hceiling
  rw [hlimit, hvalue]

/-- The ceilings and Docker read a limit of memory alike exactly when it has no final newline and
no decimal unit, unless it is zero. -/
theorem memoryQuantities_agree_iff {readsMemory : String → Option ℕ}
    (hdocker : ReadsSizes readsMemory) {value : String} {n : ℕ}
    (hvalue : parseBytes (some value) = .ok (some n)) :
  MeansTheSame readsMemory value n ↔ ReadAlike value
  := by
  obtain ⟨quantity, rfl, htext | htext⟩ := parseBytes_ok hvalue
  · have henforced : readsMemory (dockerMemoryQuantity value) = some quantity.dockerBytes := by
      rw [ByteQuantity.dockerMemoryQuantity_text htext, hdocker.dockerText]
    rw [ByteQuantity.readAlike_iff htext, ← quantity.dockerBytes_eq_iff]
    constructor
    · intro h
      exact Option.some.inj (henforced.symm.trans h.enforced)
    · intro h
      exact .of_enforced hvalue (henforced.trans (congrArg some h))
  · have hline : value.toList.getLast? = some '\n' := by simp [htext]
    have hrefused : readsMemory (dockerMemoryQuantity value) = none := by
      rw [dockerMemoryQuantity_eq_self (by simp [hline]), hdocker.refused value hline]
    constructor
    · intro h
      cases hrefused.symm.trans h.enforced
    · rintro ⟨hnone, -⟩
      cases hnone hline

/-- A reader of sizes that are whole numbers with at most one letter. -/
def dockerSize (text : String) : Option ℕ :=
  let digits := text.toList.takeWhile Char.isDigit
  if digits.isEmpty then
    none
  else
    match text.toList.dropWhile Char.isDigit with
    | [] => some (decimalValue digits)
    | [letter] => (dockerExponent letter).map (fun exponent => decimalValue digits * 1024 ^ exponent)
    | _ => none

/-- The reader reads sizes as Docker does. -/
theorem readsSizes_dockerSize :
  ReadsSizes dockerSize
  := by
  have htake : ∀ (digits rest : List Char), (∀ c ∈ digits, c.isDigit = true) →
      (∀ c ∈ rest, c.isDigit = false) → (digits ++ rest).takeWhile Char.isDigit = digits := by
    intro digits rest hdigits hrest
    rw [List.takeWhile_append_of_pos hdigits, List.takeWhile_eq_nil_iff.mpr, List.append_nil]
    intro hpos
    simp [hrest _ (List.getElem_mem hpos)]
  have hdrop : ∀ (digits rest : List Char), (∀ c ∈ digits, c.isDigit = true) →
      (∀ c ∈ rest, c.isDigit = false) → (digits ++ rest).dropWhile Char.isDigit = rest := by
    intro digits rest hdigits hrest
    have happend := List.takeWhile_append_dropWhile (p := Char.isDigit) (l := digits ++ rest)
    rw [htake digits rest hdigits hrest] at happend
    exact List.append_cancel_left happend
  constructor
  · intro digits hne hdigits
    have htake' := htake digits [] hdigits (by simp)
    have hdrop' := hdrop digits [] hdigits (by simp)
    rw [List.append_nil] at htake' hdrop'
    simp [dockerSize, htake', hdrop', hne]
  · intro digits letter exponent hne hdigits hletter
    have hplain : letter.isDigit = false := by
      unfold dockerExponent at hletter
      split at hletter <;> first | rfl | cases hletter
    have hrest : ∀ c ∈ [letter], c.isDigit = false := by simpa using hplain
    simp [dockerSize, htake digits [letter] hdigits hrest, hdrop digits [letter] hdigits hrest, hne,
      hletter]
  · intro text hline
    have hsplit := List.takeWhile_append_dropWhile (p := Char.isDigit) (l := text.toList)
    cases hrest : text.toList.dropWhile Char.isDigit with
    | nil =>
        have hdigit := List.dropWhile_eq_nil_iff.mp hrest '\n' (List.mem_of_getLast? hline)
        cases hdigit
    | cons letter rest =>
        cases rest with
        | nil =>
            rw [hrest] at hsplit
            rw [← hsplit, List.getLast?_concat] at hline
            obtain rfl := Option.some.inj hline
            simp [dockerSize, hrest, dockerExponent]
        | cons => simp [dockerSize, hrest]

/-- Half a gibibyte means the same to the ceilings and to Docker. -/
theorem memoryQuantities_agree_halfGibibyte :
  ReadsSizes dockerSize ∧ MeansTheSame dockerSize "512Mi" (512 * 1024 ^ 2)
  := by
  use readsSizes_dockerSize
  apply (memoryQuantities_agree_iff readsSizes_dockerSize rfl).mpr
  constructor
  · simp
  · intro unit
    cases unit <;> simp [UnitPrefix.letter]

/-- A gigabyte is a quantity of which Docker enforces more than the ceilings are checked on: a
container whose limit is the ceiling may use more than the ceiling. -/
theorem gigabyte_exceeds_ceiling :
  ReadsSizes dockerSize ∧ parseBytes (some "1G") = .ok (some 1000000000) ∧
    dockerSize (dockerMemoryQuantity "1G") = some 1073741824 ∧
    ¬ MeansTheSame dockerSize "1G" 1000000000
  := by
  have hvalue : parseBytes (some "1G") = .ok (some 1000000000) := by rfl
  have hdocker : dockerSize (dockerMemoryQuantity "1G") = some 1073741824 := by rfl
  refine ⟨readsSizes_dockerSize, hvalue, hdocker, ?_⟩
  intro h
  cases hdocker.symm.trans h.enforced

end GoblinKing
