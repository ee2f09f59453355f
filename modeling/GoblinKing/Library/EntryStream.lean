import Mathlib.Algebra.Group.Nat.Defs
import Mathlib.Data.Prod.Lex
import Mathlib.Data.List.Basic

/-!
# Streams with explicit identifiers

A stream is a list of entries under increasing identifiers, oldest first, of which old entries
may be taken out. It remembers the highest identifier that was ever given, and takes in an entry
only under a higher one. An identifier is a pair of a main part and a sub-sequence, compared
lexicographically, whose main part has 64 bits.
-/

/-- The identifier of an entry. -/
abbrev EntryId := ℕ ×ₗ ℕ

/-- The identifier `main-0`. -/
def entryId (main : ℕ) : EntryId :=
  toLex (main, 0)

/-- The main part of an identifier. -/
def EntryId.main (id : EntryId) : ℕ :=
  (ofLex id).1

/-- An entry of a stream. -/
structure Entry (π : Type) where
  id : EntryId
  payload : π
  deriving DecidableEq

/-- A stream, and the highest identifier it has given. -/
structure EntryStream (π : Type) where
  entries : List (Entry π)
  top : EntryId
  deriving DecidableEq

namespace EntryStream

variable {π : Type}

/-- The main parts of identifiers are below this bound. -/
def mainLimit : ℕ := 2 ^ 64

/-- Take out old entries, but none of the newest `maxlen`: the trimming is approximate, and
`drop` is how many are taken out at most. -/
def trim (maxlen drop : ℕ) (entries : List (Entry π)) : List (Entry π) :=
  entries.drop (min drop (entries.length - maxlen))

/-- An identifier is one that the stream can still give. -/
def accepts (s : EntryStream π) (id : EntryId) : Bool :=
  decide (s.top < id) && decide (EntryId.main id < mainLimit)

/-- Append an entry, and trim; `none` when the identifier is not accepted. -/
def xadd (s : EntryStream π) (id : EntryId) (payload : π) (maxlen drop : ℕ) : Option (EntryStream π) :=
  if s.accepts id then
    some { entries := trim maxlen drop (s.entries ++ [⟨id, payload⟩]), top := id }
  else
    none

/-- The entry with an identifier. One that is out of bounds is refused. -/
def xrange (s : EntryStream π) (id : EntryId) : Option (Entry π) :=
  if EntryId.main id < mainLimit then
    s.entries.find? (fun entry => entry.id = id)
  else
    none

/-- The newest entry. -/
def xrevrange (s : EntryStream π) : Option (Entry π) :=
  s.entries.getLast?

/-- Identifiers with sub-sequence 0 are in the order of their main parts. -/
theorem entryId_lt_entryId {m n : ℕ} :
  entryId m < entryId n ↔ m < n
  := by
  simp [entryId, Prod.Lex.toLex_lt_toLex]

@[simp]
theorem main_entryId (n : ℕ) :
  EntryId.main (entryId n) = n
  := rfl

variable {s t : EntryStream π} {id : EntryId} {payload : π} {maxlen drop : ℕ}

/-- An identifier is accepted when it is above the highest one and within the bound. -/
theorem accepts_iff :
  s.accepts id = true ↔ s.top < id ∧ EntryId.main id < mainLimit
  := by
  simp [accepts]

/-- An entry is appended exactly when its identifier is accepted. -/
theorem xadd_isSome :
  (s.xadd id payload maxlen drop).isSome = s.accepts id
  := by
  rw [xadd]
  split
  case isTrue h => rw [h, Option.isSome_some]
  case isFalse h => simp [h]

/-- What an appended entry leaves: its identifier is the highest, and the entries are the
newest of those before and the new one. -/
theorem xadd_eq_some (h : s.xadd id payload maxlen drop = some t) :
  s.top < id ∧ EntryId.main id < mainLimit ∧ t.top = id
    ∧ t.entries <:+ s.entries ++ [⟨id, payload⟩]
  := by
  rw [xadd] at h
  split at h
  case isTrue haccepts =>
    obtain ⟨htop, hmain⟩ := accepts_iff.mp haccepts
    obtain rfl := Option.some.inj h
    exact ⟨htop, hmain, rfl, List.drop_suffix _ _⟩
  case isFalse => cases h

/-- The newest entry after an append is the one that was appended, when it was kept. -/
theorem xrevrange_of_xadd (h : s.xadd id payload maxlen drop = some t) {entry : Entry π}
    (hentry : t.xrevrange = some entry) :
  entry = ⟨id, payload⟩
  := by
  obtain ⟨-, -, -, front, hfront⟩ := xadd_eq_some h
  have hlast : (front ++ t.entries).getLast? = some entry := by
    rw [xrevrange] at hentry
    rw [List.getLast?_append, hentry, Option.some_or]
  rw [hfront, List.getLast?_concat] at hlast
  apply (Option.some.inj hlast).symm

/-- An entry after an append was there before, or is the one that was appended. -/
theorem mem_of_xadd (h : s.xadd id payload maxlen drop = some t) {entry : Entry π}
    (hentry : entry ∈ t.entries) :
  entry ∈ s.entries ∨ entry = ⟨id, payload⟩
  := by
  obtain ⟨-, -, -, hsuffix⟩ := xadd_eq_some h
  rcases List.mem_append.mp (hsuffix.subset hentry) with hold | hnew
  · left
    apply hold
  · right
    apply List.mem_singleton.mp hnew

/-- The entry that is found under an identifier is one of the entries. -/
theorem mem_of_xrange {entry : Entry π} (h : s.xrange id = some entry) :
  entry ∈ s.entries ∧ entry.id = id
  := by
  rw [xrange] at h
  split at h
  · constructor
    · apply List.mem_of_find?_eq_some h
    · simpa using List.find?_some h
  · cases h

/-- After an append, an identifier with a greater main part is accepted exactly when it was
accepted before: when it is within the bound. -/
theorem accepts_of_xadd {m n : ℕ} (h : s.xadd (entryId m) payload maxlen drop = some t)
    (hmn : m < n) :
  (s.accepts (entryId n) = true ↔ n < mainLimit) ∧ (t.accepts (entryId n) = true ↔ n < mainLimit)
  := by
  obtain ⟨htop, -, hnew, -⟩ := xadd_eq_some h
  have hlt : entryId m < entryId n := entryId_lt_entryId.mpr hmn
  simp only [accepts_iff, main_entryId, hnew]
  constructor
  · constructor
    · apply And.right
    · intro hbound
      exact ⟨htop.trans hlt, hbound⟩
  · constructor
    · apply And.right
    · intro hbound
      exact ⟨hlt, hbound⟩

/-- No entry is found under an identifier that is out of bounds. -/
theorem xrange_eq_none (h : ¬ EntryId.main id < mainLimit) :
  s.xrange id = none
  := by
  rw [xrange, if_neg h]

end EntryStream
