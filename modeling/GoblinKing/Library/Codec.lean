import GoblinKing.Library.Except
import GoblinKing.Library.Table

/-!
# Records in tables

Records of a type are written to the rows of a table and read back from them by two functions
that need not be inverse to each other. A record survives the table when it survives the two
functions, in whichever way its row comes into the table.
-/

/-- How records are written to rows, and rows read back. -/
structure Codec {κ σ : Type} (key : σ → κ) (ρ : Type) where
  id : ρ → κ
  encode : ρ → Except String σ
  decode : σ → Except String ρ
  key_encode : ∀ {record row}, encode record = .ok row → key row = id record

namespace Codec

variable {κ σ ρ α : Type} {key : σ → κ} [DecidableEq κ]

/-- Replace the row with the key of another row by it. -/
def replace (table : Table key) (row : σ) : Table key :=
  table.update (fun old => key old = key row) (fun old => if key old = key row then row else old)
    (by
      intro old
      split
      case isTrue h => exact h.symm
      case isFalse => rfl)

/-- Insert the row of a record. -/
def save (codec : Codec key ρ) (table : Table key) (record : ρ) : Except String (Table key) := do
  let row ← codec.encode record
  uniqueOr (table.insert? row)

/-- Insert the row of a record, or replace the row with its key. -/
def put (codec : Codec key ρ) (table : Table key) (record : ρ) : Except String (Table key) := do
  let row ← codec.encode record
  match table.find? (codec.id record) with
  | none => uniqueOr (table.insert? row)
  | some _ => .ok (replace table row)

/-- Load the record with a key. -/
def load (codec : Codec key ρ) (table : Table key) (k : κ) : Except String (Option ρ) :=
  match table.find? k with
  | none => .ok none
  | some row => do
      let record ← codec.decode row
      .ok (some record)

/-- A record is written to a table and loaded as the same record, as far as a view shows it. -/
def RoundTrips (codec : Codec key ρ) (write : Table key → ρ → Except String (Table key))
    (view : ρ → α) (table : Table key) (record : ρ) : Prop :=
  ∃ table' loaded, write table record = .ok table' ∧
    codec.load table' (codec.id record) = .ok (some loaded) ∧ view loaded = view record

/-- A record is written to a row and read back as the same record, as far as a view shows it. -/
def Recovers (codec : Codec key ρ) (view : ρ → α) (record : ρ) : Prop :=
  ∃ row loaded, codec.encode record = .ok row ∧ codec.decode row = .ok loaded ∧
    view loaded = view record

variable {codec : Codec key ρ} {view : ρ → α} {table : Table key} {record : ρ}

/-- What is loaded under a key is the record of the row with the key. -/
theorem load_eq_some {k : κ} {loaded : ρ} :
  codec.load table k = .ok (some loaded) ↔
    ∃ row, table.find? k = some row ∧ codec.decode row = .ok loaded
  := by
  unfold load
  cases h : table.find? k with
  | none => simp
  | some row =>
      constructor
      · intro hload
        obtain ⟨record, hdecode, hload⟩ := Except.bind_eq_ok.mp hload
        cases hload
        exact ⟨row, rfl, hdecode⟩
      · rintro ⟨row', hrow, hdecode⟩
        cases hrow
        exact Except.bind_eq_ok.mpr ⟨loaded, hdecode, rfl⟩

/-- A row that has replaced another is found. -/
theorem find?_replace {row old : σ} (h : table.find? (key row) = some old) :
  (replace table row).find? (key row) = some row
  := by
  have hkey := Table.key_of_find? h
  simp [replace, h, hkey]

/-- A way to write that leaves the row of the record in the table makes the round trip with the
two functions. -/
theorem roundTrips_of_find? {write : Table key → ρ → Except String (Table key)}
    (hencode : ∀ {table'}, write table record = .ok table' → ∃ row, codec.encode record = .ok row ∧
      table'.find? (codec.id record) = some row)
    (hwrite : ∀ {row}, codec.encode record = .ok row → ∃ table', write table record = .ok table') :
  codec.RoundTrips write view table record ↔ codec.Recovers view record
  := by
  constructor
  · rintro ⟨table', loaded, hsave, hload, hview⟩
    obtain ⟨row, hrow, hfind⟩ := hencode hsave
    obtain ⟨row', hfind', hdecode⟩ := load_eq_some.mp hload
    rw [hfind] at hfind'
    cases hfind'
    exact ⟨row, loaded, hrow, hdecode, hview⟩
  · rintro ⟨row, loaded, hrow, hdecode, hview⟩
    obtain ⟨table', hsave⟩ := hwrite hrow
    obtain ⟨row', hrow', hfind⟩ := hencode hsave
    rw [hrow] at hrow'
    cases hrow'
    exact ⟨table', loaded, hsave, load_eq_some.mpr ⟨row, hfind, hdecode⟩, hview⟩

/-- A record whose key is not taken survives an insertion when it survives the two functions. -/
theorem roundTrips_save (hfresh : table.find? (codec.id record) = none) :
  codec.RoundTrips codec.save view table record ↔ codec.Recovers view record
  := by
  apply roundTrips_of_find?
  · intro table' hsave
    obtain ⟨row, hrow, hinsert⟩ := Except.bind_eq_ok.mp hsave
    use row, hrow
    rw [← codec.key_encode hrow]
    rw [Table.find?_insert? (uniqueOr_ok.mp hinsert), if_pos rfl]
  · intro row hrow
    rw [← codec.key_encode hrow] at hfresh
    obtain ⟨table', hinsert⟩ := Table.exists_insert? hfresh
    use table'
    exact Except.bind_eq_ok.mpr ⟨row, hrow, uniqueOr_ok.mpr hinsert⟩

/-- A record survives being put into a table when it survives the two functions. -/
theorem roundTrips_put :
  codec.RoundTrips codec.put view table record ↔ codec.Recovers view record
  := by
  cases hfind : table.find? (codec.id record) with
  | none =>
      rw [← roundTrips_save hfind]
      simp only [RoundTrips, put, save, hfind]
  | some old =>
      apply roundTrips_of_find?
      · intro table' hput
        simp only [put, hfind, Except.bind_eq_ok] at hput
        obtain ⟨row, hrow, hput⟩ := hput
        cases hput
        use row, hrow
        rw [← codec.key_encode hrow] at hfind ⊢
        apply find?_replace hfind
      · intro row hrow
        use replace table row
        simp only [put, hfind, Except.bind_eq_ok]
        exact ⟨row, hrow, rfl⟩

omit [DecidableEq κ] in
/-- A record that is written to one row under a condition survives when the condition holds and
the row is read back as the same record. -/
theorem recovers_iff {row : σ} {p : Prop}
    (hencode : ∀ row', codec.encode record = .ok row' ↔ p ∧ row' = row) :
  codec.Recovers view record ↔
    p ∧ ∃ loaded, codec.decode row = .ok loaded ∧ view loaded = view record
  := by
  constructor
  · rintro ⟨row', loaded, hrow, hdecode, hview⟩
    obtain ⟨hp, rfl⟩ := (hencode row').mp hrow
    exact ⟨hp, loaded, hdecode, hview⟩
  · rintro ⟨hp, loaded, hdecode, hview⟩
    exact ⟨row, loaded, (hencode row).mpr ⟨hp, rfl⟩, hdecode, hview⟩

end Codec
