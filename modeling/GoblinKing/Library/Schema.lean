import GoblinKing.Library.Except
import Mathlib.Data.Int.Notation
import Mathlib.Data.List.Nodup
import Mathlib.Logic.Function.Basic

/-!
# Tables whose schema changes

The tables of a relational database with their columns, their rows in the order of the row
identifiers, and their unique indexes. Columns and unique indexes can be added. A column that is
added has its default in every row, and an index can be added when no two rows have the same key.
An update goes through the rows in order, and the indexes are checked after each row.
-/

namespace Sql

/-- A value of a column. -/
inductive Value where
  | null
  | integer (n : ℤ)
  | text (s : String)
  deriving DecidableEq, Repr

/-- The number in a column of numbers. -/
def Value.number : Value → ℤ
  | .integer n => n
  | .null | .text _ => 0

/-- The comparison `<` of two values of the same type. -/
def Value.before : Value → Value → Bool
  | .integer a, .integer b => decide (a < b)
  | .text a, .text b => decide (a < b)
  | _, _ => false

/-- A column that is added to a table. -/
structure Column where
  name : String
  notNull : Bool := false
  default : Value := .null
  deriving DecidableEq, Repr

/-- The values of the columns of a row. What stands under a name that is no column is not part of
the row. -/
abbrev Row := String → Value

/-- A term of an index: a column, or a text where the column is null. -/
inductive Term where
  | column (name : String)
  | coalesce (name text : String)
  deriving DecidableEq, Repr

/-- The column of a term. -/
def Term.name : Term → String
  | .column name | .coalesce name _ => name

/-- The value of a term. -/
def Term.eval (row : Row) : Term → Value
  | .column name => row name
  | .coalesce name text => if row name = .null then .text text else row name

/-- A unique index over the rows whose value of a column is not a text. -/
structure UniqueIndex where
  name : String
  terms : List Term
  exclude : Option (String × String) := none
  deriving DecidableEq, Repr

/-- The columns that an index is over. -/
def UniqueIndex.columns (index : UniqueIndex) : List String :=
  index.terms.map Term.name ++ (index.exclude.map Prod.fst).toList

/-- The comparison `!=` with a text, which a null does not meet. -/
def differs (value : Value) (text : String) : Bool :=
  decide (value ≠ .null) && decide (value ≠ .text text)

/-- The key of a row in an index. A row with a null in its key has no key. -/
def UniqueIndex.key (index : UniqueIndex) (row : Row) : Option (List Value) :=
  let values := index.terms.map (Term.eval row)
  if index.exclude.all (fun excluded => differs (row excluded.1) excluded.2) ∧ .null ∉ values then
    some values
  else
    none

/-- No two rows have the same key. -/
def UniqueIndex.Holds (index : UniqueIndex) (rows : List Row) : Prop :=
  (rows.filterMap index.key).Nodup

instance (index : UniqueIndex) (rows : List Row) : Decidable (index.Holds rows) :=
  inferInstanceAs (Decidable (List.Nodup _))

/-- A table. Its indexes are over its columns, and hold. -/
structure Table where
  columns : List String
  rows : List Row
  indexes : List UniqueIndex
  within : ∀ index ∈ indexes, ∀ name ∈ index.columns, name ∈ columns
  unique : ∀ index ∈ indexes, index.Holds rows

variable {table : Table}

/-- Two tables are the same when their columns, their rows and their indexes are. -/
theorem Table.ext {a b : Table} (hcolumns : a.columns = b.columns) (hrows : a.rows = b.rows)
    (hindexes : a.indexes = b.indexes) :
  a = b
  := by
  cases a
  cases b
  simp only at hcolumns hrows hindexes
  subst hcolumns hrows hindexes
  rfl

/-! ### Columns -/

/-- The key of a row does not depend on what is no column of the index. -/
theorem UniqueIndex.key_update {index : UniqueIndex} {name : String}
    (h : name ∉ index.columns) (row : Row) (value : Value) :
  index.key (Function.update row name value) = index.key row
  := by
  have hterms : index.terms.map (Term.eval (Function.update row name value))
      = index.terms.map (Term.eval row) := by
    apply List.map_congr_left
    intro term hterm
    have hname : term.name ≠ name := by
      rintro rfl
      apply h
      apply List.mem_append_left _ (List.mem_map_of_mem hterm)
    cases term with
    | column other => exact Function.update_of_ne hname _ _
    | coalesce other text =>
        rw [Term.eval, Term.eval, Function.update_of_ne (by exact hname)]
  have hexclude : ∀ excluded ∈ index.exclude,
      Function.update row name value excluded.1 = row excluded.1 := by
    intro excluded hexcluded
    apply Function.update_of_ne
    rintro rfl
    apply h
    apply List.mem_append_right
    rw [Option.mem_def.mp hexcluded]
    apply List.mem_singleton_self
  rw [UniqueIndex.key, UniqueIndex.key, hterms]
  cases hcase : index.exclude with
  | none => rfl
  | some excluded => simp [hexclude excluded hcase]

/-- The keys stay when a column is written that no index is over. -/
theorem UniqueIndex.holds_map_update {index : UniqueIndex} {name : String}
    (h : name ∉ index.columns) (rows : List Row) (value : Row → Value) :
  index.Holds (rows.map (fun row => Function.update row name (value row))) ↔ index.Holds rows
  := by
  have hkeys : (rows.map (fun row => Function.update row name (value row))).filterMap index.key
      = rows.filterMap index.key := by
    rw [List.filterMap_map]
    congr 1
    funext row
    apply UniqueIndex.key_update h
  rw [UniqueIndex.Holds, UniqueIndex.Holds, hkeys]

/-- A column is added that is new. -/
def Table.withColumn (table : Table) (column : Column) (h : column.name ∉ table.columns) :
    Table where
  columns := table.columns ++ [column.name]
  rows := table.rows.map (fun row => Function.update row column.name column.default)
  indexes := table.indexes
  within index hindex name hname := List.mem_append_left _ (table.within index hindex name hname)
  unique index hindex :=
    (UniqueIndex.holds_map_update (fun hname => h (table.within index hindex _ hname)) _ _).mpr
      (table.unique index hindex)

/-- `ALTER TABLE … ADD COLUMN`: the column must be new, and have a default if it must not be
null. -/
def Table.addColumn (table : Table) (column : Column) : Except String Table :=
  if h : column.name ∈ table.columns then
    .error ("duplicate column name: " ++ column.name)
  else if column.notNull = true ∧ column.default = .null then
    .error "Cannot add a NOT NULL column with default value NULL"
  else
    .ok (table.withColumn column h)

/-- Add the columns that were not there when the table was inspected. -/
def Table.addColumns (inspected : List String) : List Column → Table → Except String Table
  | [], table => .ok table
  | column :: columns, table =>
      if column.name ∈ inspected then
        addColumns inspected columns table
      else do
        let table ← table.addColumn column
        addColumns inspected columns table

/-- The default of a column that is added. -/
def addedDefault (inspected : List String) (columns : List Column) (name : String) :
    Option Value :=
  (columns.find? (fun column => decide (column.name = name ∧ column.name ∉ inspected))).map
    Column.default

/-- A row with the columns that are added. -/
def fill (inspected : List String) (columns : List Column) (row : Row) : Row :=
  fun name => (addedDefault inspected columns name).getD (row name)

/-- A column can be added: it has a default if it must not be null. -/
def Column.addable (column : Column) : Bool :=
  !(column.notNull && decide (column.default = .null))

/-- A table with the columns that it lacks. -/
def Table.withColumns : List Column → Table → Table
  | [], table => table
  | column :: columns, table =>
      withColumns columns
        (if h : column.name ∈ table.columns then table else table.withColumn column h)

/-- What is added first and what is added then. -/
theorem fill_cons {inspected : List String} {column : Column} (columns : List Column)
    (hnew : column.name ∉ inspected) (row : Row) :
  fill (inspected ++ [column.name]) columns (Function.update row column.name column.default)
    = fill inspected (column :: columns) row
  := by
  funext name
  rw [fill, fill, addedDefault, addedDefault, List.find?_cons]
  by_cases hname : column.name = name
  · subst hname
    have hnone : columns.find? (fun other => decide (other.name = column.name
        ∧ other.name ∉ inspected ++ [column.name])) = none := by
      rw [List.find?_eq_none]
      intro other _ hother
      obtain ⟨hsame, hnot⟩ := of_decide_eq_true hother
      apply hnot
      rw [hsame]
      apply List.mem_append_right _ (List.mem_singleton_self _)
    rw [hnone]
    simp [hnew]
  · have hpredicate : (fun other : Column => decide (other.name = name
        ∧ other.name ∉ inspected ++ [column.name]))
        = fun other => decide (other.name = name ∧ other.name ∉ inspected) := by
      funext other
      apply decide_eq_decide.mpr
      rw [List.mem_append, List.mem_singleton, not_or]
      constructor
      · rintro ⟨hother, hnot, -⟩
        exact ⟨hother, hnot⟩
      · rintro ⟨rfl, hnot⟩
        exact ⟨rfl, hnot, Ne.symm hname⟩
    rw [hpredicate]
    simp [hname, Function.update_of_ne (Ne.symm hname)]

/-- A column that is there is not added. -/
theorem fill_cons_of_mem {inspected : List String} {column : Column} (columns : List Column)
    (hthere : column.name ∈ inspected) :
  fill inspected (column :: columns) = fill inspected columns
  := by
  funext row name
  rw [fill, fill, addedDefault, addedDefault, List.find?_cons]
  simp [hthere]

/-- The columns of a table with the columns that it lacked. -/
theorem Table.mem_columns_withColumns {columns : List Column} {table : Table} {name : String} :
  name ∈ (table.withColumns columns).columns
    ↔ name ∈ table.columns ∨ name ∈ columns.map Column.name
  := by
  induction columns generalizing table with
  | nil => simp [Table.withColumns]
  | cons column columns ih =>
      rw [Table.withColumns, ih, List.map_cons, List.mem_cons]
      split
      case isTrue hthere =>
        constructor
        · exact Or.imp_right Or.inr
        · rintro (hname | rfl | hname)
          · apply Or.inl hname
          · apply Or.inl hthere
          · apply Or.inr hname
      case isFalse => rw [Table.withColumn, List.mem_append, List.mem_singleton, or_assoc]

/-- The rows of a table with the columns that it lacked. -/
theorem Table.rows_withColumns {columns : List Column} {table : Table} :
  (table.withColumns columns).rows = table.rows.map (fill table.columns columns)
  := by
  induction columns generalizing table with
  | nil =>
      have hfill : fill table.columns [] = id := by
        funext row name
        rfl
      rw [Table.withColumns, hfill, List.map_id]
  | cons column columns ih =>
      rw [Table.withColumns, ih]
      split
      case isTrue hthere => rw [fill_cons_of_mem columns hthere]
      case isFalse hnew =>
        rw [Table.withColumn, List.map_map]
        congr 1
        funext row
        apply fill_cons columns hnew

/-- The indexes of a table with the columns that it lacked. -/
theorem Table.indexes_withColumns {columns : List Column} {table : Table} :
  (table.withColumns columns).indexes = table.indexes
  := by
  induction columns generalizing table with
  | nil => rfl
  | cons column columns ih =>
      rw [Table.withColumns, ih]
      split <;> rfl

/-- A table that lacks no column stays as it is. -/
theorem Table.withColumns_eq {columns : List Column} {table : Table}
    (h : ∀ column ∈ columns, column.name ∈ table.columns) :
  table.withColumns columns = table
  := by
  induction columns with
  | nil => rfl
  | cons column columns ih =>
      rw [Table.withColumns, dif_pos (h column List.mem_cons_self)]
      apply ih
      intro other hother
      apply h other (List.mem_cons_of_mem column hother)

/-- All columns can be added that are named once, have defaults where they need them, and are new
unless they were there when the table was inspected. -/
theorem Table.addColumns_ok {inspected : List String} {columns : List Column} {table : Table}
    (hnodup : (columns.map Column.name).Nodup) (haddable : ∀ column ∈ columns, column.addable = true)
    (hinspected : ∀ column ∈ columns, column.name ∈ inspected ↔ column.name ∈ table.columns) :
  Table.addColumns inspected columns table = .ok (table.withColumns columns)
  := by
  induction columns generalizing table with
  | nil => rfl
  | cons column columns ih =>
      obtain ⟨hnew, hnodup⟩ := List.nodup_cons.mp hnodup
      have hhead := hinspected column List.mem_cons_self
      have hrest : ∀ other ∈ columns, other.addable = true :=
        fun other hother => haddable other (List.mem_cons_of_mem column hother)
      have hothers : ∀ other ∈ columns, other.name ∈ inspected ↔ other.name ∈ table.columns :=
        fun other hother => hinspected other (List.mem_cons_of_mem column hother)
      rw [Table.addColumns, Table.withColumns]
      by_cases hthere : column.name ∈ inspected
      · rw [if_pos hthere, dif_pos (hhead.mp hthere)]
        apply ih hnodup hrest hothers
      · have hfree : column.name ∉ table.columns := fun hname => hthere (hhead.mpr hname)
        have hadd : table.addColumn column = .ok (table.withColumn column hfree) := by
          have hdefault := haddable column List.mem_cons_self
          rw [Table.addColumn, dif_neg hfree, if_neg]
          rintro ⟨hnotNull, hnull⟩
          simp [Column.addable, hnotNull, hnull] at hdefault
        rw [if_neg hthere, dif_neg hfree, hadd]
        apply ih hnodup hrest
        intro other hother
        rw [hothers other hother, Table.withColumn, List.mem_append, List.mem_singleton,
          or_iff_left]
        intro hsame
        apply hnew
        rw [← hsame]
        apply List.mem_map_of_mem hother

/-! ### Indexes -/

/-- `CREATE UNIQUE INDEX IF NOT EXISTS`: the index must be over columns, and hold. -/
def Table.createUniqueIndex (table : Table) (index : UniqueIndex) : Except String Table :=
  if table.indexes.any (fun other => decide (other.name = index.name)) then
    .ok table
  else if hcolumns : ∀ name ∈ index.columns, name ∈ table.columns then
    if hunique : index.Holds table.rows then
      .ok { table with
        indexes := index :: table.indexes
        within := List.forall_mem_cons.mpr ⟨hcolumns, table.within⟩
        unique := List.forall_mem_cons.mpr ⟨hunique, table.unique⟩ }
    else
      .error ("UNIQUE constraint failed: index '" ++ index.name ++ "'")
  else
    .error "no such column"

/-- An index can be created over columns of the table exactly when it holds. -/
theorem Table.createUniqueIndex_isOk {index : UniqueIndex}
    (hcolumns : ∀ name ∈ index.columns, name ∈ table.columns)
    (hsame : ∀ other ∈ table.indexes, other.name = index.name → other = index) :
  (∃ table', table.createUniqueIndex index = .ok table') ↔ index.Holds table.rows
  := by
  rw [Table.createUniqueIndex]
  split
  case isTrue hthere =>
    obtain ⟨other, hother, hname⟩ := List.any_eq_true.mp hthere
    obtain rfl := hsame other hother (of_decide_eq_true hname)
    exact ⟨fun _ => table.unique _ hother, fun _ => ⟨table, rfl⟩⟩
  case isFalse =>
    split
    case isTrue hunique => exact ⟨fun _ => hunique, fun _ => ⟨_, rfl⟩⟩
    case isFalse hnot =>
      constructor
      · rintro ⟨_, ⟨⟩⟩
      · intro hunique
        cases hnot hunique

/-- What a table is after an index was created: the rows are the same, and the index is there. -/
theorem Table.createUniqueIndex_ok {index : UniqueIndex} {table' : Table}
    (h : table.createUniqueIndex index = .ok table') :
  table'.columns = table.columns ∧ table'.rows = table.rows
    ∧ (∃ other ∈ table'.indexes, other.name = index.name)
  := by
  rw [Table.createUniqueIndex] at h
  split at h
  case isTrue hthere =>
    cases h
    obtain ⟨other, hother, hname⟩ := List.any_eq_true.mp hthere
    exact ⟨rfl, rfl, other, hother, of_decide_eq_true hname⟩
  case isFalse =>
    split at h
    case isTrue =>
      split at h
      case isTrue =>
        cases h
        exact ⟨rfl, rfl, index, List.mem_cons_self, rfl⟩
      case isFalse => cases h
    case isFalse => cases h

/-- An index that is there is not created. -/
theorem Table.createUniqueIndex_eq {index : UniqueIndex}
    (h : ∃ other ∈ table.indexes, other.name = index.name) :
  table.createUniqueIndex index = .ok table
  := by
  obtain ⟨other, hother, hname⟩ := h
  rw [Table.createUniqueIndex, if_pos]
  apply List.any_eq_true.mpr
  exact ⟨other, hother, decide_eq_true hname⟩

/-! ### Updates -/

/-- A row in which a column is written, if there is a value for it. -/
def Row.write (name : String) (value : Row → Option Value) (row : Row) : Row :=
  (value row).elim row (Function.update row name)

/-- Change the rows in order. The indexes are checked after each row. -/
def updateRows (indexes : List UniqueIndex) (f : Row → Row) : (done todo : List Row) →
    (∀ index ∈ indexes, index.Holds (done ++ todo)) →
    Except String { rows : List Row // ∀ index ∈ indexes, index.Holds rows }
  | done, [], h => .ok ⟨done, by simpa using h⟩
  | done, row :: todo, _ =>
      if h : ∀ index ∈ indexes, index.Holds (done ++ [f row] ++ todo) then
        updateRows indexes f (done ++ [f row]) todo h
      else
        .error "UNIQUE constraint failed"

/-- `UPDATE … SET`: write a column, in the rows for which there is a value. -/
def Table.update (table : Table) (name : String) (value : Row → Option Value) :
    Except String Table := do
  raiseIf (decide (name ∉ table.columns)) ("no such column: " ++ name)
  let rows ← updateRows table.indexes (Row.write name value) [] table.rows table.unique
  .ok { table with rows := rows.1, unique := rows.2 }

/-- An update that completes has changed all rows. -/
theorem updateRows_ok {indexes : List UniqueIndex} {f : Row → Row} {done todo : List Row}
    {h : ∀ index ∈ indexes, index.Holds (done ++ todo)}
    {rows : { rows : List Row // ∀ index ∈ indexes, index.Holds rows }}
    (hrows : updateRows indexes f done todo h = .ok rows) :
  rows.1 = done ++ todo.map f
  := by
  induction todo generalizing done with
  | nil =>
      rw [updateRows] at hrows
      rw [← Except.ok.inj hrows, List.map_nil, List.append_nil]
  | cons row todo ih =>
      rw [updateRows] at hrows
      split at hrows
      case isTrue =>
        rw [ih hrows, List.map_cons, List.append_assoc, List.singleton_append]
      case isFalse => cases hrows

/-- An update completes exactly when the indexes hold after each row. -/
theorem updateRows_isOk {indexes : List UniqueIndex} {f : Row → Row} {done todo : List Row}
    {h : ∀ index ∈ indexes, index.Holds (done ++ todo)} :
  (∃ rows, updateRows indexes f done todo h = .ok rows)
    ↔ ∀ earlier row later, todo = earlier ++ row :: later → ∀ index ∈ indexes,
        index.Holds (done ++ (earlier ++ [row]).map f ++ later)
  := by
  induction todo generalizing done with
  | nil =>
      rw [updateRows]
      constructor
      · intro _ earlier row later htodo
        simp at htodo
      · intro _
        exact ⟨_, rfl⟩
  | cons head todo ih =>
      rw [updateRows]
      split
      case isTrue hhead =>
        rw [ih]
        constructor
        · intro hrest earlier row later htodo
          cases earlier with
          | nil =>
              obtain ⟨rfl, rfl⟩ := List.cons.inj htodo
              apply hhead
          | cons first earlier =>
              obtain ⟨rfl, hlater⟩ := List.cons.inj htodo
              simpa using hrest earlier row later hlater
        · intro hall earlier row later htodo
          simpa using hall (head :: earlier) row later (by rw [htodo]; rfl)
      case isFalse hhead =>
        constructor
        · rintro ⟨_, ⟨⟩⟩
        · intro hall
          cases hhead (by simpa using hall [] head todo rfl)

/-- What a table is after an update. -/
theorem Table.update_ok {name : String} {value : Row → Option Value} {table' : Table}
    (h : table.update name value = .ok table') :
  table'.columns = table.columns ∧ table'.indexes = table.indexes
    ∧ table'.rows = table.rows.map (Row.write name value)
  := by
  obtain ⟨_, -, h⟩ := Except.bind_eq_ok.mp h
  obtain ⟨rows, hrows, h⟩ := Except.bind_eq_ok.mp h
  rw [← Except.ok.inj h]
  exact ⟨rfl, rfl, updateRows_ok hrows⟩

/-- A column is written without regard to the indexes that are not over it. -/
theorem UniqueIndex.holds_map_write {index : UniqueIndex} {name : String}
    (h : name ∉ index.columns) (earlier later : List Row) (value : Row → Option Value) :
  index.Holds (earlier.map (Row.write name value) ++ later) ↔ index.Holds (earlier ++ later)
  := by
  have hkey : index.key ∘ Row.write name value = index.key := by
    funext row
    rw [Function.comp, Row.write]
    cases value row with
    | none => rfl
    | some new => apply UniqueIndex.key_update h
  rw [UniqueIndex.Holds, UniqueIndex.Holds, List.filterMap_append, List.filterMap_append,
    List.filterMap_map, hkey]

/-- An update of a column completes exactly when the indexes hold after each row. -/
theorem Table.update_isOk {name : String} {value : Row → Option Value}
    (hname : name ∈ table.columns) :
  (∃ table', table.update name value = .ok table')
    ↔ ∀ earlier row later, table.rows = earlier ++ row :: later → ∀ index ∈ table.indexes,
        index.Holds ((earlier ++ [row]).map (Row.write name value) ++ later)
  := by
  have hstages : (∃ rows, updateRows table.indexes (Row.write name value) [] table.rows
      table.unique = .ok rows) ↔ _ := updateRows_isOk
  simp only [List.nil_append] at hstages
  rw [← hstages, Table.update]
  have hthere : raiseIf (decide (name ∉ table.columns)) ("no such column: " ++ name) = .ok () := by
    rw [raiseIf_ok, decide_eq_false_iff_not, not_not]
    apply hname
  simp only [hthere, Except.bind_eq_ok]
  constructor
  · rintro ⟨table', _, -, rows, hrows, -⟩
    exact ⟨rows, hrows⟩
  · rintro ⟨rows, hrows⟩
    exact ⟨_, (), trivial, rows, hrows, rfl⟩

/-- An update of a column that no index is over completes. -/
theorem Table.update_isOk_of_notMem {name : String} {value : Row → Option Value}
    (hname : name ∈ table.columns) (hindexes : ∀ index ∈ table.indexes, name ∉ index.columns) :
  ∃ table', table.update name value = .ok table'
  := by
  rw [Table.update_isOk hname]
  intro earlier row later hrows index hindex
  rw [UniqueIndex.holds_map_write (hindexes index hindex), List.append_assoc,
    List.singleton_append, ← hrows]
  apply table.unique index hindex

/-- An update that changes no row completes, and leaves the table as it is. -/
theorem Table.update_eq {name : String} {value : Row → Option Value}
    (hname : name ∈ table.columns) (hrows : ∀ row ∈ table.rows, row.write name value = row) :
  table.update name value = .ok table
  := by
  have hsame : ∀ rows : List Row, (∀ row ∈ rows, row ∈ table.rows) →
      rows.map (Row.write name value) = rows := by
    intro rows hsub
    conv_rhs => rw [← List.map_id rows]
    apply List.map_congr_left (fun row hrow => hrows row (hsub row hrow))
  have hok : ∃ table', table.update name value = .ok table' := by
    rw [Table.update_isOk hname]
    intro earlier row later hsplit index hindex
    rw [← List.singleton_append, ← List.append_assoc] at hsplit
    rw [hsame, ← hsplit]
    · apply table.unique index hindex
    · intro other hother
      rw [hsplit]
      apply List.mem_append_left _ hother
  obtain ⟨table', hok⟩ := hok
  obtain ⟨hcolumns, hindexes, hall⟩ := Table.update_ok hok
  rw [hok]
  congr 1
  apply Table.ext hcolumns _ hindexes
  rw [hall, hsame table.rows (fun _ hrow => hrow)]

end Sql
