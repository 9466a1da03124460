import Tablewright.Calendar.Timestamp
import Tablewright.Diagnostics.Failure
import Tablewright.Entries
import Tablewright.Statement
import Tablewright.Value.Same

/-! A store of tables that executes statements in the simplest way: rows in the order in
which they were inserted, conditions by equality of values, a clock that moves with every
use, and keys that are never used twice. -/

namespace Tablewright

/-- A stored row by column. A column that is not there is null. -/
abbrev StoredRow := List (String × Value)

namespace StoredRow

def column (row : StoredRow) (name : String) : Value := Value.ofOption (Entries.get? name row)

/-- Whether the columns equal the values next to them. -/
def agrees (row : StoredRow) (conditions : List (String × Value)) : Bool :=
  conditions.all fun (name, v) => (row.column name).same v

/-- Whether two rows have the same values in some columns. -/
def agreesWith (row other : StoredRow) (names : List String) : Bool :=
  row.agrees (names.map fun name => (name, other.column name))

/-- The row with some columns written over. -/
def write (row : StoredRow) (values : List (String × Value)) : StoredRow :=
  values.foldl (fun row (name, v) => Entries.put name v row) row

end StoredRow

structure Table where
  /-- The columns in which no two rows agree; none if rows may repeat. -/
  key : List String := []
  rows : List StoredRow := []
  deriving Repr, Inhabited

/-- What a store makes by itself: the stamps of its clock, and keys for new rows. -/
structure Supply where
  /-- The stamp that the clock gives at a tick. -/
  stamp : Nat → Value
  /-- The key that is generated after so many others. -/
  key : Nat → Value

namespace Supply

/-- The time at which the clock starts. -/
def startTime : Timestamp :=
  (Timestamp.ofText? "2024-01-01T00:00:00+00:00").getD default

/-- A tick is a second, and keys are counted from a hundred on. -/
def standard : Supply where
  stamp ticks := .timestamp ((startTime.addSeconds ticks).getD startTime)
  key issued := .int (101 + issued)

instance : Inhabited Supply := ⟨standard⟩

instance : Repr Supply := ⟨fun _ _ => "supply"⟩

/-- Stamps for some columns, one tick each. -/
def stamps (p : Supply) (ticks : Nat) (columns : List String) : List (String × Value) :=
  columns.zipIdx.map fun (c, i) => (c, p.stamp (ticks + i + 1))

end Supply

structure TableStore where
  tables : List (String × Table) := []
  /-- The tick of the last stamp. -/
  ticks : Nat := 0
  /-- How many keys have been generated. -/
  issued : Nat := 0
  supply : Supply := .standard
  deriving Repr, Inhabited

namespace TableStore

def table (s : TableStore) (name : String) : Table := (Entries.get? name s.tables).getD {}

def setRows (s : TableStore) (name : String) (rows : List StoredRow) : TableStore :=
  { s with tables := Entries.put name { s.table name with rows := rows } s.tables }

/-! ### Values for statements -/

/-- The columns that take a parameter, with the values they get. -/
def bound (entries : List Assignment) (values : List Value) : List (String × Value) :=
  ((entries.filter (·.value == .parameter)).map (·.column)).zip values

def parameterCount (entries : List Assignment) : Nat :=
  (entries.filter (·.value == .parameter)).length

/-- The columns that the clock stamps. -/
def stamped (entries : List Assignment) : List String :=
  (entries.filter (·.value != .parameter)).map (·.column)

/-! ### Statements -/

/-- The rows that a query finds, with the columns it names. -/
def select (s : TableStore) (name : String) (columns : List String)
    (conditions : List (String × Value)) (limit : Option Nat) : List (List Value) :=
  let rows := (s.table name).rows.filter (·.agrees conditions)
  let rows := match limit with
    | some n => rows.take n
    | none => rows
  rows.map fun row => columns.map row.column

/-- The row that an insert makes. -/
def newRow (s : TableStore) (entries : List Assignment) (values : List Value)
    (generated : Option String) : StoredRow :=
  let row := StoredRow.write [] (bound entries values ++ s.supply.stamps s.ticks (stamped entries))
  match generated with
  | some column => Entries.put column (s.supply.key s.issued) row
  | none => row

/-- Adds a row, unless its key is there already. Stamps and a generated key are used up
either way. -/
def insert (s : TableStore) (name : String) (entries : List Assignment) (values : List Value)
    (generated : Option String) : Except Failure Value × TableStore :=
  let row := s.newRow entries values generated
  let t := s.table name
  let s := { s with
    ticks := s.ticks + (stamped entries).length
    issued := s.issued + (if generated.isSome then 1 else 0) }
  if !t.key.isEmpty && t.rows.any (·.agreesWith row t.key) then
    (.error (.database ("duplicate key in " ++ name)), s)
  else (.ok ((generated.map row.column).getD .null), s.setRows name (t.rows ++ [row]))

/-- Writes values and stamps over the rows that meet the conditions. -/
def updateRows (p : Supply) (entries : List Assignment)
    (values conditions : List (String × Value)) : Nat → List StoredRow → List StoredRow
  | _, [] => []
  | ticks, row :: rows =>
    if row.agrees conditions then
      row.write (values ++ p.stamps ticks (stamped entries)) ::
        updateRows p entries values conditions (ticks + (stamped entries).length) rows
    else row :: updateRows p entries values conditions ticks rows

/-- Updates rows and says how many. -/
def update (s : TableStore) (name : String) (entries : List Assignment)
    (values conditions : List (String × Value)) : Nat × TableStore :=
  let rows := (s.table name).rows
  let n := (rows.filter (·.agrees conditions)).length
  let s := s.setRows name (updateRows s.supply entries values conditions s.ticks rows)
  (n, { s with ticks := s.ticks + n * (stamped entries).length })

/-- Removes rows and says how many. -/
def delete (s : TableStore) (name : String) (conditions : List (String × Value)) :
    Nat × TableStore :=
  let rows := (s.table name).rows
  let kept := rows.filter (!·.agrees conditions)
  (rows.length - kept.length, s.setRows name kept)

end TableStore

end Tablewright
