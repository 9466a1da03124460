import Tablewright.Schema.Role
import Tablewright.Schema.ValueList
import Tablewright.Schema.ValueSchema

/-! One field of a record: its place in the row, its rules and its column. A field
without a column or a role lives in memory only and takes part in no statement. -/

namespace Tablewright

structure Field where
  index : Nat
  name : String
  schema : ValueSchema
  column : Option String
  role : Option FieldRole
  required : Bool
  default : Value
  list : Option ValueList
  /-- The position of the field whose value selects the list of a keyed value list. -/
  listKey : Option Nat
  deriving Repr, Inhabited

namespace Field

def valueType (f : Field) : ValueType := f.schema.valueType

def isColumn (f : Field) : Bool := f.column.isSome && f.role.isSome

/-- The name of the column, for a field that has one. -/
def columnName (f : Field) : String := f.column.getD ""

/-- The column as a clause shows it; one that is missing is shown as null. -/
def columnText (f : Field) : String := (Value.ofOption (f.column.map .text)).display

def isText : Value → Bool
  | .text _ => true
  | _ => false

/-- Raw input as a value that keeps the rules: a native value of the right type is taken
as it is, anything else is read as text. -/
def readRaw (f : Field) (raw : Value) : Except Failure (Option Value) :=
  if !raw.isNull && !isText raw && f.valueType.admits raw then do
    let v ← f.valueType.fromDatabase raw
    return if ← f.schema.admits v then some v else none
  else f.schema.parse raw

/-- Raw input as a value of the field. A plain value list is checked here; a keyed one
needs the rest of the row. -/
def parse (f : Field) (raw : Value) : Except Failure (Option Value) := do
  match ← f.readRaw raw, f.list with
  | some v, some l =>
    if l.isKeyed then return some v
    else return if ← ValueList.among v f.valueType l.values then some v else none
  | v, _ => return v

end Field

end Tablewright
