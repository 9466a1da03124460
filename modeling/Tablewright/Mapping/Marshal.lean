import Tablewright.Mapping.Basic
import Tablewright.Work.Workspace

/-! Values between rows and statements. A row's values are bound in the order of a
statement's marks; a result's columns go back to the places of the fields that were
selected. -/

namespace Tablewright.Mapping

/-- Null in a numeric column is zero, if the mapping says so. -/
def fill (m : Mapping) (t : ValueType) (v : Value) : Value :=
  if v.isNull && m.nullAsZero && t.isNumeric then t.zero else v

/-- The values that a row binds for some fields. The row has to have as many values as the
record has fields. -/
def bindRow (m : Mapping) (fields : List Field) (row : Row) : Except Failure (List Value) :=
  if row.length = m.schema.fields.length then
    .ok (fields.map fun f => m.fill f.valueType (row.getD f.index .null))
  else .error (.rowLength m.schema.name row.length m.schema.fields.length)

/-- A column of a result as the field's value. -/
def extract (m : Mapping) (t : ValueType) (v : Value) : Except Failure Value :=
  (t.fromDatabase v).map (m.fill t)

/-- Copies the columns of a result into a row, one after the other. -/
def copyInto (m : Mapping) (r : RowRef) (fields : List Field) (result : List Value) : Work Unit :=
  (result.zip fields).forM fun (v, f) => do
    Work.setAt r f.index (← Work.lift (m.extract f.valueType v))

/-- A row with the columns of a result and nothing else. -/
def rowOf (m : Mapping) (fields : List Field) (result : List Value) : Except Failure Row :=
  (result.zip fields).foldlM
    (fun row (v, f) => (m.extract f.valueType v).map (row.set f.index ·))
    (List.replicate m.schema.fields.length .null)

/-- Notes that the record does not support an operation, which then has no effect. -/
def refuse (m : Mapping) (operation : String) : Work Bool := do
  Work.note .error .synthesizer
    (m.schema.name ++ " is not designed for '" ++ operation ++ "' operation")
  return false

end Tablewright.Mapping
