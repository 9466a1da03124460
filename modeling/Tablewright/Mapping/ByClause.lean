import Tablewright.Filter.Compile
import Tablewright.Mapping.Marshal

/-! Selecting rows by a clause. The rows found are rows of their own, with null at every
place that was not selected. -/

namespace Tablewright.Mapping

/-- A select with a clause behind it. -/
def clauseSql (text : String) : Option String → String
  | none => text
  | some clause => if clause = "" then text else Statement.withClause text (Text.strip clause)

/-- The types of bound values, found from the values where they are not given. -/
def parameterTypes (values : List Value) (types : Option (List ValueType)) : List ValueType :=
  types.getD (values.map ValueType.of)

/-- One more row of a result, put into the workspace. -/
def keepRow (m : Mapping) (fields : List Field) (result : List Value) : Work RowRef := do
  Work.addRow (← Work.lift (m.rowOf fields result))

/-- All rows that a statement finds, with some of the record's fields. -/
def collectRows (m : Mapping) (fields : List Field) (sql : String) (values : List Value)
    (valueTypes : List ValueType) : Work (List RowRef) := do
  let results ← Work.readMany sql values valueTypes (types fields)
  let (_, rows) ← Work.throughRows
    (fun rows result => do return (rows ++ [← m.keepRow fields result], true)) results 0 []
  return rows

/-- All rows that a clause selects; without a clause, all rows. -/
def filter (m : Mapping) (clause : Option String) (values : List Value)
    (valueTypes : Option (List ValueType)) : Work (List RowRef) :=
  m.collectRows m.selectFields (clauseSql m.selectText clause) values
    (parameterTypes values valueTypes)

/-- The first row that a clause selects. -/
def filterFirst (m : Mapping) (clause : Option String) (values : List Value)
    (valueTypes : Option (List ValueType)) : Work (Option RowRef) := do
  match ← Work.read (clauseSql m.selectText clause) values (parameterTypes values valueTypes)
      (types m.selectFields) with
  | none => return none
  | some result => return some (← m.keepRow m.selectFields result)

/-- Hands the rows that a clause selects to a processor, one after the other, until it
declines more. Ends with the number of rows handed over and the processor's state. -/
def forEach {σ : Type} (m : Mapping) (clause : Option String) (values : List Value)
    (valueTypes : Option (List ValueType)) (process : σ → RowRef → Work (σ × Bool)) (start : σ) :
    Work (Int × σ) := do
  let results ← Work.readMany (clauseSql m.selectText clause) values
    (parameterTypes values valueTypes) (types m.selectFields)
  Work.throughRows (fun s result => do process s (← m.keepRow m.selectFields result)) results 0 start

/-- The record's fields at some places. -/
def fieldsAt (m : Mapping) (places : List Nat) : Except Failure (List Field) :=
  places.mapM fun i => match m.schema.fields[i]? with
    | some f => .ok f
    | none => .error .rowPosition

/-- The rows that a compiled filter selects. If it names output fields, only their columns
are selected. -/
def filterCompiled (m : Mapping) (c : CompiledFilter) : Work (List RowRef) := do
  if c.outputFields.isEmpty then m.filter (some c.clauseText) c.values (some c.types)
  else
    let selected := c.outputFields.filter Field.isColumn
    let fields ← Work.lift (m.fieldsAt (places selected))
    let select := Statement.select m.table (columns selected) []
    m.collectRows fields (clauseSql select.toText (some c.clauseText)) c.values c.types

end Tablewright.Mapping
