import Tablewright.Mapping.ByKey

/-! Operations on several rows. Whether to undo what was done of a batch that did not
fully succeed is the caller's decision. -/

namespace Tablewright.Mapping

/-- The values that each of some rows binds. -/
def bindRows (m : Mapping) (fields : List Field) (rs : List RowRef) : Work (List (List Value)) :=
  rs.mapM fun r => do Work.lift (m.bindRow fields (← Work.row r))

/-- Puts generated keys into the rows they belong to. -/
def assignKeys (g : Field) (pairs : List (RowRef × Value)) : Work Unit :=
  pairs.forM fun (r, key) => do
    if !key.isNull then Work.setAt r g.index (← Work.lift (g.valueType.fromDatabase key))

/-- Inserts all rows with one call, and says how many were inserted. -/
def sendInserts (m : Mapping) (rs : List RowRef) : Work Int := do
  let text := m.insertStatement.toText
  let rows ← m.bindRows m.insertBound rs
  match m.schema.generatedKey with
  | none => Work.writeMany text rows (types m.insertBound)
  | some g =>
    let (n, keys) ← Work.insertManyKey text rows (types m.insertBound) g.columnName
    assignKeys g (rs.zip keys)
    return n

def countText (n : Int) (rs : List RowRef) : String :=
  Integer.toText n ++ " of " ++ Integer.toText rs.length

/-- Inserts every row. Says whether all of them were inserted. -/
def insertAll (m : Mapping) (rs : List RowRef) : Work Bool := do
  if !m.hasKeys then return ← m.refuse "insert"
  if rs.isEmpty then return true
  let n ← m.sendInserts rs
  if n = rs.length then return true
  Work.note .error .synthesizer (countText n rs ++ " rows inserted into " ++ m.table)
  return false

/-- Updates every row. Says whether all of them were updated. -/
def updateAll (m : Mapping) (rs : List RowRef) : Work Bool := do
  if !m.canUpdate then return ← m.refuse "update"
  if rs.isEmpty then return true
  let rows ← m.bindRows m.updateBound rs
  let n ← Work.writeMany m.updateStatement.toText rows (types m.updateBound)
  if n = rs.length then return true
  Work.note .info .synthesizer (countText n rs ++ " rows updated in " ++ m.table)
  return false

/-- Saves one row after the other, also after one that was not saved. -/
def saveAll (m : Mapping) (rs : List RowRef) : Work Bool := do
  if !m.hasKeys then return ← m.refuse "save"
  return (← rs.mapM m.save).all id

end Tablewright.Mapping
