import Tablewright.Mapping.Marshal

/-! Operations on the row that its keys identify. Each says whether it found or changed
the row; what a record does not support is noted and not done. -/

namespace Tablewright.Mapping

/-- Reads the stored row with the keys of a row into it. -/
def read (m : Mapping) (r : RowRef) : Work Bool := do
  if !m.hasKeys then return ← m.refuse "read"
  let values ← Work.lift (m.bindRow m.whereFields (← Work.row r))
  match ← Work.read m.readStatement.toText values (types m.whereFields) (types m.selectFields) with
  | none => return false
  | some result =>
    m.copyInto r m.selectFields result
    return true

/-- Whether a handle gave back no usable key. -/
def isNoKey (key : Value) : Bool := key.isNull || key.same (.int 0)

/-- Puts a generated key into its place. -/
def assignKey (m : Mapping) (r : RowRef) (g : Field) (key : Value) : Work Unit := do
  if isNoKey key then Work.note .error .synthesizer "DB handle did not return generated key"
  else
    Work.setAt r g.index (← Work.lift (g.valueType.fromDatabase key))
    Work.note .info .synthesizer
      ("Generated key " ++ key.display ++ " assigned back to " ++ m.schema.name)

/-- Adds the row to its table. A generated key is not among the parameters, and comes back
into the row. -/
def insert (m : Mapping) (r : RowRef) : Work Bool := do
  if !m.hasKeys then return ← m.refuse "insert"
  let text := m.insertStatement.toText
  let values ← Work.lift (m.bindRow m.insertBound (← Work.row r))
  match m.schema.generatedKey with
  | none => return 0 < (← Work.write text values (types m.insertBound))
  | some g =>
    let (n, key) ← Work.insertKey text values (types m.insertBound) g.columnName
    if n = 0 then return false
    m.assignKey r g key
    return true

/-- Writes the data of a row over the stored one. Nothing is changed if the stored row is
not there, or is not the version that was read. -/
def update (m : Mapping) (r : RowRef) : Work Bool := do
  if !m.canUpdate then return ← m.refuse "update"
  let values ← Work.lift (m.bindRow m.updateBound (← Work.row r))
  return 0 < (← Work.write m.updateStatement.toText values (types m.updateBound))

def delete (m : Mapping) (r : RowRef) : Work Bool := do
  if !m.hasKeys then return ← m.refuse "delete"
  let values ← Work.lift (m.bindRow m.whereFields (← Work.row r))
  return 0 < (← Work.write m.deleteStatement.toText values (types m.whereFields))

/-- Updates the row, or inserts it if there was nothing to update. Others may come between
the two statements. -/
def save (m : Mapping) (r : RowRef) : Work Bool := do
  if !m.hasKeys then return ← m.refuse "save"
  if m.canUpdate then
    if ← m.update r then return true
  m.insert r

/-! ### Operations that have to succeed -/

/-- What can be done with a single row. -/
inductive RowOperation where
  | read
  | insert
  | update
  | delete
  | save
  deriving DecidableEq, Repr, Inhabited

namespace RowOperation

/-- The name of an operation in log lines. -/
def name : RowOperation → String
  | read => "read"
  | insert => "insert"
  | update => "update"
  | delete => "delete"
  | save => "save"

def all : List RowOperation := [read, insert, update, delete, save]

def ofName? (s : String) : Option RowOperation := all.find? (·.name == s)

/-- The name of an operation at the head of a sentence. -/
def title : RowOperation → String
  | read => "Read"
  | insert => "Insert"
  | update => "Update"
  | delete => "Delete"
  | save => "Save"

end RowOperation

def perform (m : Mapping) : RowOperation → RowRef → Work Bool
  | .read => m.read
  | .insert => m.insert
  | .update => m.update
  | .delete => m.delete
  | .save => m.save

/-- An operation that fails where it finds or changes no row. -/
def performOrFail (m : Mapping) (op : RowOperation) (r : RowRef) : Work Unit := do
  if !(← m.perform op r) then
    let keys ← Work.lift (m.schema.emitKeys (← Work.row r))
    throw (.noRowsAffected op.title m.schema.name keys)

end Tablewright.Mapping
