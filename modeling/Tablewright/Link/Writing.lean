import Tablewright.Link.Reading
import Tablewright.Mapping.Batch

/-! Writing a row with its children. Everything that can be known beforehand is checked
beforehand; then the parent is written, so that its generated key is there for the
children, and the children one after the other. Deleting goes the other way. -/

namespace Tablewright

namespace Link

/-- Notes and reports a wrong number of child rows. -/
def reject (l : Link) (text id : String) : Check Bool := do
  Check.note .error .linkage ("Link " ++ l.name ++ ": " ++ text)
  let id := match l.errorMessageId with
    | some own => if own = "" then id else own
    | none => id
  Check.report (.fieldError l.name text id (some l.name))
  return false

def boundText (bound : Int) : String := if 0 < bound then Integer.toText bound else "any number of"

/-- Checks a number of child rows against the bounds of the link. -/
def validate (l : Link) (count : Nat) : Check Bool :=
  if !l.isMultiRow then
    if count = 0 ∧ 0 < l.minRows then
      l.reject (l.name ++ " requires a value") Message.valueRequired
    else if 1 < count then
      l.reject (l.name ++ " accepts only one row, but " ++ Integer.toText count ++ " received")
        Message.invalidRowCount
    else return true
  else if (count : Int) < l.minRows ∨ (0 < l.maxRows ∧ l.maxRows < count) then
    l.reject ("a min of " ++ Integer.toText l.minRows ++ " and a max of " ++ boundText l.maxRows ++
      " rows expected, but " ++ Integer.toText count ++ " received") Message.invalidRowCount
  else return true

/-- Copies the parent's values into a child row. -/
def copyValues (l : Link) (parent child : RowRef) : Work Unit :=
  l.pairs.forM fun (p, c) => do Work.setAt child c.index (← Work.valueAt parent p.index)

/-- Saves child rows one after the other, each with the parent's values in it, up to one
that could not be saved. -/
def saveRows (l : Link) (parent : RowRef) : List RowRef → Nat → Work Bool
  | [], _ => return true
  | r :: rs, i => do
    l.copyValues parent r
    if ← l.child.save r then saveRows l parent rs (i + 1)
    else
      let keys ← Work.lift (l.child.schema.emitKeys (← Work.row r))
      Work.note .error .linkage ("Row " ++ Integer.toText i ++ " of " ++ l.name ++
        " could not be saved: " ++ keys)
      return false

/-- Checks the number of child rows and saves them. No rows at all may be well. -/
def saveChecked (l : Link) (parent : RowRef) (rows : List RowRef) : Work Bool := do
  if !(← Work.check (l.validate rows.length)) then return false
  if rows.isEmpty then
    Work.note .info .linkage ("Input not received for " ++ l.name ++
      ", but it is optional. No data saved for linked record.")
  l.saveRows parent rows 0

/-- Deletes all child rows of a parent row. That there are none is no fault. -/
def deleteRows (l : Link) (parent : RowRef) : Work Unit := do
  let n ← Work.write l.deleteText (← l.valuesFor parent) l.whereTypes
  Work.note .debug .linkage (Integer.toText n ++ " rows deleted from " ++ l.child.table ++
    " for link " ++ l.name)

end Link

namespace LinkTree

/-- Whether rows can be written through the link; notes why not. -/
def checkWritable (t : LinkTree) (operation : String) : Work Bool := do
  if !t.link.isLinked then
    t.link.noteNotLinked
    return false
  else if !t.children.isEmpty then
    Work.note .error .linkage ("Auto " ++ operation ++ " operation is not allowed on link " ++
      t.name ++ ": record " ++ t.link.child.schema.name ++ " has child records of its own")
    return false
  else return true

/-- Saves the child rows of a parent row. -/
def save (t : LinkTree) (parent : RowRef) (rows : List RowRef) : Work Bool := do
  if ← t.checkWritable "save" then t.link.saveChecked parent rows else return false

/-- Deletes the child rows of a parent row. -/
def delete (t : LinkTree) (parent : RowRef) : Work Bool := do
  if !(← t.checkWritable "delete") then return false
  t.link.deleteRows parent
  return true

end LinkTree

namespace LinkedRecord

/-- What is written with its children. -/
inductive TreeOperation where
  | insert
  | update
  | save
  deriving DecidableEq, Repr, Inhabited

namespace TreeOperation

/-- What is done with the row itself. -/
def onRow : TreeOperation → Mapping.RowOperation
  | insert => .insert
  | update => .update
  | save => .save

def name (op : TreeOperation) : String := op.onRow.name

def ofName? (s : String) : Option TreeOperation := [insert, update, save].find? (·.name == s)

end TreeOperation

/-- The rows that a tree has under a link; none are as good as an empty list. -/
def rowsUnder (tree : RowTree RowRef) (t : LinkTree) : List RowRef := (tree.rowsOf? t.name).getD []

/-- Whether every link can be written through; ends at the first that cannot. -/
def checkWritable (operation : String) : List LinkTree → Work Bool
  | [] => return true
  | t :: ts => do
    if ← t.checkWritable operation then checkWritable operation ts else return false

/-- Whether the number of child rows under every link is right. Every link is looked at. -/
def validate (lr : LinkedRecord) (tree : RowTree RowRef) : Check Bool := do
  let oks ← lr.links.mapM fun t => t.link.validate (rowsUnder tree t).length
  return oks.all id

/-- Saves the children under each link, up to one that could not be saved. -/
def saveChildren (tree : RowTree RowRef) : List LinkTree → Work Bool
  | [] => return true
  | t :: ts => do
    if ← t.save tree.row (rowsUnder tree t) then saveChildren tree ts else return false

/-- Writes a row and saves its children. -/
def write (lr : LinkedRecord) (op : TreeOperation) (tree : RowTree RowRef) : Work Bool := do
  if !(← checkWritable op.name lr.links) then return false
  if !(← Work.check (lr.validate tree)) then return false
  if ← lr.mapping.perform op.onRow tree.row then saveChildren tree lr.links
  else
    let keys ← Work.lift (lr.mapping.schema.emitKeys (← Work.row tree.row))
    Work.note .info .linkage (op.name ++ " of " ++ lr.name ++ " affected no rows: " ++ keys)
    return false

/-- Deletes all child rows of a row, then the row. Says whether the row was there. -/
def delete (lr : LinkedRecord) (r : RowRef) : Work Bool := do
  if !(← checkWritable "delete" lr.links) then return false
  lr.links.forM fun t => do let _ ← t.delete r
  lr.mapping.delete r

end LinkedRecord

end Tablewright
