import Tablewright.Link.Basic
import Tablewright.Mapping.ByKey

/-! Reading a row with all that hangs below it. -/

namespace Tablewright

namespace Link

/-- Notes that the link has no pairs, so that nothing can be done with the database. -/
def noteNotLinked (l : Link) : Work Unit :=
  Work.note .error .linkage ("Link " ++ l.name ++ " is not designed for db operation on record " ++
    l.child.schema.name ++ ". Database operation not done")

/-- The values that a parent row has for the child's columns. -/
def valuesFor (l : Link) (parent : RowRef) : Work (List Value) :=
  l.parentFields.mapM fun f => Work.valueAt parent f.index

/-- The child rows of a parent row: all of them, or the first for a link of one row. -/
def childRows (l : Link) (parent : RowRef) : Work (List RowRef) := do
  let values ← l.valuesFor parent
  if l.isMultiRow then l.child.filter (some l.whereText) values (some l.whereTypes)
  else return (← l.child.filterFirst (some l.whereText) values (some l.whereTypes)).toList

end Link

namespace LinkTree

mutual

/-- The trees of a parent row's child rows. A link without pairs has none to read. -/
def read : LinkTree → RowRef → Work (Option (List (RowTree RowRef)))
  | node l below, parent =>
    if !l.isLinked then do
      l.noteNotLinked
      return none
    else do
      let rows ← l.childRows parent
      let trees ← rows.mapM fun r => return .node r (← readAll below r [])
      return some trees

/-- What hangs below a row under each of some links. -/
def readAll : List LinkTree → RowRef → List (String × List (RowTree RowRef)) →
    Work (List (String × List (RowTree RowRef)))
  | [], _, found => return found
  | t :: ts, r, found => do
    let trees ← read t r
    readAll ts r (Entries.put t.link.name (trees.getD []) found)

end

end LinkTree

namespace LinkedRecord

/-- A row of the record with all that hangs below it. -/
def treeOf (lr : LinkedRecord) (r : RowRef) : Work (RowTree RowRef) :=
  return .node r (← LinkTree.readAll lr.links r [])

/-- Reads the row with the keys of a row, then its children. -/
def read (lr : LinkedRecord) (r : RowRef) : Work (Option (RowTree RowRef)) := do
  if ← lr.mapping.read r then return some (← lr.treeOf r)
  else return none

/-- The rows that a filter selects, each with its children. Output fields have to include
the fields of the links. -/
def filter (lr : LinkedRecord) (c : CompiledFilter) : Work (List (RowTree RowRef)) := do
  (← lr.mapping.filterCompiled c).mapM lr.treeOf

end LinkedRecord

end Tablewright
