import Tablewright.Mapping.ByClause
import Tablewright.Schema.Declaration

/-! Links between records. A link pairs fields of a parent record with columns of a child
record: the child rows of a parent row are those whose columns equal the paired values. -/

namespace Tablewright

/-- A link whose fields have been found. -/
structure Link where
  name : String
  parent : Mapping
  child : Mapping
  /-- Whether a parent row has any number of child rows, or one at most. -/
  isMultiRow : Bool
  minRows : Int
  /-- Zero stands for no bound. -/
  maxRows : Int
  errorMessageId : Option String
  /-- A field of the parent with the child's column that holds its value. A link without
  pairs is for use by hand. -/
  pairs : List (Field × Field)
  deriving Repr, Inhabited

namespace Link

def isLinked (l : Link) : Bool := !l.pairs.isEmpty

def parentFields (l : Link) : List Field := l.pairs.map (·.1)

def childFields (l : Link) : List Field := l.pairs.map (·.2)

/-- The clause under which a child row belongs to a parent row. -/
def whereText (l : Link) : String := Statement.whereText (Mapping.columns l.childFields)

def whereTypes (l : Link) : List ValueType := Mapping.types l.childFields

def deleteText (l : Link) : String :=
  (Statement.delete l.child.table (Mapping.columns l.childFields)).toText

/-- The link in one line. -/
def summary (l : Link) : String :=
  "ChildLinkage(name=" ++ Text.quoted l.name ++ ", parent=" ++ Text.quoted l.parent.schema.name ++
    ", child=" ++ Text.quoted l.child.schema.name ++ ", linked=" ++ Value.boolText l.isLinked ++ ")"

/-! ### Building -/

/-- The fields of a record that one side of a link names. -/
def resolve (schema : RecordSchema) (side : String) (mustBeColumn : Bool) (names : List String) :
    Except Failure (List Field) :=
  names.mapM fun name => match schema.field? name with
    | none => .error (.badLink (.unknownField name side schema.name))
    | some f =>
      if mustBeColumn && !f.isColumn then .error (.badLink (.notAColumn name schema.name)) else .ok f

/-- The rows of a child with a tenant always belong to the parent's tenant. -/
def tenantPair (parent child : RecordSchema) (childFields : List Field) : List (Field × Field) :=
  match parent.tenantField, child.tenantField with
  | some p, some c => if childFields.any (·.index == c.index) then [] else [(p, c)]
  | _, _ => []

/-- The pairs that two lists of names describe, and the pair of tenants. -/
def resolvePairs (parent child : RecordSchema) (parentNames childNames : List String) :
    Except Failure (List (Field × Field)) := do
  let parentFields ← resolve parent "parent" false parentNames
  let childFields ← resolve child "child" true childNames
  return parentFields.zip childFields ++ tenantPair parent child childFields

/-- The pairs of a declaration. Without any there is nothing to be done automatically. -/
def findPairs (d : LinkDeclaration) (parent child : RecordSchema) : Check (List (Field × Field)) := do
  if d.parentFields.length ≠ d.childFields.length then
    throw (.badLink (.unpaired d.name d.parentFields.length d.childFields.length))
  else if d.parentFields.isEmpty then
    Check.note .info .linkage
      ("Link " ++ d.name ++ " has no design-time link fields. No auto operations possible.")
    return []
  else .mk (return resolvePairs parent child d.parentFields d.childFields)

/-- The link between two records that a declaration describes. -/
def build (d : LinkDeclaration) (parent child : Mapping) : Check Link := do
  let pairs ← findPairs d parent.schema child.schema
  return {
    name := d.name
    parent := parent
    child := child
    isMultiRow := d.isMultiRow
    minRows := d.minRows
    maxRows := d.maxRows
    errorMessageId := d.errorMessageId
    pairs := pairs }

end Link

/-- A link with the links of its child record, and so on down. -/
inductive LinkTree where
  | node (link : Link) (children : List LinkTree)
  deriving Repr, Inhabited

namespace LinkTree

def link : LinkTree → Link
  | node l _ => l

def children : LinkTree → List LinkTree
  | node _ ts => ts

def name (t : LinkTree) : String := t.link.name

/-- The link at the end of a path of positions. -/
def at? : List LinkTree → List Nat → Option LinkTree
  | _, [] => none
  | ts, [i] => ts[i]?
  | ts, i :: path => ts[i]?.bind fun t => at? t.children path

/-- Whether child rows can be written through the link: it is linked, and the child has no
children of its own. -/
def isWritable (t : LinkTree) : Bool := t.link.isLinked && t.children.isEmpty

end LinkTree

/-- A row with the rows of its children under the names of the links. -/
inductive RowTree (α : Type) where
  | node (row : α) (children : List (String × List (RowTree α)))
  deriving Repr, Inhabited

namespace RowTree

variable {α : Type}

def row : RowTree α → α
  | node r _ => r

def children : RowTree α → List (String × List (RowTree α))
  | node _ cs => cs

/-- A row without children. -/
def leaf (r : α) : RowTree α := node r []

mutual

/-- Puts the rows of a tree into the workspace. -/
def keep : RowTree Row → Work (RowTree RowRef)
  | node r children => do
    let ref ← Work.addRow r
    return node ref (← keepChildren children)

def keepChildren : List (String × List (RowTree Row)) → Work (List (String × List (RowTree RowRef)))
  | [] => return []
  | (name, trees) :: rest => do
    let trees ← keepAll trees
    return (name, trees) :: (← keepChildren rest)

def keepAll : List (RowTree Row) → Work (List (RowTree RowRef))
  | [] => return []
  | t :: ts => do
    let t ← keep t
    return t :: (← keepAll ts)

end

/-- The rows under a link, if anything is known of them. -/
def rowsOf? (t : RowTree α) (name : String) : Option (List α) :=
  (Entries.get? name t.children).map fun trees => trees.map row

end RowTree

/-- A record with its links. Writing goes down one level: from the parent to its children,
whose own children are only read. -/
structure LinkedRecord where
  mapping : Mapping
  links : List LinkTree
  deriving Repr, Inhabited

namespace LinkedRecord

def name (r : LinkedRecord) : String := r.mapping.schema.name

/-- The linked record in one line. -/
def summary (r : LinkedRecord) : String :=
  "LinkedRecord(record=" ++ Text.quoted r.name ++ ", links=" ++
    (Value.list (r.links.map fun t => .text t.name)).literal ++ ")"

end LinkedRecord

end Tablewright
