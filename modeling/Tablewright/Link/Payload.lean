import Tablewright.Link.Basic
import Tablewright.Schema.Input

/-! Rows with children from client input: the fields of the parent and, under the name of
each link, one payload or a list of payloads for the child rows. Every part is read and
every problem reported. -/

namespace Tablewright

namespace Link

/-- How the payload of a child row is read. What the link fills in from the parent is left
out; a child without its generated key is a new row. -/
def inputMode (l : Link) (forInsert : Bool) (number : Nat) : InputMode where
  forInsert := forInsert
  skip := Mapping.places l.childFields
  optionalGeneratedKey := true
  object := some l.name
  rowNumber := some number

/-- The payloads under a link. -/
def payloads : Value → List Value
  | .list items => items
  | .null => []
  | item => [item]

/-- The child rows of some payloads: those that were accepted, and whether all were. -/
def parseRows (l : Link) (ctx : RequestContext) (forInsert : Bool) :
    List Value → Nat → Check (List Row × Bool)
  | [], _ => return ([], true)
  | item :: items, i => do
    let row ← l.child.schema.parseRow ctx (l.inputMode forInsert i) item
    let (rows, ok) ← parseRows l ctx forInsert items (i + 1)
    return (row.toList ++ rows, row.isSome && ok)

end Link

namespace LinkedRecord

/-- The children that a payload has under each of some links. -/
def parseChildren (ctx : RequestContext) (forInsert : Bool) (payload : Value) :
    List LinkTree → List (String × List (RowTree Row)) → Bool →
      Check (List (String × List (RowTree Row)) × Bool)
  | [], found, ok => return (found, ok)
  | t :: ts, found, ok => do
    let raw ← .mk (return RecordSchema.payloadValue payload t.name)
    if raw.isNull then parseChildren ctx forInsert payload ts found ok
    else
      let (rows, accepted) ← t.link.parseRows ctx forInsert (Link.payloads raw) 0
      parseChildren ctx forInsert payload ts (Entries.put t.name (rows.map .leaf) found) (accepted && ok)

/-- The row that a payload describes, with its children. Nothing comes out if any part was
rejected. -/
def parse (lr : LinkedRecord) (ctx : RequestContext) (forInsert : Bool) (payload : Value) :
    Check (Option (RowTree Row)) := do
  let row ← lr.mapping.schema.parseRow ctx { forInsert := forInsert } payload
  let (children, ok) ← parseChildren ctx forInsert payload lr.links [] true
  return if ok then row.map (.node · children) else none

end LinkedRecord

end Tablewright
