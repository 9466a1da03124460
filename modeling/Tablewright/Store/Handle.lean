import Tablewright.Store.Basic
import Tablewright.Store.Reading
import Tablewright.Work.Task

/-! A store as a handle: it executes the texts of calls, several lists of values one after
the other. What a text says to it is a matter of the dialect it understands. -/

namespace Tablewright

namespace TableStore

/-- The rows that a statement finds. -/
def find (s : TableStore) (values : List Value) : StoreStatement →
    Except Failure (List (List Value))
  | .select table columns conditions limit =>
    .ok (s.select table columns (conditions.zip values) limit)
  | _ => .error (.database "unsupported select")

/-- Executes a statement that changes the store: how many rows it affected, and the key that
was generated if one was to be. -/
def perform (s : TableStore) (values : List Value) (generated : Option String) :
    StoreStatement → Except Failure (Int × Value) × TableStore
  | .insert table entries =>
    let (r, s) := s.insert table entries values generated
    (r.map fun key => (1, key), s)
  | .update table sets conditions =>
    let n := parameterCount sets
    let (affected, s) := s.update table sets (bound sets values) (conditions.zip (values.drop n))
    (.ok (affected, .null), s)
  | .delete table conditions =>
    let (affected, s) := s.delete table (conditions.zip values)
    (.ok (affected, .null), s)
  | .select .. => (.error (.database "unsupported statement"), s)

end TableStore

/-- What texts say to a store: the rows that a query finds, and the statement that any other
text is. -/
structure Dialect where
  query : TableStore → String → List Value → Except Failure (List (List Value))
  statement : String → Except Failure StoreStatement

namespace Dialect

/-- Executes a text that changes the store. -/
def execute (d : Dialect) (s : TableStore) (sql : String) (values : List Value)
    (generated : Option String) : Except Failure (Int × Value) × TableStore :=
  match d.statement sql with
  | .error f => (.error f, s)
  | .ok statement => s.perform values generated statement

/-- Executes a text for one list of values after the other, up to one that fails. -/
def executeAll (d : Dialect) (sql : String) (generated : Option String) :
    List (List Value) → TableStore → Except Failure (Int × List Value) × TableStore
  | [], s => (.ok (0, []), s)
  | values :: rest, s => match d.execute s sql values generated with
    | (.error f, s) => (.error f, s)
    | (.ok (n, key), s) =>
      let (r, s) := d.executeAll sql generated rest s
      (r.map fun (total, keys) => (n + total, key :: keys), s)

/-- The reply to a call and the store after it. -/
def reply (d : Dialect) (s : TableStore) : (c : Call) → Except Failure c.Reply × TableStore
  | .read sql values _ _ => ((d.query s sql values).map (·.head?), s)
  | .readMany sql values _ _ => ((d.query s sql values).map (·.map Except.ok), s)
  | .write sql values _ =>
    let (r, s) := d.execute s sql values none
    (r.map (·.1), s)
  | .insertKey sql values _ column => d.execute s sql values (some column)
  | .writeMany sql rows _ =>
    let (r, s) := d.executeAll sql none rows s
    (r.map (·.1), s)
  | .insertManyKey sql rows _ column => d.executeAll sql (some column) rows s

def handle (d : Dialect) : Handle TableStore where
  answer c s :=
    let (r, s) := d.reply s c
    (⟨r, []⟩, s)

/-- The dialect that knows the forms in which statements are written here. -/
def plain : Dialect where
  query s sql values := (StoreStatement.ofText sql).bind (s.find values)
  statement := StoreStatement.ofText

end Dialect

end Tablewright
