import Tablewright.Number.Binary
import Tablewright.Number.NonFinite
import Tablewright.Number.Integer
import Tablewright.Calendar.Timestamp

/-! Native values: what a row holds, a statement binds, a database returns and a client
sends. Lists and maps occur in payloads; no column has them as its type. -/

namespace Tablewright

/-- A native value. The entries of a map are in the order in which they were given. -/
inductive Value where
  | null
  | bool (b : Bool)
  | int (n : Int)
  | text (s : String)
  | decimal (d : Decimal)
  | nonFinite (x : NonFinite)
  | float (x : Binary)
  | date (d : Date)
  | timestamp (t : Timestamp)
  | list (items : List Value)
  | map (entries : List (String × Value))
  deriving Repr, Inhabited

namespace Value

def isNull : Value → Bool
  | null => true
  | _ => false

/-- Absent values are bound and stored as null. -/
def ofOption (v : Option Value) : Value := v.getD null

/-- Whether a value counts as true: null, zero and what is empty do not. -/
def truthy : Value → Bool
  | null => false
  | bool b => b
  | int n => n != 0
  | text s => s != ""
  | decimal d => d.coefficient != 0
  | float (.finite _ m _) => m != 0
  | list items => !items.isEmpty
  | map entries => !entries.isEmpty
  | _ => true

end Value

end Tablewright
