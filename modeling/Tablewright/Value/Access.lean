import Tablewright.Entries
import Tablewright.Value.Basic

/-! Looking into values of known shape. A value of another shape has nothing in it. -/

namespace Tablewright.Value

def text? : Value → Option String
  | text s => some s
  | _ => none

def int? : Value → Option Int
  | int n => some n
  | _ => none

def bool? : Value → Option Bool
  | bool b => some b
  | _ => none

def items : Value → List Value
  | list vs => vs
  | _ => []

def entries : Value → List (String × Value)
  | map es => es
  | _ => []

/-- The entry of a map under a key. -/
def entry? (v : Value) (key : String) : Option Value := Entries.get? key v.entries

/-- The entry of a map under a key; null if there is none. -/
def entry (v : Value) (key : String) : Value := ofOption (v.entry? key)

end Tablewright.Value
