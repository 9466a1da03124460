import Tablewright.Entries
import Tablewright.Json.Token

/-! JSON text as a value. The entries of an object keep the order in which their names
first come; of several entries under one name the last one counts. -/

namespace Tablewright.Json

mutual

/-- The value at the beginning of some words, of no more words than the first argument
says. -/
def readValue : Nat → List Token → Except Fault (Value × List Token)
  | _, .scalar v :: ts => .ok (v, ts)
  | _, .openList :: .closeList :: ts => .ok (.list [], ts)
  | n + 1, .openList :: ts => do
    let (items, ts) ← readItems n ts
    return (.list items, ts)
  | _, .openMap :: .closeMap :: ts => .ok (.map [], ts)
  | n + 1, .openMap :: ts => do
    let (entries, ts) ← readEntries n ts []
    return (.map entries, ts)
  | _, _ => .error .malformed

/-- The items of a list up to its end; there is at least one. -/
def readItems : Nat → List Token → Except Fault (List Value × List Token)
  | 0, _ => .error .malformed
  | n + 1, ts => do
    let (v, ts) ← readValue n ts
    match ts with
    | .closeList :: ts => return ([v], ts)
    | .comma :: ts =>
      let (vs, ts) ← readItems n ts
      return (v :: vs, ts)
    | _ => throw .malformed

/-- The entries of an object up to its end; there is at least one. -/
def readEntries : Nat → List Token → List (String × Value) →
    Except Fault (List (String × Value) × List Token)
  | 0, _, _ => .error .malformed
  | n + 1, ts, found => do
    match ts with
    | .scalar (.text name) :: .colon :: ts =>
      let (v, ts) ← readValue n ts
      match ts with
      | .closeMap :: ts => return (Entries.put name v found, ts)
      | .comma :: ts => readEntries n ts (Entries.put name v found)
      | _ => throw .malformed
    | _ => throw .malformed

end

/-- The value that a text spells. -/
def ofText (s : String) : Except Fault Value := do
  let tokens ← Token.ofText s
  match ← readValue (tokens.length + 1) tokens with
  | (v, []) => return v
  | _ => throw .malformed

end Tablewright.Json
