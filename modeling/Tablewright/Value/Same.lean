import Tablewright.Value.Basic

/-! Equality of values as a database or a value list sees it: numbers of any kind by
what they amount to, points in time by the moment, everything else by its contents. -/

namespace Tablewright.Value

/-- The exact amount of a number; a truth value counts as one or zero. -/
def amount? : Value → Option Decimal
  | bool b => some (.ofNat b.toNat)
  | int n => some (.ofInt n)
  | decimal d => some d
  | float x => x.toDecimal?
  | _ => none

/-- Whether a value is an infinity, and of which sign. -/
def infinity? : Value → Option Bool
  | nonFinite ⟨negative, .infinity⟩ => some negative
  | float (.infinite negative) => some negative
  | _ => none

/-- Equality of values that hold no others. A missing number equals nothing, not even
itself. -/
def sameScalar (a b : Value) : Bool :=
  match a, b with
  | null, null => true
  | text s, text t => s == t
  | date d, date e => d == e
  | timestamp s, timestamp t => s.same t
  | a, b =>
    match a.amount?, b.amount? with
    | some x, some y => x.same y
    | none, none =>
      match a.infinity?, b.infinity? with
      | some x, some y => x == y
      | _, _ => false
    | _, _ => false

mutual

/-- Equality of values. Maps are equal if they hold equal values under the same keys. -/
def same : Value → Value → Bool
  | list xs, list ys => sameItems xs ys
  | map xs, map ys => xs.length == ys.length && sameEntries xs ys
  | list _, _ | map _, _ | _, list _ | _, map _ => false
  | a, b => sameScalar a b

def sameItems : List Value → List Value → Bool
  | [], [] => true
  | x :: xs, y :: ys => same x y && sameItems xs ys
  | _, _ => false

/-- Every entry of the first has its equal among the second. -/
def sameEntries : List (String × Value) → List (String × Value) → Bool
  | [], _ => true
  | (k, v) :: xs, ys => ys.any (fun e => e.1 == k && same v e.2) && sameEntries xs ys

end

/-- Whether some value of a list equals this one. -/
def among (v : Value) (vs : List Value) : Bool := vs.any (same v)

end Tablewright.Value
