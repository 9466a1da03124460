import Tablewright.Number.Decimal

/-! Marks that a decimal column may hold in place of a number. They come from the
database or from the caller's own values; no text that a client sends is accepted as
one. -/

namespace Tablewright

/-- The three kinds of mark. The payload is the diagnostic number of a missing value. -/
inductive NonFinite.Kind where
  | infinity
  | quiet (payload : Nat)
  | signalling (payload : Nat)
  deriving DecidableEq, Repr, Inhabited

/-- An infinity, or the mark of a missing number. -/
structure NonFinite where
  negative : Bool
  kind : NonFinite.Kind
  deriving DecidableEq, Repr, Inhabited

namespace NonFinite

def payloadText (n : Nat) : String := if n = 0 then "" else String.ofList (Nat.toDigits 10 n)

def toText (x : NonFinite) : String :=
  String.ofList (Decimal.signText x.negative) ++
    match x.kind with
    | .infinity => "Infinity"
    | .quiet n => "NaN" ++ payloadText n
    | .signalling n => "sNaN" ++ payloadText n

/-- The diagnostic digits at the end of a mark. -/
def readPayload (cs : List Char) : Option Nat :=
  match Decimal.spanDigits cs with
  | (ds, []) => some (Text.ofDigits ds)
  | _ => none

def readKind (cs : List Char) : Option Kind :=
  match cs.map Char.toLower with
  | ['i', 'n', 'f'] | ['i', 'n', 'f', 'i', 'n', 'i', 't', 'y'] => some .infinity
  | 'n' :: 'a' :: 'n' :: rest => (readPayload rest).map .quiet
  | 's' :: 'n' :: 'a' :: 'n' :: rest => (readPayload rest).map .signalling
  | _ => none

/-- The mark that a text spells, in any case. -/
def ofText? (s : String) : Option NonFinite :=
  (Decimal.foldDigits (Text.trim s.toList)).bind fun cs =>
    let (negative, cs) := Decimal.spanSign cs
    (readKind cs).map (⟨negative, ·⟩)

end NonFinite

end Tablewright
