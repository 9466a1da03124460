import Tablewright.Decoder
import Tablewright.Pattern.Matching
import Tablewright.Pattern.Reader
import Tablewright.Schema.ValueType
import Tablewright.Value.Same

/-! Rules for the values of a field. Length rules and the pattern apply to text, range
rules to numbers. A value of the right type that breaks a rule is as invalid as one of a
wrong type. -/

namespace Tablewright

structure ValueSchema where
  name : String
  valueType : ValueType
  minLength : Option Int
  maxLength : Option Int
  pattern : Option String
  minValue : Option Decimal
  maxValue : Option Decimal
  deriving DecidableEq, Repr, Inhabited

namespace ValueSchema

/-- Whether a number is below a bound. A missing number cannot be compared. -/
def isBelow (v : Value) (bound : Decimal) : Except Failure Bool :=
  match v.amount?, v.infinity? with
  | some d, _ => .ok (d.less bound)
  | none, some negative => .ok negative
  | none, none => .error .decimalRange

def isAbove (v : Value) (bound : Decimal) : Except Failure Bool :=
  match v.amount?, v.infinity? with
  | some d, _ => .ok (bound.less d)
  | none, some negative => .ok !negative
  | none, none => .error .decimalRange

def admitsPattern (pattern : Option String) (s : String) : Except Failure Bool :=
  match pattern with
  | none => .ok true
  | some p => (Pattern.ofText p).map (·.accepts s)

/-- The length rules, then the pattern. -/
def admitsText (r : ValueSchema) (s : String) : Except Failure Bool :=
  let length : Int := s.length
  if r.minLength.any (length < ·) || r.maxLength.any (· < length) then .ok false
  else admitsPattern r.pattern s

/-- The lower bound, then the upper one; both belong to the range. -/
def admitsNumber (r : ValueSchema) (v : Value) : Except Failure Bool := do
  let below ← match r.minValue with
    | some bound => isBelow v bound
    | none => pure false
  if below then return false
  let above ← match r.maxValue with
    | some bound => isAbove v bound
    | none => pure false
  return !above

/-- Whether a value is of the type and keeps the rules. Null always does. -/
def admits (r : ValueSchema) (v : Value) : Except Failure Bool :=
  if v.isNull then .ok true
  else if !r.valueType.admits v then .ok false
  else match v with
    | .text s => r.admitsText s
    | v => if r.valueType.isNumeric then r.admitsNumber v else .ok true

/-- The value that raw input spells, if it keeps the rules. -/
def parse (r : ValueSchema) (raw : Value) : Except Failure (Option Value) := do
  match ← r.valueType.parse raw with
  | none => return none
  | some v => return if ← r.admits v then some v else none

def decode : Decoder ValueSchema := Decoder.model fun es =>
  mk <$> Decoder.part es ["name"] "" Decoder.text
    <*> Decoder.part es ["value_type"] .text (Decoder.oneOf ValueType.all ValueType.name)
    <*> Decoder.part es ["min_length"] none (.optional (.atLeast 0 .integer))
    <*> Decoder.part es ["max_length"] none (.optional (.atLeast 0 .integer))
    <*> Decoder.part es ["pattern"] none (.optional .text)
    <*> Decoder.part es ["min_value"] none (.optional .decimal)
    <*> Decoder.part es ["max_value"] none (.optional .decimal)

end ValueSchema

end Tablewright
