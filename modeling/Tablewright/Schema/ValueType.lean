import Tablewright.Diagnostics.Failure
import Tablewright.Value.Display

/-! The types of fields. A type reads client text as a native value, brings what a
database returns into its native form, and says which native values belong to it. -/

namespace Tablewright

inductive ValueType where
  | text
  | integer
  | decimal
  | boolean
  | date
  | timestamp
  deriving DecidableEq, Repr, Inhabited

namespace ValueType

def all : List ValueType := [text, integer, decimal, boolean, date, timestamp]

def name : ValueType → String
  | text => "text"
  | integer => "integer"
  | decimal => "decimal"
  | boolean => "boolean"
  | date => "date"
  | timestamp => "timestamp"

def isNumeric : ValueType → Bool
  | integer | decimal => true
  | _ => false

/-- The type that fits a native value best. -/
def of : Value → ValueType
  | .bool _ => boolean
  | .int _ => integer
  | .decimal _ | .nonFinite _ | .float _ => decimal
  | .timestamp _ => timestamp
  | .date _ => date
  | _ => text

/-- What stands for null in a numeric column where nulls count as zero. -/
def zero : ValueType → Value
  | integer => .int 0
  | decimal => .decimal (.ofNat 0)
  | _ => .null

/-- The native values of a type. Null belongs to every type, and an integer or a double
to the decimals. -/
def admits : ValueType → Value → Bool
  | _, .null => true
  | text, .text _ => true
  | integer, .int _ => true
  | decimal, .decimal _ | decimal, .nonFinite _ | decimal, .int _ | decimal, .float _ => true
  | boolean, .bool _ => true
  | date, .date _ => true
  | timestamp, .timestamp _ => true
  | _, _ => false

/-! ### Client text -/

/-- How many characters may stand before the point of a text that is rounded to an
integer. -/
def maxWholeLength : Nat := 19

/-- Integer text, or decimal text with a point that is not too far out, which is rounded.
A rounded number with too many digits is a failure. -/
def readInteger (s : String) : Except Failure (Option Value) :=
  match Integer.ofText? s with
  | some n => .ok (some (.int n))
  | none =>
    let point := s.toList.idxOf '.'
    if s.toList.length ≤ point ∨ maxWholeLength < point then .ok none
    else match Decimal.ofText? s with
      | none => .ok none
      | some d => match d.nearest? with
        | some n => .ok (some (.int n))
        | none => .error .decimalRange

/-- `1`, `0`, `true` and `false`, the words in any case. -/
def readBoolean (s : String) : Option Value :=
  let word := s.map Char.toLower
  if word = "1" ∨ word = "true" then some (.bool true)
  else if word = "0" ∨ word = "false" then some (.bool false)
  else none

/-- The final letter of universal time as an offset. -/
def spellZone (cs : List Char) : List Char :=
  match cs.reverse with
  | 'Z' :: rest | 'z' :: rest => rest.reverse ++ "+00:00".toList
  | _ => cs

/-- A point in time; without an offset it is one of universal time. -/
def readTimestamp (s : String) : Option Value :=
  (Timestamp.ofChars? (spellZone s.toList)).map fun t =>
    .timestamp { t with offset := some (t.offset.getD .utc) }

/-- The native value that a text without white space at its ends spells. -/
def read : ValueType → String → Except Failure (Option Value)
  | text, s => .ok (some (.text s))
  | integer, s => readInteger s
  | decimal, s => .ok ((Decimal.ofText? s).map .decimal)
  | boolean, s => .ok (readBoolean s)
  | date, s => .ok ((Date.ofText? s).map .date)
  | timestamp, s => .ok (readTimestamp s)

/-- The native value that a client's value spells, as text if it is none. -/
def parse (t : ValueType) : Value → Except Failure (Option Value)
  | .null => .ok none
  | v => t.read (Text.strip v.display)

def parseText (t : ValueType) (s : String) : Except Failure (Option Value) := t.parse (.text s)

/-! ### Database values -/

/-- The integer part of a value. -/
def toInteger : Value → Except Failure Int
  | .int n => .ok n
  | .bool b => .ok b.toNat
  | .decimal d => .ok d.truncate
  | .float x => match x, x.toDecimal? with
    | _, some d => .ok d.truncate
    | .infinite _, none => .error .infinite
    | _, none => .error .missingNumber
  | .nonFinite ⟨_, .infinity⟩ => .error .infinite
  | .nonFinite _ => .error .missingNumber
  | _ => .error .unconvertible

/-- The decimal that a value's text spells, marks included. -/
def toDecimal (v : Value) : Except Failure Value :=
  match Decimal.ofText? v.display, NonFinite.ofText? v.display with
  | some d, _ => .ok (.decimal d)
  | none, some x => .ok (.nonFinite x)
  | none, none => .error .decimalRange

/-- A value from the database in the native form of its column's type. Text is read as a
client's text would be; what cannot be read is null. -/
def fromDatabase : ValueType → Value → Except Failure Value
  | _, .null => .ok .null
  | text, v => .ok (.text v.display)
  | t, .text s => (t.parseText s).map Value.ofOption
  | integer, v => (toInteger v).map .int
  | decimal, .decimal d => .ok (.decimal d)
  | decimal, .nonFinite x => .ok (.nonFinite x)
  | decimal, v => toDecimal v
  | boolean, v => .ok (.bool v.truthy)
  | date, .timestamp t => .ok (.date t.date)
  | date, v => .ok v
  | timestamp, v => .ok v

end ValueType

end Tablewright
