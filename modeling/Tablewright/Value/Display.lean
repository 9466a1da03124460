import Tablewright.Value.Basic
import Tablewright.Text.Quoted

/-! The text of a value. `display` is what a client is shown and what a text column is
given; `literal` tells values of different types apart and stands in log lines and
reports. -/

namespace Tablewright.Value

def boolText (b : Bool) : String := if b then "True" else "False"

/-- Parts in parentheses after a name, separated by commas. -/
def callText (name : String) (parts : List String) : String :=
  name ++ "(" ++ ", ".intercalate parts ++ ")"

def dateLiteral (d : Date) : String :=
  callText "datetime.date" ([d.year, d.month, d.day].map fun (n : Nat) => Integer.toText n)

/-- A span of time as days, seconds and microseconds, of which only the days may be
negative; parts that are zero are left out. -/
def spanLiteral (micros : Int) : String :=
  let days := micros.fdiv 86400000000
  let rest := micros.fmod 86400000000
  let part (name : String) (n : Int) : List String :=
    if n = 0 then [] else [name ++ "=" ++ Integer.toText n]
  let parts := part "days" days ++ part "seconds" (rest / 1000000) ++
    part "microseconds" (rest % 1000000)
  callText "datetime.timedelta" (if parts.isEmpty then ["0"] else parts)

def offsetLiteral (o : Offset) : String :=
  if o.micros = 0 then "datetime.timezone.utc"
  else callText "datetime.timezone" [spanLiteral o.micros]

/-- Seconds and microseconds are left out from the end while they are zero. -/
def timestampLiteral (t : Timestamp) : String :=
  let numbers : List Nat := [t.date.year, t.date.month, t.date.day, t.time.hour, t.time.minute] ++
    (if t.time.microsecond ≠ 0 then [t.time.second, t.time.microsecond]
      else if t.time.second ≠ 0 then [t.time.second] else [])
  let zone := t.offset.toList.map fun o => "tzinfo=" ++ offsetLiteral o
  callText "datetime.datetime" (numbers.map (fun (n : Nat) => Integer.toText n) ++ zone)

def quotedCall (name text : String) : String := callText name [Text.quoted text]

mutual

/-- The text that shows the type of a value. -/
def literal : Value → String
  | null => "None"
  | bool b => boolText b
  | int n => Integer.toText n
  | text s => Text.quoted s
  | decimal d => quotedCall "Decimal" d.toText
  | nonFinite x => quotedCall "Decimal" x.toText
  | float x => x.toText
  | date d => dateLiteral d
  | timestamp t => timestampLiteral t
  | list items => "[" ++ ", ".intercalate (literals items) ++ "]"
  | map entries => "\x7b" ++ ", ".intercalate (entryLiterals entries) ++ "\x7d"

def literals : List Value → List String
  | [] => []
  | v :: vs => literal v :: literals vs

def entryLiterals : List (String × Value) → List String
  | [] => []
  | (k, v) :: es => (Text.quoted k ++ ": " ++ literal v) :: entryLiterals es

end

/-- The plain text of a value. The parts of a list or map stand in it as literals. -/
def display : Value → String
  | text s => s
  | decimal d => d.toText
  | nonFinite x => x.toText
  | date d => d.toText
  | timestamp t => t.toSpacedText
  | v => v.literal

end Tablewright.Value
