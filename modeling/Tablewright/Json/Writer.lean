import Tablewright.Text.Quoted
import Tablewright.Value.Display

/-! Values as JSON text. What JSON has no form for is written as its plain text. Whoever
writes says which characters may stand for themselves. -/

namespace Tablewright.Json

/-- The letter that stands for a control character behind a backslash. -/
def shortEscape? (c : Char) : Option Char :=
  if c = '"' then some '"'
  else if c = '\\' then some '\\'
  else if c = '\n' then some 'n'
  else if c = '\r' then some 'r'
  else if c = '\t' then some 't'
  else if c = '\x08' then some 'b'
  else if c = '\x0c' then some 'f'
  else none

def unitText (n : Nat) : List Char := '\\' :: 'u' :: Text.hex 4 n

/-- A character by its code units, two for one beyond the first plane. -/
def unitsText (c : Char) : List Char :=
  let n := c.toNat
  if n < 0x10000 then unitText n
  else unitText (0xd800 + (n - 0x10000) / 0x400) ++ unitText (0xdc00 + (n - 0x10000) % 0x400)

/-- The characters that can be printed in ASCII. -/
def isAscii (c : Char) : Bool := 0x20 ≤ c.toNat && c.toNat < 0x7f

def charText (plain : Char → Bool) (c : Char) : List Char :=
  match shortEscape? c with
  | some letter => ['\\', letter]
  | none => if plain c then [c] else unitsText c

/-- A text in quotes. -/
def quoted (plain : Char → Bool) (s : String) : String :=
  String.ofList ('"' :: s.toList.flatMap (charText plain) ++ ['"'])

def boolText (b : Bool) : String := if b then "true" else "false"

/-- A double by its digits; the values that are no numbers by their names. -/
def binaryText : Binary → String
  | .notANumber => "NaN"
  | .infinite negative => if negative then "-Infinity" else "Infinity"
  | x => x.toText

mutual

def write (plain : Char → Bool) : Value → String
  | .null => "null"
  | .bool b => boolText b
  | .int n => Integer.toText n
  | .float x => binaryText x
  | .list items => "[" ++ ", ".intercalate (writeItems plain items) ++ "]"
  | .map entries => "\x7b" ++ ", ".intercalate (writeEntries plain entries) ++ "\x7d"
  | .text s => quoted plain s
  | v => quoted plain v.display

def writeItems (plain : Char → Bool) : List Value → List String
  | [] => []
  | v :: vs => write plain v :: writeItems plain vs

def writeEntries (plain : Char → Bool) : List (String × Value) → List String
  | [] => []
  | (k, v) :: es => (quoted plain k ++ ": " ++ write plain v) :: writeEntries plain es

end

end Tablewright.Json
