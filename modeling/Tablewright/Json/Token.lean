import Tablewright.Number.Integer
import Tablewright.Value.Basic

/-! The words of JSON text. Numbers without a fraction and an exponent are integers of any
size, all others are doubles; the names of the values that are no numbers are understood. -/

namespace Tablewright.Json

inductive Token where
  | openList
  | closeList
  | openMap
  | closeMap
  | colon
  | comma
  /-- A text, a number or one of the named values. -/
  | scalar (v : Value)
  deriving Repr, Inhabited

/-- Why a text is not JSON. -/
inductive Fault where
  | malformed
  /-- An integer with more digits than are read. -/
  | tooLong (digits : Nat)
  deriving DecidableEq, Repr, Inhabited

namespace Token

def isBlank (c : Char) : Bool := c == ' ' || c == '\t' || c == '\n' || c == '\r'

/-! ### Strings -/

def hex4? (a b c d : Char) : Option Nat := do
  let (a, b) := (← Text.hexDigit? a, ← Text.hexDigit? b)
  let (c, d) := (← Text.hexDigit? c, ← Text.hexDigit? d)
  return ((a * 16 + b) * 16 + c) * 16 + d

/-- The character behind a backslash. -/
def escaped? : Char → Option Nat
  | '"' => some 0x22
  | '\\' => some 0x5c
  | '/' => some 0x2f
  | 'b' => some 0x08
  | 'f' => some 0x0c
  | 'n' => some 0x0a
  | 'r' => some 0x0d
  | 't' => some 0x09
  | _ => none

/-- The code units up to the closing quote, and what is behind it. -/
def readUnits : List Char → Option (List Nat × List Char)
  | [] => none
  | '"' :: cs => some ([], cs)
  | '\\' :: 'u' :: a :: b :: c :: d :: cs => do
    let unit ← hex4? a b c d
    let (units, rest) ← readUnits cs
    return (unit :: units, rest)
  | '\\' :: c :: cs => do
    let unit ← escaped? c
    let (units, rest) ← readUnits cs
    return (unit :: units, rest)
  | c :: cs =>
    if c.toNat < 0x20 ∨ c = '\\' then none
    else (readUnits cs).map fun (units, rest) => (c.toNat :: units, rest)

def isHigh (n : Nat) : Bool := 0xd800 ≤ n && n < 0xdc00

def isLow (n : Nat) : Bool := 0xdc00 ≤ n && n < 0xe000

/-- A unit as a character; half a pair is no character and is replaced. -/
def charOf (n : Nat) : Char := if isHigh n || isLow n then '\ufffd' else Char.ofNat n

/-- Two halves of a pair make one character. -/
def joinPairs : List Nat → List Char
  | high :: low :: rest =>
    if isHigh high && isLow low then
      Char.ofNat (0x10000 + (high - 0xd800) * 0x400 + (low - 0xdc00)) :: joinPairs rest
    else charOf high :: joinPairs (low :: rest)
  | [n] => [charOf n]
  | [] => []

/-! ### Numbers -/

def splitDigits (cs : List Char) : List Char × List Char :=
  (cs.takeWhile Char.isDigit, cs.dropWhile Char.isDigit)

def ofDigitChars (cs : List Char) : Nat := Text.ofDigits (cs.filterMap Text.asciiDigit?)

/-- A point with digits behind it. -/
def readFraction (cs : List Char) : List Char × List Char :=
  match cs with
  | '.' :: rest =>
    let (digits, rest) := splitDigits rest
    if digits.isEmpty then ([], cs) else (digits, rest)
  | _ => ([], cs)

/-- The mark of an exponent with a sign and digits behind it. -/
def readExponent (cs : List Char) : Option Int × List Char :=
  match cs with
  | e :: rest =>
    if e = 'e' ∨ e = 'E' then
      let (negative, rest) := match rest with
        | '-' :: rest => (true, rest)
        | '+' :: rest => (false, rest)
        | rest => (false, rest)
      let (digits, rest) := splitDigits rest
      if digits.isEmpty then (none, cs)
      else
        let n : Int := ofDigitChars digits
        (some (if negative then -n else n), rest)
    else (none, cs)
  | [] => (none, [])

/-- The digits of the whole part: zero stands alone. -/
def readWhole : List Char → List Char × List Char
  | '0' :: rest => (['0'], rest)
  | cs => splitDigits cs

/-- An integer, or the double nearest to a number with a fraction or an exponent. -/
def readNumber (negative : Bool) (cs : List Char) : Except Fault (Value × List Char) :=
  let (whole, afterWhole) := readWhole cs
  let (fraction, rest) := readFraction afterWhole
  let (exponent, rest) := readExponent rest
  if whole.isEmpty then .error .malformed
  else if fraction.isEmpty ∧ exponent.isNone then
    if Integer.maxDigits < whole.length then .error (.tooLong whole.length)
    else
      let n : Int := ofDigitChars whole
      .ok (.int (if negative then -n else n), rest)
  else
    .ok (.float (.ofDecimal ⟨negative, ofDigitChars (whole ++ fraction),
      exponent.getD 0 - fraction.length⟩), rest)

/-! ### Words -/

/-- The values that have names. -/
def names : List (List Char × Value) :=
  [("null".toList, .null), ("true".toList, .bool true), ("false".toList, .bool false),
    ("NaN".toList, .float .notANumber), ("Infinity".toList, .float (.infinite false)),
    ("-Infinity".toList, .float (.infinite true))]

/-- The named value that a text begins with. -/
def readName (cs : List Char) : Option (Value × List Char) :=
  (names.find? fun (name, _) => name.isPrefixOf cs).map fun (name, v) => (v, cs.drop name.length)

/-- The mark that a character is. -/
def mark? : Char → Option Token
  | '[' => some openList
  | ']' => some closeList
  | '\x7b' => some openMap
  | '\x7d' => some closeMap
  | ':' => some colon
  | ',' => some comma
  | _ => none

/-- The first word of a text that does not begin with a blank. -/
def readWord (c : Char) (cs : List Char) : Except Fault (Token × List Char) :=
  match mark? c, readName (c :: cs) with
  | some t, _ => .ok (t, cs)
  | none, some (v, rest) => .ok (scalar v, rest)
  | none, none =>
    if c = '"' then match readUnits cs with
      | some (units, rest) => .ok (scalar (.text (String.ofList (joinPairs units))), rest)
      | none => .error .malformed
    else if c = '-' then (readNumber true cs).map fun (v, rest) => (scalar v, rest)
    else (readNumber false (c :: cs)).map fun (v, rest) => (scalar v, rest)

/-- The words of a text of no more characters than the first argument says. -/
def readAll : Nat → List Char → Except Fault (List Token)
  | _, [] => .ok []
  | 0, _ :: _ => .error .malformed
  | n + 1, c :: cs =>
    if isBlank c then readAll n cs
    else do
      let (t, rest) ← readWord c cs
      return t :: (← readAll n rest)

def ofText (s : String) : Except Fault (List Token) := readAll s.toList.length s.toList

end Token

end Tablewright.Json
