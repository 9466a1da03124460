import Tablewright.Diagnostics.Failure
import Tablewright.Schema.ValueType

/-! Message templates: text with marks for arguments. A mark is a percent sign, flags, a
width, a precision and a letter that says how the argument is shown. -/

namespace Tablewright.Logging.Template

/-- How an argument is laid out. -/
structure Layout where
  left : Bool := false
  zeros : Bool := false
  plus : Bool := false
  space : Bool := false
  alternate : Bool := false
  width : Nat := 0
  precision : Option Nat := none
  deriving DecidableEq, Repr, Inhabited

/-- Flags in front of the width. -/
def readFlags : Layout → List Char → Layout × List Char
  | l, '-' :: cs => readFlags { l with left := true } cs
  | l, '0' :: cs => readFlags { l with zeros := true } cs
  | l, '+' :: cs => readFlags { l with plus := true } cs
  | l, ' ' :: cs => readFlags { l with space := true } cs
  | l, '#' :: cs => readFlags { l with alternate := true } cs
  | l, cs => (l, cs)

def readNumber (cs : List Char) : Nat × List Char :=
  (Text.ofDigits ((cs.takeWhile Char.isDigit).filterMap Text.asciiDigit?),
    cs.dropWhile Char.isDigit)

/-- Everything between the percent sign and the letter. -/
def readLayout (cs : List Char) : Layout × List Char :=
  let (l, cs) := readFlags {} cs
  let (width, cs) := readNumber cs
  let l := { l with width := width }
  match cs with
  | '.' :: cs =>
    let (precision, cs) := readNumber cs
    ({ l with precision := some precision }, cs)
  | cs => (l, cs)

/-- Fills a text up to the width. -/
def pad (l : Layout) (sign body : List Char) : List Char :=
  let missing := l.width - (sign.length + body.length)
  if l.left then sign ++ body ++ List.replicate missing ' '
  else if l.zeros then sign ++ List.replicate missing '0' ++ body
  else List.replicate missing ' ' ++ sign ++ body

/-- A text, cut to the precision. -/
def layText (l : Layout) (s : String) : List Char :=
  let cs := match l.precision with
    | some n => s.toList.take n
    | none => s.toList
  pad { l with zeros := false } [] cs

def signOf (l : Layout) (negative : Bool) : List Char :=
  if negative then ['-'] else if l.plus then ['+'] else if l.space then [' '] else []

/-- Digits, at least as many as the precision says. -/
def layDigits (l : Layout) (negative : Bool) (digits : List Char) : List Char :=
  let digits := List.replicate (l.precision.getD 0 - digits.length) '0' ++ digits
  pad l (signOf l negative) digits

def layInteger (l : Layout) (n : Int) : List Char :=
  layDigits l (n < 0) (Nat.toDigits 10 n.natAbs)

/-- A number with so many places behind the point; a half goes to the even neighbour. -/
def layFixed (l : Layout) (d : Decimal) : List Char :=
  let places := l.precision.getD 6
  let shift := d.exponent + places
  let scaled :=
    Binary.divNearest (d.coefficient * Nat.pow 10 shift.toNat) (Nat.pow 10 (-shift).toNat)
  let digits := Nat.toDigits 10 scaled
  let digits := List.replicate (places + 1 - digits.length) '0' ++ digits
  let whole := digits.take (digits.length - places)
  let body := if places = 0 then whole else whole ++ '.' :: digits.drop (digits.length - places)
  pad l (signOf l d.negative) body

/-- The integer that an argument counts as, where one is needed. -/
def integerOf : Value → Except Failure Int
  | .text _ => .error .unconvertible
  | v => ValueType.toInteger v

/-- The exact amount of the double that an argument counts as. -/
def amountOf (v : Value) : Except Failure Decimal :=
  match v with
  | .float x => match x.toDecimal? with
    | some d => .ok d
    | none => .error .unconvertible
  | .int n => .ok (((Binary.ofDecimal (.ofInt n)).toDecimal?).getD (.ofInt n))
  | .bool b => .ok (.ofNat b.toNat)
  | .decimal d => .ok (((Binary.ofDecimal d).toDecimal?).getD d)
  | _ => .error .unconvertible

/-- An argument as its letter says. -/
def lay (l : Layout) (letter : Char) (v : Value) : Except Failure (List Char) :=
  if letter = 's' then .ok (layText l v.display)
  else if letter = 'r' then .ok (layText l v.literal)
  else if letter = 'd' ∨ letter = 'i' ∨ letter = 'u' then (integerOf v).map (layInteger l)
  else if letter = 'f' ∨ letter = 'F' then (amountOf v).map (layFixed l)
  else .error .unknownName

/-- A text of no more characters than the first argument says, with the arguments laid out
in it. Every argument has to be used. -/
def fillFrom : Nat → List Char → List Value → Except Failure (List Char)
  | _, [], [] => .ok []
  | _, [], _ :: _ => .error .unconvertible
  | 0, _ :: _, _ => .error .unknownName
  | n + 1, c :: cs, args =>
    if c ≠ '%' then (fillFrom n cs args).map (c :: ·)
    else
      let (l, rest) := readLayout cs
      match rest, args with
      | [], _ => .error .unknownName
      | '%' :: rest, args => (fillFrom n rest args).map ('%' :: ·)
      | _ :: _, [] => .error .unconvertible
      | letter :: rest, v :: args => do
        let text ← lay l letter v
        return text ++ (← fillFrom n rest args)

/-- A template filled with arguments. Without any it is taken as it is. -/
def fill (template : String) (args : List Value) : Except Failure String :=
  if args.isEmpty then .ok template
  else (fillFrom template.length template.toList args).map String.ofList

end Tablewright.Logging.Template
