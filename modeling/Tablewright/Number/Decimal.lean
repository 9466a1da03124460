import Tablewright.Text.Blank
import Tablewright.Text.Digit

/-! Decimal numbers that keep their form. A decimal is a sign, a coefficient and a
power of ten; `1.5`, `1.50` and `-0` are different decimals, of which the first two
are equal as numbers. Reading never rounds, and `ofText?` reads back exactly what
`toText` writes. -/

namespace Tablewright

/-- The number `± coefficient * 10 ^ exponent`. -/
structure Decimal where
  negative : Bool
  coefficient : Nat
  exponent : Int
  deriving DecidableEq, Repr, Inhabited

namespace Decimal

def ofNat (n : Nat) : Decimal := ⟨false, n, 0⟩

def ofInt (n : Int) : Decimal := ⟨decide (n < 0), n.natAbs, 0⟩

/-- The coefficient's digits; zero has one. -/
def digits (d : Decimal) : List Char := Nat.toDigits 10 d.coefficient

/-- The power of ten of the leading digit. -/
def adjusted (d : Decimal) : Int := d.exponent + d.digits.length - 1

/-- Numbers whose leading power is beyond this bound cannot be written. -/
def maxAdjusted : Int := 999999999999999999

/-- The least power of ten that a last digit can stand for. -/
def minExponent : Int := -1999999999999999997

def inRange (d : Decimal) : Bool := minExponent ≤ d.exponent && d.adjusted ≤ maxAdjusted

/-! ### Writing -/

def signText (negative : Bool) : List Char := if negative then ['-'] else []

/-- A signed number, the plus included. -/
def signedText (n : Int) : List Char :=
  (if n < 0 then '-' else '+') :: Nat.toDigits 10 n.natAbs

/-- The digits with the point after the first `point` of them; zeros fill a point
in front of the first digit. -/
def plainText (ds : List Char) (point : Int) : List Char :=
  if point ≤ 0 then ['0', '.'] ++ List.replicate (-point).toNat '0' ++ ds
  else if ds.length ≤ point.toNat then ds
  else ds.take point.toNat ++ ['.'] ++ ds.drop point.toNat

/-- One digit before the point and the leading digit's power after an `E`. -/
def scientificText (ds : List Char) (power : Int) : List Char :=
  ds.take 1 ++ (if ds.length ≤ 1 then [] else '.' :: ds.drop 1) ++ ['E'] ++ signedText power

/-- Digits stand in their places unless zeros would have to be invented behind them,
or more than five between the point and the first of them. -/
def toChars (d : Decimal) : List Char :=
  signText d.negative ++
    if d.exponent ≤ 0 ∧ -6 ≤ d.adjusted then plainText d.digits (d.adjusted + 1)
    else scientificText d.digits d.adjusted

def toText (d : Decimal) : String := String.ofList d.toChars

/-! ### Reading -/

/-- Digits of any script as ASCII; underscores stand for nothing. -/
def foldDigits : List Char → Option (List Char)
  | [] => some []
  | c :: cs =>
    if c = '_' then foldDigits cs
    else if c.toNat < 128 then (foldDigits cs).map (c :: ·)
    else (Text.digit? c).bind fun d => (foldDigits cs).map (Nat.digitChar d :: ·)

/-- The digits at the front, and what follows them. -/
def spanDigits : List Char → List Nat × List Char
  | [] => ([], [])
  | c :: cs =>
    match Text.asciiDigit? c with
    | some d => let (ds, rest) := spanDigits cs; (d :: ds, rest)
    | none => ([], c :: cs)

/-- A sign, if there is one: whether it is a minus, and what follows. -/
def spanSign : List Char → Bool × List Char
  | '-' :: cs => (true, cs)
  | '+' :: cs => (false, cs)
  | cs => (false, cs)

/-- The power of ten after the digits: nothing, or `e` with a signed number. -/
def readPower : List Char → Option Int
  | [] => some 0
  | c :: cs =>
    if c = 'e' ∨ c = 'E' then
      let (negative, cs) := spanSign cs
      match spanDigits cs with
      | (d :: ds, []) =>
        let n := Text.ofDigits (d :: ds)
        some (if negative then -(n : Int) else n)
      | _ => none
    else none

/-- Digits with at most one point among them and at least one digit, then a power. -/
def readUnsigned (cs : List Char) : Option (Nat × Int) :=
  let (whole, rest) := spanDigits cs
  let (fraction, rest) := match rest with
    | '.' :: cs => spanDigits cs
    | cs => ([], cs)
  if whole.isEmpty && fraction.isEmpty then none
  else (readPower rest).map fun power =>
    (Text.ofDigits (whole ++ fraction), power - fraction.length)

def readFolded (cs : List Char) : Option Decimal :=
  let (negative, cs) := spanSign cs
  (readUnsigned cs).bind fun (coefficient, exponent) =>
    let d : Decimal := ⟨negative, coefficient, exponent⟩
    if d.inRange then some d else none

/-- The decimal that a text spells, white space at its ends aside. -/
def ofChars? (cs : List Char) : Option Decimal := (foldDigits (Text.trim cs)).bind readFolded

def ofText? (s : String) : Option Decimal := ofChars? s.toList

/-! ### Order of magnitude and value -/

/-- Order of two magnitudes: first by the leading digit's power, so that powers far
apart need no common unit. -/
def compareMagnitude (a b : Decimal) : Ordering :=
  if a.coefficient = 0 ∨ b.coefficient = 0 then compare a.coefficient b.coefficient
  else match compare a.adjusted b.adjusted with
    | .eq =>
      compare (a.coefficient * Nat.pow 10 (a.exponent - b.exponent).toNat)
        (b.coefficient * Nat.pow 10 (b.exponent - a.exponent).toNat)
    | order => order

/-- Order of two decimals as numbers. -/
def order (a b : Decimal) : Ordering :=
  match a.negative && a.coefficient != 0, b.negative && b.coefficient != 0 with
  | false, false => compareMagnitude a b
  | true, true => compareMagnitude b a
  | true, false => .lt
  | false, true => .gt

/-- Equality as numbers: `1.5` and `1.50` are the same. -/
def same (a b : Decimal) : Bool := a.order b == .eq

def less (a b : Decimal) : Bool := a.order b == .lt

/-! ### Integers -/

def signed (negative : Bool) (n : Nat) : Int := if negative then -(n : Int) else n

/-- The integer part: the fraction is cut off. -/
def truncate (d : Decimal) : Int :=
  signed d.negative <|
    if 0 ≤ d.exponent then d.coefficient * Nat.pow 10 d.exponent.toNat
    else if (d.digits.length : Int) + d.exponent ≤ 0 then 0
    else d.coefficient / Nat.pow 10 (-d.exponent).toNat

/-- The nearest integer; a half goes away from zero. -/
def nearest (d : Decimal) : Int :=
  signed d.negative <|
    if 0 ≤ d.exponent then d.coefficient * Nat.pow 10 d.exponent.toNat
    else if (d.digits.length : Int) + d.exponent < 0 then 0
    else
      let unit := Nat.pow 10 (-d.exponent).toNat
      (2 * d.coefficient + unit) / (2 * unit)

/-- How many digits a rounded number may have. -/
def roundedDigits : Nat := 28

/-- The nearest integer, if it has no more digits than a rounded number may have. -/
def nearest? (d : Decimal) : Option Int :=
  if d.coefficient = 0 then some 0
  else if (roundedDigits : Int) < d.digits.length + d.exponent then none
  else if Nat.pow 10 roundedDigits ≤ d.nearest.natAbs then none
  else some d.nearest

end Decimal

end Tablewright
