import Tablewright.Number.Decimal

/-! Binary numbers of double precision, in exact integer arithmetic. A finite one is
`± significand * 2 ^ power` with a significand of at most 53 bits. Its text is the
shortest decimal that reads back as the same number, and of the shortest ones the
nearest. -/

namespace Tablewright

/-- A double: `finite` holds its sign, its significand and its power of two. -/
inductive Binary where
  | finite (negative : Bool) (significand : Nat) (power : Int)
  | infinite (negative : Bool)
  | notANumber
  deriving DecidableEq, Repr, Inhabited

namespace Binary

/-- Significands stay below `2 ^ precision`. -/
def precision : Nat := 53

def minPower : Int := -1074

def maxPower : Int := 971

/-- The nearest integer to `num / den`; a half goes to the even neighbour. -/
def divNearest (num den : Nat) : Nat :=
  let q := num / den
  match compare (2 * (num % den)) den with
  | .lt => q
  | .gt => q + 1
  | .eq => q + q % 2

/-- The double nearest to `num / den`: the significand is rounded at the power that
leaves it `precision` bits, or at `minPower` for numbers too small for that. -/
def ofRatio (negative : Bool) (num den : Nat) : Binary :=
  if num = 0 then .finite negative 0 minPower
  else
    let estimate : Int := (Nat.log2 num : Int) - Nat.log2 den - precision
    let power := max minPower estimate
    let scaled (p : Int) : Nat := divNearest (num * Nat.pow 2 (-p).toNat) (den * Nat.pow 2 p.toNat)
    let fits (p : Int) : Bool :=
      num * Nat.pow 2 (-p).toNat < Nat.pow 2 precision * (den * Nat.pow 2 p.toNat)
    let power := if fits power then power else power + 1
    let significand := scaled power
    let (significand, power) :=
      if significand = Nat.pow 2 precision then (Nat.pow 2 (precision - 1), power + 1)
      else (significand, power)
    if maxPower < power then .infinite negative else .finite negative significand power

/-- The double nearest to a decimal. Powers of ten far outside the range of doubles are
not worked out. -/
def ofDecimal (d : Decimal) : Binary :=
  if d.coefficient = 0 ∨ d.adjusted < -400 then .finite d.negative 0 minPower
  else if 400 < d.adjusted then .infinite d.negative
  else
    ofRatio d.negative (d.coefficient * Nat.pow 10 d.exponent.toNat)
      (Nat.pow 10 (-d.exponent).toNat)

/-- The exact value of a finite double: half a unit is five tenths of it. -/
def toDecimal? : Binary → Option Decimal
  | .finite negative m p =>
    if 0 ≤ p then some ⟨negative, m * Nat.pow 2 p.toNat, 0⟩
    else some ⟨negative, m * Nat.pow 5 (-p).toNat, p⟩
  | _ => none

/-! ### Shortest text -/

/-- A decimal grid: the multiples of `10 ^ step`, measured on a scale on which the number
is `value`, one step of the grid is `unit`, and the ends of the interval that rounds to the
number are `value - below` and `value + above`. -/
structure Grid where
  value : Nat
  unit : Nat
  below : Nat
  above : Nat
  closed : Bool

/-- The grid of step `10 ^ step` for the double `m * 2 ^ p`, in quarters of its last
bit. The gap below a power of two is half as wide. The ends belong to the interval iff
the significand is even. -/
def Grid.around (m : Nat) (p step : Int) : Grid :=
  let quarter := Nat.pow 2 (p - 2).toNat * Nat.pow 10 (-step).toNat
  { value := 4 * m * quarter
    unit := Nat.pow 2 (2 - p).toNat * Nat.pow 10 step.toNat
    below := (if m = Nat.pow 2 (precision - 1) ∧ minPower < p then 1 else 2) * quarter
    above := 2 * quarter
    closed := m % 2 = 0 }

/-- Whether the grid's multiple `n` rounds to the number. -/
def Grid.holds (g : Grid) (n : Nat) : Bool :=
  let x := n * g.unit
  if g.closed then g.value ≤ x + g.below && x ≤ g.value + g.above
  else g.value < x + g.below && x < g.value + g.above

/-- The multiple nearest to the number among its two neighbours that round to it. -/
def Grid.nearest? (g : Grid) : Option Nat :=
  let low := g.value / g.unit
  let high := low + 1
  match g.holds low, g.holds high with
  | false, false => none
  | true, false => some low
  | false, true => some high
  | true, true =>
    match compare (2 * (g.value % g.unit)) g.unit with
    | .lt => some low
    | .gt => some high
    | .eq => some (if low % 2 = 0 then low else high)

/-- The power of ten of the leading digit of `m * 2 ^ p`. -/
def leadingPower (m : Nat) (p : Int) : Int :=
  (Nat.toDigits 10 (m * Nat.pow 2 p.toNat * Nat.pow 10 400 / Nat.pow 2 (-p).toNat)).length - 401

/-- The first grid, from coarse to fine, with a multiple that rounds to the number. -/
def searchGrid (m : Nat) (p lead : Int) : Nat → Nat → Decimal
  | 0, _ => ⟨false, m, 0⟩
  | fuel + 1, n =>
    let step := lead - n
    match (Grid.around m p step).nearest? with
    | some k => ⟨false, k, step⟩
    | none => searchGrid m p lead fuel (n + 1)

/-- The shortest decimal that rounds to `m * 2 ^ p`. Seventeen digits always suffice. -/
def shortest (m : Nat) (p : Int) : Decimal :=
  if m = 0 then ⟨false, 0, 0⟩ else searchGrid m p (leadingPower m p) 18 0

/-- The coefficient without zeros at its end, which the exponent takes over. -/
def dropZeros : Nat → Decimal → Decimal
  | 0, d => d
  | fuel + 1, d =>
    if d.coefficient ≠ 0 ∧ d.coefficient % 10 = 0 then
      dropZeros fuel ⟨d.negative, d.coefficient / 10, d.exponent + 1⟩
    else d

/-- A power of ten has a sign and at least two digits. -/
def powerText (power : Int) : List Char :=
  (if power < 0 then '-' else '+') ::
    (if power.natAbs < 10 then ['0'] else []) ++ Nat.toDigits 10 power.natAbs

/-- Digits are positional while the leading power is from -4 to 15, and then have a
point; beyond that a power of ten follows them. -/
def layout (d : Decimal) : List Char :=
  let ds := d.digits
  let power := d.adjusted
  if -4 ≤ power ∧ power < 16 then
    if 0 ≤ d.exponent then ds ++ List.replicate d.exponent.toNat '0' ++ ['.', '0']
    else Decimal.plainText ds (power + 1)
  else ds.take 1 ++ (if ds.length ≤ 1 then [] else '.' :: ds.drop 1) ++ ['e'] ++ powerText power

/-- The text of a double: the shortest one that reads back. -/
def toText : Binary → String
  | .finite negative m p =>
    let d := dropZeros 20 (shortest m p)
    String.ofList (Decimal.signText negative ++ layout d)
  | .infinite negative => if negative then "-inf" else "inf"
  | .notANumber => "nan"

/-- The double that a text spells: a decimal, an infinity or the missing number. -/
def ofText? (s : String) : Option Binary :=
  match s with
  | "nan" => some .notANumber
  | "inf" => some (.infinite false)
  | "-inf" => some (.infinite true)
  | s => (Decimal.ofText? s).map ofDecimal

end Binary

end Tablewright
