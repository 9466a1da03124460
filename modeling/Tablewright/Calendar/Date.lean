import Tablewright.Text.Digit

/-! Days of the proleptic Gregorian calendar, years 1 to 9999. A date is a day that
exists. It is read from its calendar or its week form, with hyphens in every gap or in
none, and written in the calendar form. -/

namespace Tablewright

namespace Calendar

def isLeap (year : Nat) : Bool := year % 4 = 0 && (year % 100 != 0 || year % 400 = 0)

def daysInMonth (year month : Nat) : Nat :=
  if month = 2 then (if isLeap year then 29 else 28)
  else if month = 4 ∨ month = 6 ∨ month = 9 ∨ month = 11 then 30
  else 31

/-- Days of the calendar before the first day of a year. -/
def daysBeforeYear (year : Nat) : Nat :=
  (year - 1) * 365 + (year - 1) / 4 - (year - 1) / 100 + (year - 1) / 400

/-- Days of a year before the first day of a month. -/
def daysBeforeMonth (year : Nat) : Nat → Nat
  | 0 | 1 => 0
  | month + 2 => daysBeforeMonth year (month + 1) + daysInMonth year (month + 1)

/-- The number that `width` digits show, zeros in front. -/
def padded (width n : Nat) : List Char :=
  let ds := Nat.toDigits 10 n
  List.replicate (width - ds.length) '0' ++ ds

/-- As many ASCII digits as asked for, as one number, and what follows them. -/
def readDigits (count : Nat) (cs : List Char) : Option (Nat × List Char) :=
  (((cs.take count).mapM Text.asciiDigit?).filter (·.length = count)).map fun ds =>
    (Text.ofDigits ds, cs.drop count)

end Calendar

/-- A day that exists. -/
structure Date where
  year : Nat
  month : Nat
  day : Nat
  exists_ : (1 ≤ year ∧ year ≤ 9999) ∧ (1 ≤ month ∧ month ≤ 12) ∧
    1 ≤ day ∧ day ≤ Calendar.daysInMonth year month := by decide
  deriving DecidableEq, Repr

namespace Date
open Calendar

instance : Inhabited Date := ⟨{ year := 1, month := 1, day := 1 }⟩

def of? (year month day : Nat) : Option Date :=
  if h : (1 ≤ year ∧ year ≤ 9999) ∧ (1 ≤ month ∧ month ≤ 12) ∧
      1 ≤ day ∧ day ≤ daysInMonth year month then
    some ⟨year, month, day, h⟩
  else none

/-- The day's number, counted from 1 at the first day of year 1. -/
def ordinal (d : Date) : Nat := daysBeforeYear d.year + daysBeforeMonth d.year d.month + d.day

/-- Month and day for the `n`-th day of a year, counted from 0, searched from a month on. -/
def monthDay (year : Nat) : Nat → Nat → Nat → Nat × Nat
  | 0, month, n => (month, n + 1)
  | fuel + 1, month, n =>
    let days := daysInMonth year month
    if n < days then (month, n + 1) else monthDay year fuel (month + 1) (n - days)

/-- The day with a given number: whole cycles of 400, 100, 4 and 1 years are taken off,
of which the last of a cycle may be longer by a day. -/
def ofOrdinal? (ordinal : Nat) : Option Date :=
  let n := ordinal - 1
  let cycles := n / 146097
  let n := n % 146097
  let centuries := min 3 (n / 36524)
  let n := n - centuries * 36524
  let leaps := n / 1461
  let n := n % 1461
  let years := min 3 (n / 365)
  let n := n - years * 365
  let year := cycles * 400 + centuries * 100 + leaps * 4 + years + 1
  let (month, day) := monthDay year 11 1 n
  if ordinal = 0 then none else of? year month day

/-! ### Weeks -/

/-- The day of the week of the first day of a year, Monday being 0. -/
def firstWeekday (year : Nat) : Nat := daysBeforeYear year % 7

/-- A year has a week 53 iff it begins on a Thursday, or on a Wednesday and is leap. -/
def weeksInYear (year : Nat) : Nat :=
  if firstWeekday year = 3 ∨ (firstWeekday year = 2 ∧ isLeap year) then 53 else 52

/-- The day of a week of a year. Week 1 is the one that holds the year's first Thursday. -/
def ofWeek? (year week day : Nat) : Option Date :=
  if year = 0 ∨ week = 0 ∨ weeksInYear year < week ∨ day = 0 ∨ 7 < day then none
  else
    let shift := if 3 < firstWeekday year then 7 else 0
    ofOrdinal? (daysBeforeYear year + 1 + shift + (week - 1) * 7 + (day - 1) - firstWeekday year)

/-! ### Text -/

/-- `2024-01-02` -/
def toChars (d : Date) : List Char :=
  padded 4 d.year ++ ['-'] ++ padded 2 d.month ++ ['-'] ++ padded 2 d.day

def toText (d : Date) : String := String.ofList d.toChars

/-- A hyphen where the form has hyphens, nothing where it has none. -/
def readGap (hyphens : Bool) (cs : List Char) : Option (List Char) :=
  if hyphens then (match cs with | '-' :: rest => some rest | _ => none) else some cs

/-- What follows the year and its gap in a week form: the week, and the day unless the
text ends, in which case it is Monday. -/
def readWeek (year : Nat) (hyphens : Bool) (cs : List Char) : Option Date := do
  let (week, rest) ← readDigits 2 cs
  match rest with
  | [] => ofWeek? year week 1
  | rest =>
    let rest ← readGap hyphens rest
    let (day, _) ← readDigits 1 rest
    ofWeek? year week day

/-- A date at the front of a text. Whether the first gap has a hyphen decides about the
other one. What follows a complete date is not looked at. -/
def readFront (cs : List Char) : Option Date := do
  let (year, rest) ← readDigits 4 cs
  let hyphens := rest.head? == some '-'
  let rest ← readGap hyphens rest
  match rest with
  | 'W' :: rest => readWeek year hyphens rest
  | rest =>
    let (month, rest) ← readDigits 2 rest
    let rest ← readGap hyphens rest
    let (day, _) ← readDigits 2 rest
    of? year month day

/-- Length of a text in bytes. -/
def byteLength (cs : List Char) : Nat := cs.foldr (fun c n => c.utf8Size + n) 0

/-- The date that a text of 7, 8 or 10 bytes begins with: the lengths of the date forms.
A form without hyphens may thus be followed by two bytes that mean nothing. -/
def ofChars? (cs : List Char) : Option Date :=
  if [7, 8, 10].contains (byteLength cs) then readFront cs else none

def ofText? (s : String) : Option Date := ofChars? s.toList

end Date

end Tablewright
