import Tablewright.Calendar.Date

/-! Points in time: a date, a time of day, and the distance of the local clock from
universal time where it is known. Reading accepts one character of any kind between
date and time, and keeps six places of the fraction. -/

namespace Tablewright

open Calendar

structure TimeOfDay where
  hour : Nat
  minute : Nat
  second : Nat
  microsecond : Nat
  exists_ : hour < 24 ∧ minute < 60 ∧ second < 60 ∧ microsecond < 1000000 := by decide
  deriving DecidableEq, Repr

namespace TimeOfDay

def midnight : TimeOfDay := { hour := 0, minute := 0, second := 0, microsecond := 0 }

instance : Inhabited TimeOfDay := ⟨midnight⟩

def of? (hour minute second microsecond : Nat) : Option TimeOfDay :=
  if h : hour < 24 ∧ minute < 60 ∧ second < 60 ∧ microsecond < 1000000 then
    some ⟨hour, minute, second, microsecond, h⟩
  else none

/-- Microseconds since midnight. -/
def micros (t : TimeOfDay) : Nat :=
  ((t.hour * 60 + t.minute) * 60 + t.second) * 1000000 + t.microsecond

end TimeOfDay

/-- The distance of a local clock from universal time, less than a day either way. -/
structure Offset where
  micros : Int
  below_day : micros.natAbs < 86400000000 := by decide
  deriving DecidableEq, Repr

namespace Offset

def utc : Offset := { micros := 0 }

instance : Inhabited Offset := ⟨utc⟩

def of? (micros : Int) : Option Offset :=
  if h : micros.natAbs < 86400000000 then some ⟨micros, h⟩ else none

end Offset

/-- A point in time. Without an offset it is only known which the local clock showed. -/
structure Timestamp where
  date : Date
  time : TimeOfDay
  offset : Option Offset
  deriving DecidableEq, Repr, Inhabited

namespace Timestamp

/-- Microseconds of the local clock since the day before year 1. -/
def localMicros (t : Timestamp) : Int := t.date.ordinal * 86400000000 + t.time.micros

/-- Microseconds of universal time, where the offset is known. -/
def instant? (t : Timestamp) : Option Int := t.offset.map (t.localMicros - ·.micros)

/-- Equality as points in time: of two clocks with known offsets the moments count, of
two without the readings; one of each kind are never equal. -/
def same (a b : Timestamp) : Bool :=
  match a.instant?, b.instant? with
  | some x, some y => x == y
  | none, none => a.localMicros == b.localMicros
  | _, _ => false

/-- The moment so many microseconds after year 1 began, in universal time. -/
def ofMicros? (micros : Nat) : Option Timestamp := do
  let date ← Date.ofOrdinal? (micros / 86400000000)
  let rest := micros % 86400000000
  let seconds := rest / 1000000
  let time ← TimeOfDay.of? (seconds / 3600) (seconds / 60 % 60) (seconds % 60) (rest % 1000000)
  return ⟨date, time, some .utc⟩

/-- A point in time, its local clock moved on by whole seconds. -/
def addSeconds (t : Timestamp) (seconds : Nat) : Option Timestamp :=
  (ofMicros? (t.localMicros.toNat + seconds * 1000000)).map fun moved =>
    { moved with offset := t.offset }

/-! ### Writing -/

/-- A fraction of six places, nothing for zero. -/
def fractionChars (microsecond : Nat) : List Char :=
  if microsecond = 0 then [] else '.' :: padded 6 microsecond

/-- `03:04:05` and the fraction. -/
def timeChars (t : TimeOfDay) : List Char :=
  padded 2 t.hour ++ [':'] ++ padded 2 t.minute ++ [':'] ++ padded 2 t.second ++
    fractionChars t.microsecond

/-- `+05:30`, with seconds and a fraction only where they are not zero. -/
def offsetChars (o : Offset) : List Char :=
  let size := o.micros.natAbs
  let seconds := size / 1000000
  [if o.micros < 0 then '-' else '+'] ++ padded 2 (seconds / 3600) ++ [':'] ++
    padded 2 (seconds / 60 % 60) ++
    (if size % 60000000 = 0 then [] else
      [':'] ++ padded 2 (seconds % 60) ++ fractionChars (size % 1000000))

/-- Date and time with a separator between them, then the offset. -/
def toChars (separator : Char) (t : Timestamp) : List Char :=
  t.date.toChars ++ [separator] ++ timeChars t.time ++ (t.offset.map offsetChars).getD []

/-- `2024-01-02T03:04:05+00:00` -/
def toText (t : Timestamp) : String := String.ofList (t.toChars 'T')

/-- `2024-01-02 03:04:05+00:00` -/
def toSpacedText (t : Timestamp) : String := String.ofList (t.toChars ' ')

/-! ### Reading -/

/-- The character after which nothing of a text is read. -/
def endsText (rest : List Char) : Bool := rest.head?.all (· == '\x00')

/-- A clock reading as it is spelled: any two digits per part. `complete` tells whether
the reading ended with the text. -/
structure ClockText where
  parts : List Nat
  microsecond : Nat
  complete : Bool

def ClockText.part (c : ClockText) (i : Nat) : Nat := c.parts.getD i 0

/-- A fraction has at least one digit; what follows the sixth is cut off. A text of six
characters or more has to begin with six digits. -/
def readFraction (cs : List Char) : Option ClockText :=
  let ds := (cs.takeWhile fun c => (Text.asciiDigit? c).isSome).filterMap Text.asciiDigit?
  if ds.length < min 6 cs.length ∨ cs.isEmpty then none
  else
    let places := ds.take 6
    some {
      parts := []
      microsecond := Text.ofDigits places * Nat.pow 10 (6 - places.length)
      complete := endsText (cs.drop ds.length) }

/-- Up to three parts of two digits, then a fraction. The first gap decides whether the
parts are separated by colons. One last ASCII character after a part is let go. -/
def readParts : Nat → Option Bool → List Char → Option ClockText
  | 0, _, cs => readFraction cs
  | count + 1, colons, cs => do
    let (value, rest) ← readDigits 2 cs
    let clock ← match rest with
      | [] => some { parts := [], microsecond := 0, complete := true }
      | [c] =>
        if c.toNat < 128 then some { parts := [], microsecond := 0, complete := endsText rest }
        else none
      | c :: more =>
        let colons := colons.getD (c == ':')
        if colons && c == ':' then readParts count (some colons) more
        else if c == '.' || c == ',' then readFraction more
        else if colons then none
        else readParts count (some colons) rest
    return { clock with parts := value :: clock.parts }

def readClock (cs : List Char) : Option ClockText := readParts 3 none cs

def isZoneMark (c : Char) : Bool := c == '+' || c == '-' || c == 'Z'

/-- The offset of a clock reading. One of less than a second is none. -/
def offsetOf? (negative : Bool) (c : ClockText) : Option Offset :=
  let seconds := c.part 0 * 3600 + c.part 1 * 60 + c.part 2
  if seconds = 0 then some .utc
  else
    let size : Int := seconds * 1000000 + c.microsecond
    Offset.of? (if negative then -size else size)

/-- What follows the clock reading: a sign and an offset, or the letter of universal time. -/
def readZone : List Char → Option (Option Offset)
  | [] => some none
  | 'Z' :: rest => if endsText rest then some (some .utc) else none
  | sign :: rest =>
    (readClock rest).bind fun c =>
      if c.complete then (offsetOf? (sign == '-') c).map some else none

def readTime (cs : List Char) : Option (TimeOfDay × Option Offset) := do
  let clockChars := cs.takeWhile fun c => !isZoneMark c
  let zoneChars := cs.drop clockChars.length
  let clock ← readClock clockChars
  let zone ← readZone zoneChars
  if !clock.complete && zoneChars.isEmpty then none
  else
    let time ← TimeOfDay.of? (clock.part 0) (clock.part 1) (clock.part 2) clock.microsecond
    return (time, zone)

def isDigitAt (cs : List Char) (i : Nat) : Bool := (cs[i]?.bind Text.asciiDigit?).isSome

/-- How many characters belong to the date. A week form without a day can look like one
with a day; a digit after the next character, or an even number of digits after the week,
tells them apart. -/
def dateLength (cs : List Char) : Nat :=
  if cs.length = 7 then 7
  else if cs[4]? = some '-' then
    if cs[5]? = some 'W' then
      if cs[8]? = some '-' ∧ ¬ isDigitAt cs 10 then 10 else 8
    else 10
  else if cs[4]? = some 'W' then
    let digits := ((cs.drop 7).takeWhile fun c => (Text.asciiDigit? c).isSome).length
    if digits < 2 then 7 + digits
    else if digits % 2 = 1 then 7 else 8
  else 8

/-- The point in time that a text spells. A date alone is its midnight. -/
def ofChars? (cs : List Char) : Option Timestamp := do
  if cs.length < 7 then none
  let length := dateLength cs
  let date ← Date.readFront (cs.take length)
  match cs.drop length with
  | [] => return ⟨date, .midnight, none⟩
  | _ :: timeChars =>
    let (time, offset) ← readTime timeChars
    return ⟨date, time, offset⟩

def ofText? (s : String) : Option Timestamp := ofChars? s.toList

end Timestamp

end Tablewright
