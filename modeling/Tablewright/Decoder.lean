import Tablewright.Diagnostics.Problem
import Tablewright.Entries
import Tablewright.Value.Display

/-! Reading data against a declared shape. Every part of the data is read even if another
part is wrong, so all problems come out together, in the order in which the shape names
its parts. Text is understood as a number or a truth value where one is declared. -/

namespace Tablewright

/-- The outcome of reading: a result, or the problems that were found. -/
inductive Decoded (α : Type) where
  | accepted (a : α)
  | refused (problems : List Problem)
  deriving Repr

namespace Decoded

def map {α β : Type} (f : α → β) : Decoded α → Decoded β
  | accepted a => accepted (f a)
  | refused ps => refused ps

/-- Both sides are read; the problems of the first come first. -/
def apply {α β : Type} (f : Decoded (α → β)) (x : Unit → Decoded α) : Decoded β :=
  match f, x () with
  | accepted f, accepted a => accepted (f a)
  | accepted _, refused ps => refused ps
  | refused ps, accepted _ => refused ps
  | refused ps, refused qs => refused (ps ++ qs)

instance : Applicative Decoded where
  pure := accepted
  map := map
  seq := apply

def problem {α : Type} (kind : Problem.Kind) : Decoded α := refused [.here kind]

/-- A further condition on what was read. -/
def and {α : Type} (x : Decoded α) (holds : α → Bool) (kind : Problem.Kind) : Decoded α :=
  match x with
  | accepted a => if holds a then accepted a else problem kind
  | refused ps => refused ps

/-- Problems as seen from one level further out. -/
def within {α : Type} (part : PathPart) : Decoded α → Decoded α
  | accepted a => accepted a
  | refused ps => refused (ps.map (·.within part))

def toExcept {α : Type} : Decoded α → Except (List Problem) α
  | accepted a => .ok a
  | refused ps => .error ps

end Decoded

/-- A way to read a value as something. -/
abbrev Decoder (α : Type) := Value → Decoded α

namespace Decoder

/-- Null reads as absent. -/
def optional {α : Type} (d : Decoder α) : Decoder (Option α)
  | .null => .accepted none
  | v => (d v).map some

/-- Only a text is a text. -/
def text : Decoder String
  | .text s => .accepted s
  | _ => .problem .notText

/-- A text, or a number, which is taken by its digits. -/
def numberOrText : Decoder String
  | .text s => .accepted s
  | .int n => .accepted (Integer.toText n)
  | .float x => .accepted x.toText
  | .decimal d => .accepted d.toText
  | .nonFinite x => .accepted x.toText
  | _ => .problem .notText

def nonEmpty (d : Decoder String) : Decoder String := fun v => (d v).and (· != "") .tooShort

/-! ### Numbers -/

/-- Digits with single underscores between them. -/
def readGrouped : List Char → Option (List Nat)
  | [] => none
  | [c] => (Text.asciiDigit? c).map ([·])
  | c :: '_' :: cs => (Text.asciiDigit? c).bind fun d => (readGrouped cs).map (d :: ·)
  | c :: cs => (Text.asciiDigit? c).bind fun d => (readGrouped cs).map (d :: ·)

/-- Digits before a point behind which there are only zeros. -/
def wholePart? (cs : List Char) : Option (List Char) :=
  let whole := cs.takeWhile (· != '.')
  if (cs.drop (whole.length + 1)).all (· == '0') then some whole else none

/-- The integer that a text spells in ASCII, white space at its ends aside. -/
def integerText (s : String) : Decoded Int :=
  let cs := Text.stripSpace s.toList
  let (negative, digits) := Decimal.spanSign cs
  if Integer.maxDigits < cs.length then .problem .tooLong
  else match (wholePart? digits).bind readGrouped with
    | some ds => .accepted (Decimal.signed negative (Text.ofDigits ds))
    | none => .problem .integerText

/-- The integer that a number without a fraction is. -/
def integerAmount (d : Decimal) : Decoded Int :=
  if d.same (.ofInt d.truncate) then .accepted d.truncate else .problem .fraction

/-- The same for the exact value of a double, which has to be one of a signed word. -/
def binaryAmount (x : Binary) : Decoded Int :=
  match x.toDecimal? with
  | some d => (integerAmount d).and (fun n => n.natAbs < Nat.pow 2 63) .tooLong
  | none => .problem .notFinite

/-- An integer, a number whose double has no fraction, a truth value or a text of an
integer. -/
def integer : Decoder Int
  | .int n => .accepted n
  | .bool b => .accepted b.toNat
  | .text s => integerText s
  | .float x => binaryAmount x
  | .decimal d => binaryAmount (.ofDecimal d)
  | .nonFinite _ => .problem .notFinite
  | _ => .problem .notInteger

def atLeast (least : Int) (d : Decoder Int) : Decoder Int :=
  fun v => (d v).and (least ≤ ·) .notAtLeast

def above (bound : Int) (d : Decoder Int) : Decoder Int := fun v => (d v).and (bound < ·) .notAbove

/-- The words for yes and no. -/
def booleanWord? (s : String) : Option Bool :=
  let word := s.map Char.toLower
  if ["1", "t", "y", "true", "yes", "on"].contains word then some true
  else if ["0", "f", "n", "false", "no", "off"].contains word then some false
  else none

def booleanInteger (n : Int) : Decoded Bool :=
  if n = 0 then .accepted false
  else if n = 1 then .accepted true
  else .problem .booleanText

/-- A truth value, one of its words, or one or zero. -/
def boolean : Decoder Bool
  | .bool b => .accepted b
  | .text s => match booleanWord? s with
    | some b => .accepted b
    | none => .problem .booleanText
  | v => match integer v with
    | .accepted n => booleanInteger n
    | .refused _ => .problem .notBoolean

def decimalText (s : String) : Decoded Decimal :=
  match Decimal.ofText? s with
  | some d => .accepted d
  | none => .problem (if (NonFinite.ofText? s).isSome then .notFinite else .decimalText)

/-- An integer, a decimal or a text of one; a double is taken by its digits. -/
def decimal : Decoder Decimal
  | .int n => .accepted (.ofInt n)
  | .decimal d => .accepted d
  | .nonFinite _ => .problem .notFinite
  | .float x => decimalText x.toText
  | .text s => decimalText s
  | _ => .problem .notDecimal

/-! ### Names, lists and maps -/

/-- One of the values of a closed list, by its exact name. -/
def oneOf {α : Type} (all : List α) (name : α → String) : Decoder α
  | .text s => match all.find? (name · == s) with
    | some a => .accepted a
    | none => .problem .notListed
  | _ => .problem .notListed

/-- Every item is read; problems name its position. -/
def items {α : Type} (d : Decoder α) : Nat → List Value → Decoded (List α)
  | _, [] => .accepted []
  | i, v :: vs => List.cons <$> (d v).within (.index i) <*> items d (i + 1) vs

def list {α : Type} (d : Decoder α) : Decoder (List α)
  | .list vs => items d 0 vs
  | _ => .problem .notList

def entries {α : Type} (d : Decoder α) : List (String × Value) → Decoded (List (String × α))
  | [] => .accepted []
  | (k, v) :: es => (fun a rest => (k, a) :: rest) <$> (d v).within (.key k) <*> entries d es

def mapOf {α : Type} (d : Decoder α) : Decoder (List (String × α))
  | .map es => entries d es
  | _ => .problem .notMap

/-! ### Models -/

/-- The entries of a map, for a shape that names its parts. -/
def model {α : Type} (d : List (String × Value) → Decoded α) : Decoder α
  | .map es => d es
  | _ => .problem .notModel

/-- The first of the names of a part that has an entry, with the entry. -/
def entry? (names : List String) (es : List (String × Value)) : Option (String × Value) :=
  names.findSome? fun name => (Entries.get? name es).map (name, ·)

/-- A part that has to be there. Its absence is noted under its first name. -/
def required {α : Type} (es : List (String × Value)) (names : List String) (d : Decoder α) :
    Decoded α :=
  match entry? names es with
  | some (name, v) => (d v).within (.key name)
  | none => .refused [⟨[.key (names.headD "")], .missing⟩]

/-- A part that stands for `absent` where it is left out. -/
def part {α : Type} (es : List (String × Value)) (names : List String) (absent : α)
    (d : Decoder α) : Decoded α :=
  match entry? names es with
  | some (name, v) => (d v).within (.key name)
  | none => .accepted absent

end Decoder

end Tablewright
