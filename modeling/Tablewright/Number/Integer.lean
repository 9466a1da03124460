import Tablewright.Text.Blank
import Tablewright.Text.Digit

/-! Integers as text: a sign and digits of any script, with single underscores between
digits to group them. -/

namespace Tablewright.Integer

/-- Longer digit strings are no integers. -/
def maxDigits : Nat := 4300

/-- The digits of a non-empty group after which another may follow an underscore. -/
def readGroups : List Char → Option (List Nat)
  | [] => none
  | [c] => (Text.digit? c).map ([·])
  | c :: '_' :: cs => (Text.digit? c).bind fun d => (readGroups cs).map (d :: ·)
  | c :: cs => (Text.digit? c).bind fun d => (readGroups cs).map (d :: ·)

def readSigned (cs : List Char) : Option Int :=
  let (negative, cs) := match cs with
    | '-' :: cs => (true, cs)
    | '+' :: cs => (false, cs)
    | cs => (false, cs)
  (readGroups cs).bind fun ds =>
    if maxDigits < ds.length then none
    else
      let n : Int := Text.ofDigits ds
      some (if negative then -n else n)

/-- The integer that a text spells, white space at its ends aside. -/
def ofText? (s : String) : Option Int := readSigned (Text.stripSpace s.toList)

/-- An integer's digits, with a minus in front of a negative one. -/
def toText (n : Int) : String :=
  String.ofList ((if n < 0 then ['-'] else []) ++ Nat.toDigits 10 n.natAbs)

end Tablewright.Integer
