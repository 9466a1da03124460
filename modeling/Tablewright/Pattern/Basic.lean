import Tablewright.Text.Blank
import Tablewright.Text.Case
import Tablewright.Text.Digit
import Tablewright.Text.Word

/-! Patterns as they are once they are read: what applies to the whole of a pattern, such as
whether case counts, stands in its parts. -/

namespace Tablewright

namespace Pattern

/-- Which characters are letters, digits and white space, and whether their case counts. -/
structure Alphabet where
  ascii : Bool
  caseless : Bool
  deriving DecidableEq, Repr, Inhabited

namespace Alphabet

def isDigit (a : Alphabet) (c : Char) : Bool :=
  if a.ascii then c.isDigit else (Text.digit? c).isSome

def isBlank (a : Alphabet) (c : Char) : Bool :=
  if a.ascii then Text.isAsciiBlank c else Text.isBlank c

def isWord (a : Alphabet) (c : Char) : Bool :=
  if a.ascii then c.isAlphanum || c == '_' else Text.isWord c

/-- What two characters have in common if they are the same but for their case. -/
def fold (a : Alphabet) (c : Char) : Nat :=
  if !a.caseless then c.toNat
  else if a.ascii then Text.asciiLower c.toNat
  else Text.lower c.toNat

/-- The characters any of which a pattern may name for `c` to match. Unlike `fold`, it knows
that a capital can have two small letters. -/
def variants (a : Alphabet) (c : Char) : List Nat :=
  if !a.caseless then [c.toNat]
  else if a.ascii then Text.asciiCaseVariants c.toNat
  else Text.caseVariants c.toNat

end Alphabet

/-- The kinds of characters that have a letter of their own. -/
inductive Category where
  | digit
  | blank
  | word
  deriving DecidableEq, Repr, Inhabited

def Category.holds (a : Alphabet) (c : Char) : Category → Bool
  | digit => a.isDigit c
  | blank => a.isBlank c
  | word => a.isWord c

/-- One part of a character class. Its characters are code points, since a pattern may also
name those of no character. -/
inductive Member where
  | single (point : Nat)
  | range (first last : Nat)
  | category (kind : Category) (negated : Bool)
  deriving DecidableEq, Repr, Inhabited

def Member.holds (a : Alphabet) (c : Char) : Member → Bool
  | single point => (a.variants c).contains point
  | range first last => (a.variants c).any fun n => first ≤ n && n ≤ last
  | category kind negated => kind.holds a c != negated

/-- Conditions on a position. -/
inductive Anchor where
  | textStart
  | lineStart
  | textEnd
  /-- The end of the text, or before a line break that ends it. -/
  | lastLineEnd
  | lineEnd
  /-- Where a word begins or ends. -/
  | boundary (alphabet : Alphabet) (negated : Bool)
  deriving DecidableEq, Repr, Inhabited

/-- How many rounds a repetition tries first. A possessive one never takes a round back. -/
inductive Style where
  | greedy
  | reluctant
  | possessive
  deriving DecidableEq, Repr, Inhabited

end Pattern

inductive Pattern where
  | empty
  /-- A character of a class. -/
  | oneOf (alphabet : Pattern.Alphabet) (negated : Bool) (members : List Pattern.Member)
  | seq (first second : Pattern)
  | either (left right : Pattern)
  /-- Without a greatest number, as often as may be. -/
  | repeated (body : Pattern) (least : Nat) (greatest : Option Nat) (style : Pattern.Style)
  | anchor (condition : Pattern.Anchor)
  /-- A numbered group, whose text can be asked for again. -/
  | group (index : Nat) (body : Pattern)
  /-- The text that a group has matched. -/
  | same (alphabet : Pattern.Alphabet) (index : Nat)
  | ifMatched (index : Nat) (yes no : Pattern)
  /-- A look at what follows, or at what follows the position `back` characters before. -/
  | look (back : Nat) (negated : Bool) (body : Pattern)
  /-- The first way to match the body, and no other. -/
  | atomic (body : Pattern)
  deriving DecidableEq, Repr, Inhabited

namespace Pattern

/-- The least and the greatest number of characters that a pattern can match. -/
structure Width where
  least : Nat
  greatest : Option Nat
  deriving DecidableEq, Repr, Inhabited

namespace Width

def exactly (n : Nat) : Width := ⟨n, some n⟩

def add (v w : Width) : Width :=
  ⟨v.least + w.least, v.greatest.bind fun m => w.greatest.map (m + ·)⟩

def join (v w : Width) : Width :=
  ⟨min v.least w.least, v.greatest.bind fun m => w.greatest.map (max m ·)⟩

/-- Nothing, repeated without bound or with one, remains nothing. -/
def times (w : Width) (least : Nat) (greatest : Option Nat) : Width :=
  ⟨w.least * least,
    if w.greatest = some 0 ∨ greatest = some 0 then some 0
    else w.greatest.bind fun m => greatest.map (m * ·)⟩

end Width

/-- The width of a pattern, given those of the groups that it refers to. -/
def width (groups : Nat → Width) : Pattern → Width
  | empty => .exactly 0
  | oneOf .. => .exactly 1
  | seq first second => (first.width groups).add (second.width groups)
  | either left right => (left.width groups).join (right.width groups)
  | repeated body least greatest _ => (body.width groups).times least greatest
  | anchor _ => .exactly 0
  | group _ body => body.width groups
  | same _ index => groups index
  | ifMatched _ yes no => (yes.width groups).join (no.width groups)
  | look .. => .exactly 0
  | atomic body => body.width groups

end Pattern

end Tablewright
