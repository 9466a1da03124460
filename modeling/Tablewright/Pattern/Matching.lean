import Tablewright.Pattern.Basic

/-! Matching. A part of a pattern tries its ways to match one after the other, in the order
in which it prefers them, and each of them together with all that comes behind the part. The
first one that leads to the end decides what the groups hold. -/

namespace Tablewright.Pattern

/-- A position in the text, and where each group last began and ended before it. -/
structure Place where
  position : Nat := 0
  begun : Nat → Option Nat := fun _ => none
  ended : Nat → Option Nat := fun _ => none

namespace Place

def skip (p : Place) (count : Nat) : Place := { p with position := p.position + count }

def begin (p : Place) (index : Nat) : Place :=
  { p with begun := fun i => if i = index then some p.position else p.begun i }

def finish (p : Place) (index : Nat) : Place :=
  { p with ended := fun i => if i = index then some p.position else p.ended i }

/-- The ends of what a group has matched. While the group is matched once more, its last end
lies before its beginning. -/
def group? (p : Place) (index : Nat) : Option (Nat × Nat) := do
  let first ← p.begun index
  let last ← p.ended index
  if first ≤ last then some (first, last) else none

end Place

/-- What is left to match from a place on: where that ends, if it matches. -/
abbrev Rest := Place → Option Place

/-- A part of a pattern, given what comes behind it. -/
abbrev Part := Rest → Rest

namespace Part

/-- The part, a number of times. -/
def times (part : Part) : Nat → Part
  | 0, rest, p => rest p
  | n + 1, rest, p => part (times part n rest) p

/-- The part, up to a number of times more. A round that ends where it began, at `last`, is
the last one. -/
def upTo (part : Part) (eager : Bool) : Nat → Option Nat → Part
  | 0, _, rest, p => rest p
  | n + 1, last, rest, p =>
    let more := fun _ =>
      if last = some p.position then none else part (upTo part eager n (some p.position) rest) p
    if eager then (more ()).orElse fun _ => rest p else (rest p).orElse more

/-- The part, a number of times, each time in the first way that matches by itself. -/
def timesAlone (part : Part) : Nat → Rest
  | 0, p => some p
  | n + 1, p => (part some p).bind (timesAlone part n)

/-- The part in the same way, as often as it matches but no more than a number of times. -/
def upToAlone (part : Part) : Nat → Option Nat → Place → Place
  | 0, _, p => p
  | n + 1, last, p =>
    if last = some p.position then p
    else match part some p with
      | some q => upToAlone part n (some p.position) q
      | none => p

end Part

def Anchor.holds (text : Array Char) (i : Nat) : Anchor → Bool
  | textStart => i == 0
  | lineStart => i == 0 || text[i - 1]? == some '\n'
  | textEnd => i == text.size
  | lastLineEnd => i == text.size || (i + 1 == text.size && text[i]? == some '\n')
  | lineEnd => i == text.size || text[i]? == some '\n'
  | boundary a negated =>
    -- an empty text has neither a boundary nor a position that is none
    let before := i != 0 && text[i - 1]?.any a.isWord
    let after := text[i]?.any a.isWord
    !text.isEmpty && (before != after) != negated

/-- Whether the `count` characters from `i` on are those from `first` on once more. -/
def repeats (text : Array Char) (a : Alphabet) (first i count : Nat) : Bool :=
  (text.extract first (first + count)).map a.fold == (text.extract i (i + count)).map a.fold

/-- The part that a pattern is. Rounds of a repetition move on, but for the last, so there
are no more of them than positions. -/
def run (text : Array Char) : Pattern → Part
  | empty, rest, p => rest p
  | oneOf a negated members, rest, p =>
    if text[p.position]?.any fun c => members.any (·.holds a c) != negated then rest (p.skip 1)
    else none
  | seq first second, rest, p => first.run text (second.run text rest) p
  | either left right, rest, p => (left.run text rest p).orElse fun _ => right.run text rest p
  | repeated body least greatest style, rest, p =>
    let part := body.run text
    let more := match greatest with
      | some n => n - least
      | none => text.size + 2
    match style with
    | .greedy => Part.times part least (Part.upTo part true more none rest) p
    | .reluctant => Part.times part least (Part.upTo part false more none rest) p
    | .possessive =>
      (Part.timesAlone part least p).bind fun q => rest (Part.upToAlone part more none q)
  | anchor condition, rest, p => if condition.holds text p.position then rest p else none
  | group index body, rest, p => body.run text (fun q => rest (q.finish index)) (p.begin index)
  | same a index, rest, p => do
    let (first, last) ← p.group? index
    if repeats text a first p.position (last - first) then rest (p.skip (last - first)) else none
  | ifMatched index yes no, rest, p =>
    if (p.group? index).isSome then yes.run text rest p else no.run text rest p
  | look back negated body, rest, p =>
    let found := if p.position < back then none
      else body.run text some { p with position := p.position - back }
    if negated then (if found.isSome then none else rest p)
    else found.bind fun q => rest { q with position := p.position }
  | atomic body, rest, p => (body.run text some p).bind rest

/-- Whether the whole text matches. -/
def accepts (pattern : Pattern) (s : String) : Bool :=
  let text := s.toList.toArray
  (pattern.run text (fun p => if p.position = text.size then some p else none) {}).isSome

end Tablewright.Pattern
