import Tablewright.Diagnostics.Failure
import Tablewright.Number.Integer
import Tablewright.Pattern.Basic
import Tablewright.Text.Identifier

/-! Reading patterns. The reader goes from left to right once; what it knows of the groups
and marks that it has met decides how it reads what follows. Some faults are not held against
a pattern before it is read to its end. -/

namespace Tablewright.Pattern

/-- A character, or a backslash and the character that it takes with it. -/
inductive Token where
  | plain (c : Char)
  | escaped (c : Char)
  /-- A backslash at the end. -/
  | dangling
  deriving DecidableEq, Repr, Inhabited

def tokens : List Char → List Token
  | [] => []
  | ['\\'] => [.dangling]
  | '\\' :: c :: cs => .escaped c :: tokens cs
  | c :: cs => .plain c :: tokens cs

def Token.plain? : Token → Option Char
  | plain c => some c
  | _ => none

/-- Marks for the whole of a pattern or for a part of it. -/
inductive Flag where
  | ascii
  | unicode
  | caseless
  | multiline
  | dotAll
  | verbose
  /-- Lets nothing be repeated. -/
  | template
  deriving DecidableEq, Repr, Inhabited

namespace Flag

def ofChar? : Char → Option Flag
  | 'a' => some ascii
  | 'u' => some unicode
  | 'i' => some caseless
  | 'm' => some multiline
  | 's' => some dotAll
  | 'x' => some verbose
  | 't' => some template
  | _ => none

/-- The flags that choose an alphabet, of which the last one counts. -/
def isAlphabet (f : Flag) : Bool := f = ascii || f = unicode

/-- The flags in a part that turns some on and some off. -/
def change (flags on off : List Flag) : List Flag :=
  let kept := if on.any isAlphabet then flags.filter (!·.isAlphabet) else flags
  (kept ++ on).filter (!off.contains ·)

end Flag

/-- What is known of a pattern while it is read. -/
structure Reading where
  rest : List Token := []
  flags : List Flag := []
  /-- The widths of the groups that were opened, the whole pattern's first. One that is still
  open has none. -/
  groups : List (Option Width) := [none]
  names : List (String × Nat) := []
  /-- Within a look behind, the number of groups that were opened before it. -/
  behind : Option Nat := none
  /-- The greatest number of a group that a condition has asked about. -/
  asked : Nat := 0
  /-- Whether a fault was met that counts at the end. -/
  faulty : Bool := false

abbrev Reader := StateT Reading (Except Failure)

namespace Reader

def refuse {α : Type} : Reader α := throw .badPattern

def check (ok : Bool) : Reader Unit := if ok then return else refuse

/-- Remembers a fault that is not held against the pattern before its end. -/
def fault : Reader Unit := modify fun r => { r with faulty := true }

/-- Goes on with what is left. A backslash at the end is refused as soon as it is next. -/
def proceed (rest : List Token) : Reader Unit := do
  check (rest.head? != some .dangling)
  modify fun r => { r with rest }

def take : Reader (Option Token) := do
  let rest := (← get).rest
  proceed rest.tail
  return rest.head?

/-- Takes a character, if it is next. -/
def follows (c : Char) : Reader Bool := do
  if (← get).rest.head? = some (.plain c) then
    discard take
    return true
  else return false

def expect (c : Char) : Reader Unit := do check (← follows c)

/-- Takes characters of a kind, at most a number of them. -/
def takeWhile (p : Char → Bool) (most : Nat) : Reader (List Char) := do
  let rest := (← get).rest
  let run := (rest.take most).takeWhile fun t => t.plain?.any p
  proceed (rest.drop run.length)
  return run.filterMap Token.plain?

def takeAll (p : Char → Bool) : Reader (List Char) := do takeWhile p (← get).rest.length

/-- Drops what stands before a character. -/
def skipTo (c : Char) : Reader Unit := do
  proceed ((← get).rest.dropWhile fun t => t != .plain c && t != .dangling)

/-- A name that is not empty, and the mark that ends it. -/
def takeName (mark : Char) : Reader (List Char) := do
  let name ← takeAll (· != mark)
  expect mark
  check !name.isEmpty
  return name

def hasFlag (f : Flag) : Reader Bool := return (← get).flags.contains f

def alphabet : Reader Alphabet := return ⟨← hasFlag .ascii, ← hasFlag .caseless⟩

def oneOf (members : List Member) : Reader Pattern := return .oneOf (← alphabet) false members

def literal (c : Char) : Reader Pattern := oneOf [.single c.toNat]

/-! ### Escapes -/

/-- A character by its code, of exactly a number of hexadecimal digits. -/
def takeHex (count : Nat) : Reader Nat := do
  let ds := (← takeWhile (Text.hexDigit? · |>.isSome) count).filterMap Text.hexDigit?
  check (ds.length == count)
  return ds.foldl (16 * · + ·) 0

def isOctal (c : Char) : Bool := '0' ≤ c && c ≤ '7'

/-- A character by its code in octal digits, of which there are three at most. -/
def octal (cs : List Char) : Reader Nat := do
  let n := (cs.filterMap Text.asciiDigit?).foldl (8 * · + ·) 0
  check (n ≤ 0o377)
  return n

def ofDecimal (cs : List Char) : Nat := Text.ofDigits (cs.filterMap Text.asciiDigit?)

/-- The class that a backslash and a letter stand for. -/
def category? : Char → Option Member
  | 'd' => some (.category .digit false)
  | 'D' => some (.category .digit true)
  | 's' => some (.category .blank false)
  | 'S' => some (.category .blank true)
  | 'w' => some (.category .word false)
  | 'W' => some (.category .word true)
  | _ => none

/-- The condition that a backslash and a letter stand for outside of classes. -/
def anchor? (a : Alphabet) : Char → Option Anchor
  | 'A' => some .textStart
  | 'Z' => some .textEnd
  | 'b' => some (.boundary a false)
  | 'B' => some (.boundary a true)
  | _ => none

/-- The character that a backslash and a character stand for, in a class or outside of one.
Characters are not known by their Unicode names. -/
def readPoint (c : Char) : Reader Nat :=
  match c with
  | 'a' => return 7
  | 'f' => return 12
  | 'n' => return 10
  | 'r' => return 13
  | 't' => return 9
  | 'v' => return 11
  | 'x' => takeHex 2
  | 'u' => takeHex 4
  | 'U' => do
    let n ← takeHex 8
    check (n ≤ 0x10FFFF)
    return n
  | c => do
    check !c.isAlphanum
    return c.toNat

/-- A group that may be referred to: it was closed, and within a look behind it was opened
before that. -/
def checkClosed (index : Nat) : Reader Unit := do
  let r ← get
  check ((r.groups[index]?.join).isSome && r.behind.all (index < ·))

def reference (index : Nat) : Reader Pattern := do
  checkClosed index
  return .same (← alphabet) index

/-- A character by an octal number or the text of a group by its number, which begins with
the digit `c`. Three octal digits, or a zero first, make a character. -/
def readNumbered (c : Char) : Reader Pattern := do
  if c = '0' then oneOf [.single (← octal (← takeWhile isOctal 2))]
  else
    let second ← takeWhile Char.isDigit 1
    let bothOctal := !second.isEmpty && (c :: second).all isOctal
    let third ← if bothOctal then takeWhile isOctal 1 else pure []
    if third.isEmpty then reference (ofDecimal (c :: second))
    else oneOf [.single (← octal (c :: second ++ third))]

def readEscape (c : Char) : Reader Pattern := do
  if let some m := category? c then oneOf [m]
  else if let some condition := anchor? (← alphabet) c then return .anchor condition
  else if c.isDigit then readNumbered c
  else oneOf [.single (← readPoint c)]

/-! ### Classes -/

def readMember : Option Token → Reader Member
  | some (.plain c) => return .single c.toNat
  | some (.escaped c) => do
    if let some m := category? c then return m
    else if c = 'b' then return .single 8
    else if isOctal c then return .single (← octal (c :: (← takeWhile isOctal 2)))
    else return .single (← readPoint c)
  | _ => refuse

/-- The members of a class up to its closing bracket, which is a member if it comes first. -/
def readMembers : Nat → List Member → Reader (List Member)
  | 0, _ => refuse
  | fuel + 1, members => do
    let t ← take
    if t = some (.plain ']') ∧ !members.isEmpty then return members
    let member ← readMember t
    if ← follows '-' then
      let t ← take
      if t = some (.plain ']') then return .single '-'.toNat :: member :: members
      match member, ← readMember t with
      | .single first, .single last => do
        check (first ≤ last)
        readMembers fuel (.range first last :: members)
      | _, _ => refuse
    else readMembers fuel (member :: members)

def readClass : Reader Pattern := do
  let negated ← follows '^'
  let members ← readMembers (← get).rest.length []
  return .oneOf (← alphabet) negated members

/-! ### Repetitions -/

/-- Numbers of rounds are below this one. -/
def boundless : Nat := 4294967295

def readRounds (digits : List Char) : Reader Nat :=
  match Integer.ofText? (String.ofList digits) with
  | none => throw .missingNumber
  | some n => if boundless ≤ n then throw .infinite else return n.toNat

/-- The least and the greatest number of rounds between braces, or nothing if the brace stands
for itself. -/
def readBounds : Reader (Option (Nat × Option Nat)) := do
  let start := (← get).rest
  let least ← takeAll Char.isDigit
  let comma ← follows ','
  let greatest ← if comma then takeAll Char.isDigit else pure least
  if (least.isEmpty && !comma) || !(← follows '\x7d') then
    proceed start
    return none
  let lowest ← if least.isEmpty then pure 0 else readRounds least
  if greatest.isEmpty then return some (lowest, none)
  let highest ← readRounds greatest
  check (lowest ≤ highest)
  return some (lowest, some highest)

def readStyle : Reader Style := do
  if ← follows '?' then return .reluctant
  if ← follows '+' then return .possessive
  return .greedy

/-- Conditions are not repeated, and repetitions only within a group. What a group holds is a
sequence or a choice. -/
def isRepeatable : Pattern → Bool
  | .anchor _ | .repeated .. => false
  | _ => true

/-- The items with the last one, which stands first, repeated. -/
def repeatLast (least : Nat) (greatest : Option Nat) : List Pattern → Reader (List Pattern)
  | [] => refuse
  | item :: items => do
    check (isRepeatable item)
    let style ← readStyle
    if ← hasFlag .template then fault
    return .repeated item least greatest style :: items

/-! ### Groups -/

/-- A part that has flags of its own. -/
def within (flags : List Flag) (inner : Reader Pattern) : Reader Pattern := do
  let outer := (← get).flags
  modify fun r => { r with flags }
  let p ← inner
  expect ')'
  modify fun r => { r with flags := outer }
  return p

def inParentheses (inner : Reader Pattern) : Reader Pattern := do
  within (← get).flags inner

/-- Widths of the groups that were closed. -/
def widths : Reader (Nat → Width) := do
  let groups := (← get).groups
  return fun i => (groups[i]?.join).getD (.exactly 0)

def readCapture (name : Option String) (inner : Reader Pattern) : Reader Pattern := do
  let r ← get
  let index := r.groups.length
  check (name.all fun name => (r.names.lookup name).isNone)
  set { r with
    groups := r.groups ++ [none]
    names := r.names ++ name.toList.map (·, index) }
  let body ← inParentheses inner
  let width := body.width (← widths)
  modify fun r => { r with groups := r.groups.set index (some width) }
  return .group index body

def takeIdentifier (mark : Char) : Reader String := do
  let name ← takeName mark
  check (Text.isIdentifier name)
  return String.ofList name

def groupNamed (name : String) : Reader Nat := do
  match (← get).names.lookup name with
  | some index => return index
  | none => refuse

/-- Numbers of groups are below this one. -/
def maxGroups : Nat := 1073741823

/-- The group that a condition asks about, by its name or its number, which may be that of a
group that comes later. -/
def readCondition : Reader Nat := do
  let name ← takeName ')'
  let index ←
    if Text.isIdentifier name then groupNamed (String.ofList name)
    else match Integer.ofText? (String.ofList name) with
      | some n => do
        check (0 < n && n < maxGroups)
        modify fun r => { r with asked := max r.asked n.toNat }
        pure n.toNat
      | none => refuse
  if (← get).behind.isSome then checkClosed index
  return index

/-- The two branches that a condition chooses from, of which the second may be left out. -/
def readConditional (branch : Reader Pattern) : Reader Pattern := do
  let index ← readCondition
  let yes ← branch
  let no ← if ← follows '|' then branch else pure .empty
  expect ')'
  return .ifMatched index yes no

def maxLookBehind : Nat := 4294967295

/-- A look at what comes before has to know how far back to go. -/
def readLookBehind (negated : Bool) (inner : Reader Pattern) : Reader Pattern := do
  let outer := (← get).behind
  modify fun r => { r with behind := outer.orElse fun _ => some r.groups.length }
  let body ← inParentheses inner
  modify fun r => { r with behind := outer }
  let width := body.width (← widths)
  if width.greatest ≠ some width.least ∨ maxLookBehind < width.least then fault
  return .look width.least negated body

def takeFlags : Reader (List Flag) := do
  return (← takeAll (Flag.ofChar? · |>.isSome)).filterMap Flag.ofChar?

/-- Flags that apply to a part. -/
def readScope (on off : List Flag) (inner : Reader Pattern) : Reader Pattern := do
  check ((on ++ off).all (· != .template) && off.all (!·.isAlphabet) && !on.any off.contains)
  within (Flag.change (← get).flags on off) inner

/-- Flags that are turned off come behind a hyphen, and there is at least one of them. -/
def readOff : Reader (List Flag) := do
  let off ← takeFlags
  check !off.isEmpty
  expect ':'
  return off

/-- What follows the first of the flags that are turned on. Flags for the whole pattern stand
at its very beginning. -/
def readFlags (first : Flag) (inner : Reader Pattern) (atStart : Bool) :
    Reader (Option Pattern) := do
  let on := first :: (← takeFlags)
  check !(on.contains .ascii && on.contains .unicode)
  match ← take with
  | some (.plain ':') => readScope on [] inner
  | some (.plain '-') => readScope on (← readOff) inner
  | some (.plain ')') => do
    check atStart
    modify fun r => { r with flags := r.flags ++ on }
    return none
  | _ => refuse

/-- What a parenthesis opens, or nothing if it is a comment or a mark for the whole pattern.
Groups hold what `inner` reads, the branches of a conditional what `branch` reads. -/
def readGroup (inner branch : Reader Pattern) (atStart : Bool) : Reader (Option Pattern) := do
  if !(← follows '?') then return ← readCapture none inner
  match ← take with
  | some (.plain 'P') => do
    if ← follows '<' then readCapture (some (← takeIdentifier '>')) inner
    else
      expect '='
      reference (← groupNamed (← takeIdentifier ')'))
  | some (.plain '#') => do
    skipTo ')'
    expect ')'
    return none
  | some (.plain '=') => return some (.look 0 false (← inParentheses inner))
  | some (.plain '!') => return some (.look 0 true (← inParentheses inner))
  | some (.plain '<') => do
    if ← follows '!' then readLookBehind true inner
    else
      expect '='
      readLookBehind false inner
  | some (.plain '(') => readConditional branch
  | some (.plain '>') => return some (.atomic (← inParentheses inner))
  | some (.plain ':') => inParentheses inner
  | some (.plain '-') => readScope [] (← readOff) inner
  | some (.plain c) => match Flag.ofChar? c with
    | some first => readFlags first inner atStart
    | none => refuse
  | _ => refuse

/-! ### Items -/

/-- Reads what begins with a token and adds it to the items before it, the last of which
stands first. -/
def readItem (inner branch : Reader Pattern) (atStart : Bool) (items : List Pattern) :
    Token → Reader (List Pattern)
  | .dangling => refuse
  | .escaped c => return (← readEscape c) :: items
  | .plain c => do
    if (← hasFlag .verbose) && Text.isAsciiBlank c then return items
    if (← hasFlag .verbose) && c = '#' then
      skipTo '\n'
      discard take
      return items
    match c with
    | '.' => return (← anyChar) :: items
    | '^' => return .anchor (if ← hasFlag .multiline then .lineStart else .textStart) :: items
    | '$' => return .anchor (if ← hasFlag .multiline then .lineEnd else .lastLineEnd) :: items
    | '[' => return (← readClass) :: items
    | '(' => return (← readGroup inner branch (atStart && items.isEmpty)).toList ++ items
    | '*' => repeatLast 0 none items
    | '+' => repeatLast 1 none items
    | '?' => repeatLast 0 (some 1) items
    | '\x7b' => match ← readBounds with
      | some (least, greatest) => repeatLast least greatest items
      | none => return (← literal c) :: items
    | c => return (← literal c) :: items
where
  anyChar : Reader Pattern := do
    return .oneOf (← alphabet) true (if ← hasFlag .dotAll then [] else [.single '\n'.toNat])

mutual

/-- Alternatives up to a closing parenthesis or the end. -/
def readChoice : Nat → Bool → Reader Pattern
  | 0, _ => refuse
  | fuel + 1, outermost => do
    let left ← readSeq fuel outermost []
    if ← follows '|' then return .either left (← readChoice fuel false)
    else return left

/-- What follows `items` up to a bar, a closing parenthesis or the end, together with them. -/
def readSeq : Nat → Bool → List Pattern → Reader Pattern
  | 0, _, _ => refuse
  | fuel + 1, outermost, items => do
    match (← get).rest.head? with
    | none | some (.plain '|') | some (.plain ')') =>
      return items.foldr (fun item before => .seq before item) .empty
    | some t => do
      discard take
      let inner := readChoice fuel false
      let branch := readSeq fuel false []
      readSeq fuel outermost (← readItem inner branch outermost items t)

end

/-- The whole pattern. Each token costs two units of fuel at most: one as an item, and one
more where it opens a group. -/
def readWhole (ts : List Token) : Reader Pattern := do
  proceed ts
  let p ← readChoice (2 * ts.length + 2) true
  let r ← get
  if r.flags.contains .ascii && r.flags.contains .unicode then throw .unknownName
  check (r.rest.isEmpty && r.asked < r.groups.length && !r.faulty)
  return p

end Reader

/-- The pattern that a text spells. -/
def ofText (s : String) : Except Failure Pattern := (Reader.readWhole (tokens s.toList)).run' {}

end Tablewright.Pattern
