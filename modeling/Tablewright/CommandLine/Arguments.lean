import Tablewright.Number.Integer

/-! The words of the command line. Options may stand anywhere behind the command, with
their value behind them, behind an equals sign, or behind the letter; after two dashes
every word stands for itself. -/

namespace Tablewright.CommandLine

/-- What the program is asked to do. -/
inductive Command where
  | help
  | info
  | sql (declarations : String) (record : Option String)
  | filter (declarations record request : String) (tenant : Option String) (maxRows : Option Int)
  deriving DecidableEq, Repr, Inhabited

/-- An option that a command has. -/
structure OptionName where
  long : String
  short : Option Char := none
  takesValue : Bool := true
  deriving DecidableEq, Repr, Inhabited

namespace OptionName

def help : OptionName := { long := "--help", takesValue := false }
def record : OptionName := { long := "--record", short := some 'r' }
def tenant : OptionName := { long := "--tenant", short := some 't' }
def maxRows : OptionName := { long := "--max-rows" }

end OptionName

/-- Words sorted into options and all others. Of an option that is given twice the last
value counts. -/
structure Sorted where
  plain : List String := []
  options : List (OptionName × String) := []
  deriving Repr, Inhabited

namespace Sorted

def value? (s : Sorted) (o : OptionName) : Option String :=
  (s.options.reverse.find? (·.1 == o)).map (·.2)

def has (s : Sorted) (o : OptionName) : Bool := s.options.any (·.1 == o)

end Sorted

/-- What a word that begins with a dash is. -/
inductive DashWord where
  /-- The value comes with the next word. -/
  | alone (o : OptionName)
  | withValue (o : OptionName) (value : String)
  | flag (o : OptionName)
  | unknown
  deriving Repr, Inhabited

/-- Splits a word at its first equals sign. -/
def splitEquals (word : List Char) : List Char × Option (List Char) :=
  let name := word.takeWhile (· != '=')
  (name, if name.length < word.length then some (word.drop (name.length + 1)) else none)

/-- A word with two dashes. -/
def readLong (known : List OptionName) (word : List Char) : DashWord :=
  let (name, value) := splitEquals word
  match known.find? (·.long.toList == name), value with
  | none, _ => .unknown
  | some o, none => if o.takesValue then .alone o else .flag o
  | some o, some v => if o.takesValue then .withValue o (String.ofList v) else .unknown

/-- A word with one dash: a letter, with its value directly behind it or not. -/
def readShort (known : List OptionName) (letter : Char) (rest : List Char) : DashWord :=
  match known.find? (·.short == some letter) with
  | none => .unknown
  | some o => if rest.isEmpty then .alone o else .withValue o (String.ofList rest)

def readDash (known : List OptionName) : List Char → DashWord
  | '-' :: '-' :: rest => readLong known ('-' :: '-' :: rest)
  | '-' :: letter :: rest => readShort known letter rest
  | _ => .unknown

def isDashWord (word : String) : Bool := word.startsWith "-" && word.length > 1

/-- Sorts words. Nothing comes out if an option is unknown or lacks its value. -/
def sortWords (known : List OptionName) : List String → Sorted → Option Sorted
  | [], s => some s
  | word :: words, s =>
    if word = "--" then some { s with plain := s.plain ++ words }
    else if !isDashWord word then sortWords known words { s with plain := s.plain ++ [word] }
    else match readDash known word.toList, words with
      | .unknown, _ => none
      | .flag o, words => sortWords known words { s with options := s.options ++ [(o, "")] }
      | .withValue o v, words => sortWords known words { s with options := s.options ++ [(o, v)] }
      | .alone _, [] => none
      | .alone o, v :: words => sortWords known words { s with options := s.options ++ [(o, v)] }

/-- A path without the parts that say nothing. -/
def normalPath (path : String) : String :=
  let parts := (path.splitOn "/").filter fun p => p != "" && p != "."
  let start := if path.startsWith "/" then "/" else ""
  if parts.isEmpty then (if start = "" then "." else start) else start ++ "/".intercalate parts

/-- The command that sorted words give, if the number of plain words is right. -/
def readSql (s : Sorted) : Option Command :=
  match s.plain with
  | [declarations] => some (.sql (normalPath declarations) (s.value? .record))
  | _ => none

def readFilter (s : Sorted) : Option Command :=
  match s.plain with
  | [declarations, record, request] =>
    let made (maxRows : Option Int) : Command :=
      .filter (normalPath declarations) record (normalPath request) (s.value? .tenant) maxRows
    match s.value? .maxRows with
    | none => some (made none)
    | some text => (Integer.ofText? text).map fun n => made (some n)
  | _ => none

def readInfo (s : Sorted) : Option Command := if s.plain.isEmpty then some .info else none

/-- A command with the options it knows. A wish for help comes before everything but
unknown options. -/
def readCommand (known : List OptionName) (read : Sorted → Option Command) (words : List String) :
    Option Command :=
  (sortWords (OptionName.help :: known) words {}).bind fun s =>
    if s.has .help then some .help else read s

/-- The command that a word names, with the words behind it. -/
def Command.named? : List String → Option Command
  | "info" :: words => readCommand [] readInfo words
  | "sql" :: words => readCommand [.record] readSql words
  | "filter" :: words => readCommand [.tenant, .maxRows] readFilter words
  | _ => none

/-- The command that words give; nothing for words that make no sense. -/
def Command.ofWords? : List String → Option Command
  | "--help" :: _ => some .help
  | "--" :: words | words => named? words

/-- The files that a command may read. -/
def Command.paths : Command → List String
  | .sql declarations _ => [declarations]
  | .filter declarations _ request _ _ => [declarations, request]
  | _ => []

end Tablewright.CommandLine
