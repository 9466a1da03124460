import Tablewright.Number.Integer

/-! How severe a log line is: a number, with names for some of them. -/

namespace Tablewright.Logging

structure Severity where
  rank : Int
  deriving DecidableEq, Repr, Inhabited

namespace Severity

def notSet : Severity := ⟨0⟩

/-- The names that are understood; the first name of a rank is the one it is shown under. -/
def names : List (String × Severity) :=
  [("CRITICAL", ⟨50⟩), ("FATAL", ⟨50⟩), ("ERROR", ⟨40⟩), ("WARNING", ⟨30⟩), ("WARN", ⟨30⟩),
    ("INFO", ⟨20⟩), ("DEBUG", ⟨10⟩), ("NOTSET", notSet)]

/-- Capitals of the letters that occur in names. -/
def capital (c : Char) : Char :=
  if c = 'ı' then 'I'
  else if c = 'ſ' then 'S'
  else c.toUpper

/-- The severity that a name stands for, in any case. -/
def ofName? (s : String) : Option Severity :=
  (names.find? (·.1 == s.map capital)).map (·.2)

/-- The name under which a severity is shown; without one it is shown by its rank. -/
def label (s : Severity) : String :=
  match names.find? (·.2 == s) with
  | some (name, _) => name
  | none => "Level " ++ Integer.toText s.rank

end Severity

end Tablewright.Logging
