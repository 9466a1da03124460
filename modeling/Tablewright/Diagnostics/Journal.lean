import Tablewright.Diagnostics.Failure
import Tablewright.Diagnostics.Log
import Tablewright.Diagnostics.Message

/-! Checks. A check works on what it is given, writes log lines and messages, and ends
with a result or a failure; what it has written stays written if it fails. -/

namespace Tablewright

/-- What has been written so far, the earliest first. -/
structure Journal where
  log : List LogLine := []
  messages : List Message := []
  deriving DecidableEq, Repr, Inhabited

namespace Journal

def note (j : Journal) (line : LogLine) : Journal := { j with log := j.log ++ [line] }

def report (j : Journal) (m : Message) : Journal := { j with messages := j.messages ++ [m] }

end Journal

/-- Work that reads nothing but its arguments and writes nothing but the journal. -/
abbrev Check (α : Type) := ExceptT Failure (StateM Journal) α

namespace Check

def note (level : Log.Level) (source : Log.Source) (text : String) : Check Unit :=
  modify (·.note ⟨level, source, text⟩)

def report (m : Message) : Check Unit := modify (·.report m)

/-- A result or a failure that is already known. -/
def lift {α : Type} (r : Except Failure α) : Check α := .mk (return r)

/-- What a check ended with, its failure included. -/
def caught {α : Type} (c : Check α) : Check (Except Failure α) := .mk fun j =>
  let (r, j) := c.run.run j
  (.ok r, j)

/-- What a check ended with, and its messages apart from all others. -/
def isolated {α : Type} (c : Check α) : Check (Except Failure α × List Message) := .mk fun j =>
  let (r, k) := c.run.run { j with messages := [] }
  (.ok (r, k.messages), { k with messages := j.messages })

/-- The outcome and the journal after a check that began with an empty one. -/
def start {α : Type} (c : Check α) : Except Failure α × Journal := c.run.run {}

end Check

end Tablewright
