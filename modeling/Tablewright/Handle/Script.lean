import Tablewright.Work.Task

/-! Scripts: answers that are laid down beforehand, and a record of what was asked for.
They stand in for a database where work is tried out. -/

namespace Tablewright

/-- One answer. What it leaves open is answered as if all had gone well. -/
structure ScriptItem where
  /-- The text of the failure to answer with. -/
  raised : Option String := none
  row : Option (List Value) := none
  rows : List (List Value) := []
  /-- Several lists of rows, for a statement that is executed several times. -/
  sets : Option (List (List (List Value))) := none
  affected : Option Int := none
  key : Option Value := none
  keys : Option (List Value) := none
  deriving Repr, Inhabited

/-- The answers that are left, and what has been asked. -/
structure Script (ε : Type) where
  items : List ScriptItem := []
  asked : List ε := []
  deriving Repr, Inhabited

namespace Script

variable {ε : Type}

/-- Keeps a question that needs no answer. -/
def keep (s : Script ε) (e : ε) : Script ε := { s with asked := s.asked ++ [e] }

/-- Keeps a question and takes the next answer, an open one if none is left. -/
def take (s : Script ε) (e : ε) : ScriptItem × Script ε :=
  (s.items.headD {}, { items := s.items.tail, asked := s.asked ++ [e] })

end Script

end Tablewright
