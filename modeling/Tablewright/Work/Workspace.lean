import Tablewright.Schema.Record
import Tablewright.Work.Task

/-! The workspace of an application: the rows it holds and the journal. Work names a row
by its place, so that whoever holds the same row sees what is written into it. Work that
fails keeps what it has written until then. -/

namespace Tablewright

/-- The place of a row in the workspace. -/
abbrev RowRef := Nat

structure Workspace where
  rows : List Row := []
  journal : Journal := {}
  deriving Repr, Inhabited

namespace Workspace

def row (w : Workspace) (r : RowRef) : Row := w.rows.getD r []

def setRow (w : Workspace) (r : RowRef) (row : Row) : Workspace :=
  { w with rows := w.rows.set r row }

def noteAll (w : Workspace) (lines : List LogLine) : Workspace :=
  { w with journal := lines.foldl Journal.note w.journal }

end Workspace

/-- Work in a workspace that may ask a database. -/
abbrev Work (α : Type) := ExceptT Failure (StateT Workspace Task) α

namespace Work

variable {α β : Type}

def start (work : Work α) (w : Workspace) : Task (Except Failure α × Workspace) := work.run.run w

/-- A check as part of work. -/
def check (c : Check α) : Work α := .mk fun w =>
  let (r, j) := c.run.run w.journal
  .done (r, { w with journal := j })

def lift (r : Except Failure α) : Work α := .mk (pure r)

def note (level : Log.Level) (source : Log.Source) (text : String) : Work Unit :=
  check (.note level source text)

def report (m : Message) : Work Unit := check (.report m)

/-- The reply to a call. -/
def ask (c : Call) : Work c.Reply := .mk fun w =>
  .ask c fun a => .done (a.outcome, w.noteAll a.log)

/-! ### Calls -/

def read (sql : String) (values : List Value) (types output : List ValueType) :
    Work (Option (List Value)) := ask (.read sql values types output)

def readMany (sql : String) (values : List Value) (types output : List ValueType) :
    Work (List (Except Failure (List Value))) := ask (.readMany sql values types output)

def write (sql : String) (values : List Value) (types : List ValueType) : Work Int :=
  ask (.write sql values types)

def insertKey (sql : String) (values : List Value) (types : List ValueType) (column : String) :
    Work (Int × Value) := ask (.insertKey sql values types column)

def writeMany (sql : String) (rows : List (List Value)) (types : List ValueType) : Work Int :=
  ask (.writeMany sql rows types)

def insertManyKey (sql : String) (rows : List (List Value)) (types : List ValueType)
    (column : String) : Work (Int × List Value) := ask (.insertManyKey sql rows types column)

/-- Goes through rows as they come, with a state, until none is left or the next one is
declined; ends with the number of rows gone through, a declined one included. -/
def throughRows {σ : Type} (process : σ → List Value → Work (σ × Bool)) :
    List (Except Failure (List Value)) → Int → σ → Work (Int × σ)
  | [], n, s => return (n, s)
  | r :: rs, n, s => do
    let (s, more) ← process s (← lift r)
    if more then throughRows process rs (n + 1) s else return (n + 1, s)

/-- Keeps what it is handed, and declines more after so many. -/
def gather (most : Option Int) (seen : List α) (a : α) : Work (List α × Bool) :=
  return (seen ++ [a], most.all fun n => ((seen.length : Int) + 1) < n)

/-! ### Rows -/

def row (r : RowRef) : Work Row := return (← get).row r

/-- A row of its own in the workspace. -/
def addRow (row : Row) : Work RowRef := do
  let w ← get
  set { w with rows := w.rows ++ [row] }
  return w.rows.length

/-- The value at a place of a row. -/
def valueAt (r : RowRef) (i : Nat) : Work Value := do
  match (← row r)[i]? with
  | some v => return v
  | none => throw .rowPosition

/-- Writes a value into a place of a row. -/
def setAt (r : RowRef) (i : Nat) (v : Value) : Work Unit := do
  let w ← get
  if i < (w.row r).length then set (w.setRow r ((w.row r).set i v))
  else throw .rowPosition

end Work

end Tablewright
