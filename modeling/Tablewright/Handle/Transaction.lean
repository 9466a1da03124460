import Tablewright.Handle.Connection
import Tablewright.Work.Workspace

/-! Transactions. Work is done between a begin and a commit; work that fails is rolled
back. A limit on the run time of statements holds for one transaction. -/

namespace Tablewright.Connection

variable {α σ : Type}

def timeoutText (ms : Int) : String := "SET LOCAL statement_timeout = " ++ Integer.toText ms

/-- Limits how long statements may run. Without a positive limit the database's own stays
in force. -/
def limitTime (conn : Connection σ) (ms : Int) (s : σ) : Except Failure Unit × σ :=
  if 0 < ms then conn.command (timeoutText ms) s else (.ok (), s)

/-- Begins a transaction and limits its statements. -/
def openTransaction (conn : Connection σ) (timeoutMs : Int) (s : σ) : Except Failure Unit × σ :=
  conn.limitTime timeoutMs (conn.beginTransaction s)

/-- Commits what succeeded and rolls back what did not. -/
def settle (conn : Connection σ) (succeeded : Bool) (s : σ) : LogLine × σ :=
  if succeeded then (⟨.debug, .connections, "[TX] committed"⟩, conn.commit s)
  else (⟨.warning, .connections, "[TX] rolled back"⟩, conn.rollback s)

/-- Does work in a transaction of its own. -/
def transact (conn : Connection σ) (readonly : Bool) (timeoutMs : Int) (work : Work α)
    (w : Workspace) (s : σ) : (Except Failure α × Workspace) × σ :=
  let (opened, s) := conn.openTransaction timeoutMs s
  let ((outcome, w), s) := match opened with
    | .ok () => (work.start w).run (conn.handle readonly) s
    | .error f => ((.error f, w), s)
  let (line, s) := conn.settle outcome.isOk s
  ((outcome, w.noteAll [line]), s)

end Tablewright.Connection
