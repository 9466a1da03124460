import Tablewright.Handle.Placeholder
import Tablewright.Handle.Script

/-! Handles over a database connection. A call is executed by one cursor, which is closed
whatever happens; result columns are brought into the native form of their types. -/

namespace Tablewright

/-- What a cursor holds after a statement: one list of rows for each execution. -/
structure Results where
  sets : List (List (List Value))
  rowCount : Int
  deriving Repr, Inhabited

namespace Results

/-- The rows of the first execution. -/
def rows (r : Results) : List (List Value) := r.sets.headD []

end Results

/-- What a connection can do, with a state of its own. -/
structure Connection (σ : Type) where
  execute : String → List Value → σ → Except Failure Results × σ
  /-- One execution for each list of values; says whether rows are wanted back. -/
  executeMany : String → List (List Value) → Bool → σ → Except Failure Results × σ
  /-- Executes a statement outside of any cursor. -/
  command : String → σ → Except Failure Unit × σ
  closeCursor : σ → σ
  beginTransaction : σ → σ
  commit : σ → σ
  rollback : σ → σ

namespace Call

/-- Whether a call may change the database. -/
def isWrite : Call → Bool
  | read .. | readMany .. => false
  | _ => true

/-- The name of a call in log lines. -/
def title : Call → String
  | read .. => "read"
  | readMany .. => "read_many"
  | write .. => "write"
  | insertKey .. => "insert"
  | writeMany .. => "write_many"
  | insertManyKey .. => "insert_many"

def returning (sql column : String) : String := sql ++ " RETURNING " ++ column

/-- The statement that is executed for a call. -/
def statementText : Call → String
  | read sql .. | readMany sql .. | write sql .. | writeMany sql .. => sql
  | insertKey sql _ _ column | insertManyKey sql _ _ column => returning sql column

/-- The first column of a row. -/
def firstColumn : List Value → Except Failure Value
  | [] => .error .rowPosition
  | v :: _ => .ok v

def convertRow (output : List ValueType) (row : List Value) : Except Failure (List Value) :=
  (row.zip output).mapM fun (v, t) => t.fromDatabase v

/-- The key that one execution gave back, null if it gave back no row. -/
def keyOf (rows : List (List Value)) : Except Failure Value :=
  match rows with
  | [] => .ok .null
  | row :: _ => firstColumn row

/-- The keys of all executions; there is always at least one to look at. -/
def keysOf (sets : List (List (List Value))) : Except Failure (List Value) :=
  if sets.isEmpty then .ok [.null] else sets.mapM keyOf

/-- The reply that a cursor's results make. -/
def replyOf : (c : Call) → Results → Except Failure c.Reply
  | read _ _ _ output, r => match r.rows with
    | [] => .ok (none : Option (List Value))
    | row :: _ => (convertRow output row).map some
  | readMany _ _ _ output, r => .ok (r.rows.map (convertRow output))
  | write .., r => .ok r.rowCount
  | writeMany .., r => .ok r.rowCount
  | insertKey .., r => match r.rows with
    | [] => .ok ((0, .null) : Int × Value)
    | row :: _ => (firstColumn row).map fun key => (r.rowCount, key)
  | insertManyKey .., r =>
    (keysOf r.sets).map fun keys => (((keys.filter (!·.isNull)).length : Int), keys)

end Call

namespace Connection

variable {σ : Type}

/-- Executes the statement of a call. -/
def send (conn : Connection σ) : Call → σ → Except Failure Results × σ
  | .writeMany sql rows _ => conn.executeMany (Placeholder.encode sql) rows false
  | .insertManyKey sql rows _ column =>
    conn.executeMany (Placeholder.encode (Call.returning sql column)) rows true
  | .read sql values .. | .readMany sql values .. | .write sql values .. =>
    conn.execute (Placeholder.encode sql) values
  | .insertKey sql values _ column =>
    conn.execute (Placeholder.encode (Call.returning sql column)) values

/-- Notes the statement of a call and executes it. A handle for reading refuses to write. -/
def answer (conn : Connection σ) (readonly : Bool) (c : Call) (s : σ) : Answer c × σ :=
  if readonly && c.isWrite then (⟨.error .readonlyHandle, []⟩, s)
  else
    let (results, s) := conn.send c s
    (⟨results.bind c.replyOf, [⟨.debug, .handles, c.title ++ ": " ++ c.statementText⟩]⟩,
      conn.closeCursor s)

def handle (conn : Connection σ) (readonly : Bool) : Handle σ := ⟨conn.answer readonly⟩

end Connection

/-- What a connection is asked to do. -/
inductive ConnectionEvent where
  | execute (sql : String) (values : List Value)
  | executeMany (sql : String) (rows : List (List Value)) (returning : Bool)
  | command (sql : String)
  | closeCursor
  | beginTransaction
  | commit
  | rollback
  deriving Repr, Inhabited

namespace ConnectionEvent

/-- The results that an item stands for. -/
def results (item : ScriptItem) : Except Failure Results :=
  match item.raised with
  | some text => .error (.database text)
  | none => .ok ⟨item.sets.getD [item.rows], item.affected.getD 1⟩

/-- Takes the next answer of a script for an event. -/
def ask (e : ConnectionEvent) (s : Script ConnectionEvent) :
    Except Failure Results × Script ConnectionEvent :=
  let (item, s) := s.take e
  (results item, s)

end ConnectionEvent

/-- A connection that answers from a script. -/
def Connection.scripted : Connection (Script ConnectionEvent) where
  execute sql values s := (ConnectionEvent.execute sql values).ask s
  executeMany sql rows returning s := (ConnectionEvent.executeMany sql rows returning).ask s
  command sql s :=
    let (r, s) := (ConnectionEvent.command sql).ask s
    (r.map fun _ => (), s)
  closeCursor s := s.keep .closeCursor
  beginTransaction s := s.keep .beginTransaction
  commit s := s.keep .commit
  rollback s := s.keep .rollback

end Tablewright
