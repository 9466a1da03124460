import Tablewright.Diagnostics.Failure
import Tablewright.Statement

/-! Statement texts as a store reads them. It knows the forms in which the engine writes
its own statements, and clauses that compare columns with marks. -/

namespace Tablewright

/-- A statement that a store can execute. -/
inductive StoreStatement where
  | select (table : String) (columns conditions : List String) (limit : Option Nat)
  | insert (table : String) (entries : List Assignment)
  | update (table : String) (sets : List Assignment) (conditions : List String)
  | delete (table : String) (conditions : List String)
  deriving DecidableEq, Repr, Inhabited

namespace StoreStatement

/-- What is behind a text's beginning. -/
def after? (beginning s : List Char) : Option (List Char) :=
  if beginning.isPrefixOf s then some (s.drop beginning.length) else none

/-- What is before and behind the first place of a separator. -/
def cut? (separator : List Char) : List Char → Option (List Char × List Char)
  | [] => if separator.isEmpty then some ([], []) else none
  | c :: cs => match after? separator (c :: cs) with
    | some rest => some ([], rest)
    | none => (cut? separator cs).map fun (before, rest) => (c :: before, rest)

def cutText? (separator s : String) : Option (String × String) :=
  (cut? separator.toList s.toList).map fun (before, rest) => (String.ofList before, String.ofList rest)

def afterText? (beginning s : String) : Option String :=
  (after? beginning.toList s.toList).map String.ofList

def isWordChar (c : Char) : Bool := c.isAlphanum || c == '_' || 127 < c.toNat

def isWord (s : String) : Bool := s != "" && s.toList.all isWordChar

def termOf (text : String) : Term := if text = "?" then .parameter else .expression text

/-- The column of a condition: a word next to a mark. -/
def conditionOf (text : String) : Except Failure String :=
  match cutText? "=" text with
  | some (column, "?") =>
    if isWord column then .ok column else .error (.database ("unsupported condition: " ++ text))
  | _ => .error (.database ("unsupported condition: " ++ text))

def conditionsOf (text : String) : Except Failure (List String) :=
  (text.splitOn " AND ").mapM conditionOf

/-- The column and the value of an assignment. -/
def assignmentOf (text : String) : Assignment :=
  match cutText? "=" text with
  | some (column, value) => ⟨column, termOf value⟩
  | none => ⟨text, .parameter⟩

/-- The limit at the end of a query, and the query without it. -/
def limitOf (text : String) : Option Nat × String :=
  match text.splitOn " FETCH FIRST " with
  | [] | [_] => (none, text)
  | parts =>
    match (parts.getLastD "").splitOn " " with
    | [n, "ROWS", "ONLY"] => match n.toNat? with
      | some n => (some n, " FETCH FIRST ".intercalate parts.dropLast)
      | none => (none, text)
    | _ => (none, text)

/-- What follows the columns of a query: a table, and conditions if there are any. -/
def sourceOf (text : String) : Except Failure (String × List String) :=
  match cutText? " WHERE " text with
  | some (table, conditions) =>
    if isWord table then (conditionsOf conditions).map (table, ·)
    else .error (.database "unsupported select")
  | none => if isWord text then .ok (text, []) else .error (.database "unsupported select")

def readSelect (text : String) : Except Failure StoreStatement :=
  match cutText? " FROM " text with
  | none => .error (.database "unsupported select")
  | some (columns, rest) => do
    let (limit, rest) := limitOf rest
    let (table, conditions) ← sourceOf rest
    return .select table (columns.splitOn ", ") conditions limit

def unreadable {α : Type} : Except Failure α := .error (.database "unsupported statement")

def readInsert (text : String) : Except Failure StoreStatement :=
  match cutText? " (" text with
  | none => unreadable
  | some (table, rest) => match cutText? ") VALUES (" rest with
    | none => unreadable
    | some (columns, values) =>
      let values := String.ofList values.toList.dropLast
      .ok (.insert table (((columns.splitOn ", ").zip (values.splitOn ", ")).map
        fun (c, v) => ⟨c, termOf v⟩))

def readUpdate (text : String) : Except Failure StoreStatement :=
  match cutText? " SET " text with
  | none => unreadable
  | some (table, rest) => match cutText? " WHERE " rest with
    | none => unreadable
    | some (sets, conditions) => do
      return .update table ((sets.splitOn ", ").map assignmentOf) (← conditionsOf conditions)

def readDelete (text : String) : Except Failure StoreStatement :=
  match cutText? " WHERE " text with
  | none => unreadable
  | some (table, conditions) => (conditionsOf conditions).map (.delete table)

/-- The statement that a text spells. -/
def ofText (text : String) : Except Failure StoreStatement :=
  match afterText? "SELECT " text with
  | some rest => readSelect rest
  | none => match afterText? "INSERT INTO " text with
    | some rest => readInsert rest
    | none => match afterText? "UPDATE " text with
      | some rest => readUpdate rest
      | none => match afterText? "DELETE FROM " text with
        | some rest => readDelete rest
        | none => unreadable

end StoreStatement

end Tablewright
