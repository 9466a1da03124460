import Tablewright.Filter.Clause
import Tablewright.Proofs.Sql.Token

/-! Queries as a database reads them: the columns of a table, the conditions under which
its rows are selected, their order and their number. What a word means is told by where it
stands, so a column may bear the name of any keyword. -/

namespace Tablewright.Sql

/-- An operand, or its capitals. -/
structure Expr where
  folded : Bool
  operand : Operand
  deriving DecidableEq, Repr

inductive Condition where
  | compare (left : Expr) (op : Comparison) (right : Expr)
  | like (left pattern : Expr) (escape : Char)
  | isIn (left : Expr) (items : List Expr)
  | between (left lower upper : Expr)
  deriving DecidableEq, Repr

/-- What follows the table of a query. All of the conditions have to hold. -/
structure Clause where
  conditions : List Condition
  sorts : List SortColumn
  limit : Nat
  deriving DecidableEq, Repr

structure Query where
  columns : List String
  table : String
  clause : Clause
  deriving DecidableEq, Repr

/-! ## Reading -/

/-- Reads something from the front of some tokens and leaves the others. -/
abbrev Reader (α : Type) := List Token → Option (α × List Token)

open Token

/-- Items with separators between them, at least one. There are no more items than tokens. -/
def separatedUpTo {α : Type} (separator : Token) (item : Reader α) : Nat → Reader (List α)
  | 0, _ => none
  | n + 1, ts => do
    let (a, rest) ← item ts
    match rest with
    | [] => return ([a], [])
    | t :: rest' =>
      if t = separator then
        let (as, rest) ← separatedUpTo separator item n rest'
        return (a :: as, rest)
      else return ([a], rest)

def separated {α : Type} (separator : Token) (item : Reader α) : Reader (List α) :=
  fun ts => separatedUpTo separator item ts.length ts

def readOperand : Reader Operand
  | symbol '?' :: ts => some (.parameter, ts)
  | word name :: ts => some (.column name, ts)
  | _ => none

def readExpr : Reader Expr
  | word "UPPER" :: symbol '(' :: ts => do
    match ← readOperand ts with
    | (o, symbol ')' :: rest) => return (⟨true, o⟩, rest)
    | _ => none
  | ts => do
    let (o, rest) ← readOperand ts
    return (⟨false, o⟩, rest)

def readComparison : Reader Comparison
  | symbol '=' :: ts => some (.eq, ts)
  | symbol '<' :: symbol '>' :: ts => some (.ne, ts)
  | symbol '<' :: symbol '=' :: ts => some (.le, ts)
  | symbol '<' :: ts => some (.lt, ts)
  | symbol '>' :: symbol '=' :: ts => some (.ge, ts)
  | symbol '>' :: ts => some (.gt, ts)
  | _ => none

/-- What is said of an expression. -/
def readTest (left : Expr) : Reader Condition
  | word "LIKE" :: ts => do
    match ← readExpr ts with
    | (pattern, word "ESCAPE" :: symbol '\'' :: symbol c :: symbol '\'' :: rest) =>
      return (.like left pattern c, rest)
    | _ => none
  | word "IN" :: symbol '(' :: ts => do
    match ← separated (symbol ',') readExpr ts with
    | (items, symbol ')' :: rest) => return (.isIn left items, rest)
    | _ => none
  | word "BETWEEN" :: ts => do
    match ← readExpr ts with
    | (lower, word "AND" :: rest) =>
      let (upper, rest) ← readExpr rest
      return (.between left lower upper, rest)
    | _ => none
  | ts => do
    let (op, rest) ← readComparison ts
    let (right, rest) ← readExpr rest
    return (.compare left op right, rest)

def readCondition : Reader Condition := fun ts => do
  let (left, rest) ← readExpr ts
  readTest left rest

def readConditions : Reader (List Condition)
  | word "WHERE" :: ts => separated (word "AND") readCondition ts
  | ts => some ([], ts)

def readName : Reader String
  | word name :: ts => some (name, ts)
  | _ => none

def readSort : Reader SortColumn := fun ts => do
  match ← readName ts with
  | (name, word "DESC" :: rest) => return (⟨name, true⟩, rest)
  | (name, rest) => return (⟨name, false⟩, rest)

def readSorts : Reader (List SortColumn)
  | word "ORDER" :: word "BY" :: ts => separated (symbol ',') readSort ts
  | ts => some ([], ts)

def readNumber (digits : List Char) : Option Nat :=
  if digits.all Char.isDigit then some (Nat.ofDigitChars 10 digits 0) else none

def readLimit : List Token → Option Nat
  | [word "FETCH", word "FIRST", word n, word "ROWS", word "ONLY"] => readNumber n.toList
  | _ => none

def readClause (ts : List Token) : Option Clause := do
  let (conditions, ts) ← readConditions ts
  let (sorts, ts) ← readSorts ts
  let limit ← readLimit ts
  return ⟨conditions, sorts, limit⟩

def readQuery : List Token → Option Query
  | word "SELECT" :: ts => do
    match ← separated (symbol ',') readName ts with
    | (columns, word "FROM" :: word table :: rest) => return ⟨columns, table, ← readClause rest⟩
    | _ => none
  | _ => none

/-- The clause that a text spells. -/
def Clause.ofText? (text : String) : Option Clause := readClause (tokens text)

/-- The query that a text spells. -/
def Query.ofText? (text : String) : Option Query := readQuery (tokens text)

end Tablewright.Sql
