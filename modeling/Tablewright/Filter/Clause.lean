import Tablewright.Filter.Operator
import Tablewright.Number.Integer

/-! The clause of a filter: which rows are selected, in which order, and how many of them
at most. What a client wrote stands in it only as a mark for a bound value; its columns
come from the schema. -/

namespace Tablewright

/-- What a column is compared with. -/
inductive Operand where
  | parameter
  | column (name : String)
  deriving DecidableEq, Repr, Inhabited

namespace Operand

def toText : Operand → String
  | parameter => "?"
  | column name => name

end Operand

/-- A test of one column. -/
inductive ColumnTest where
  | compare (c : Comparison) (right : Operand)
  /-- The column matches a pattern, which is bound. -/
  | matchesPattern
  /-- The column is one of some bound values. -/
  | isIn (count : Nat)
  | between (lower upper : Operand)
  deriving DecidableEq, Repr, Inhabited

/-- One of the conditions that a row has to meet. -/
inductive Conjunct where
  /-- The row belongs to the caller's tenant. -/
  | tenant (column : String)
  /-- Text is compared without regard to case. -/
  | test (column : String) (caseless : Bool) (t : ColumnTest)
  deriving DecidableEq, Repr, Inhabited

namespace Conjunct

/-- What is compared without regard to case is compared in capitals. -/
def fold (caseless : Bool) (sql : String) : String :=
  if caseless then "UPPER(" ++ sql ++ ")" else sql

/-- The mark for a bound value. -/
def mark (caseless : Bool) : String := fold caseless Operand.parameter.toText

def testText (caseless : Bool) : ColumnTest → String
  | .compare c right => c.symbol ++ " " ++ fold caseless right.toText
  | .matchesPattern => "LIKE " ++ mark caseless ++ " ESCAPE '\\'"
  | .isIn count => "IN (" ++ ", ".intercalate (List.replicate count (mark caseless)) ++ ")"
  | .between lower upper =>
    "BETWEEN " ++ fold caseless lower.toText ++ " AND " ++ fold caseless upper.toText

def toText : Conjunct → String
  | tenant column => column ++ "=?"
  | test column caseless t => fold caseless column ++ " " ++ testText caseless t

end Conjunct

/-- A column to sort by. -/
structure SortColumn where
  column : String
  descending : Bool
  deriving DecidableEq, Repr, Inhabited

namespace SortColumn

def toText (s : SortColumn) : String := if s.descending then s.column ++ " DESC" else s.column

end SortColumn

structure FilterClause where
  conjuncts : List Conjunct
  sorts : List SortColumn
  limit : Int
  deriving DecidableEq, Repr, Inhabited

namespace FilterClause

def whereParts (c : FilterClause) : List String :=
  if c.conjuncts.isEmpty then []
  else ["WHERE " ++ " AND ".intercalate (c.conjuncts.map Conjunct.toText)]

def orderParts (c : FilterClause) : List String :=
  if c.sorts.isEmpty then []
  else ["ORDER BY " ++ ", ".intercalate (c.sorts.map SortColumn.toText)]

def limitText (c : FilterClause) : String := "FETCH FIRST " ++ Integer.toText c.limit ++ " ROWS ONLY"

def toText (c : FilterClause) : String :=
  " ".intercalate (c.whereParts ++ c.orderParts ++ [c.limitText])

end FilterClause

end Tablewright
