import Tablewright.Diagnostics.Journal
import Tablewright.Schema.ValueType

/-! What work asks of a database. A call carries a statement's text, the values bound to
its marks and their types; the handle that the application supplies decides how it is
executed. -/

namespace Tablewright

inductive Call where
  /-- The first row that a statement finds. -/
  | read (sql : String) (values : List Value) (types output : List ValueType)
  /-- Every row that a statement finds. -/
  | readMany (sql : String) (values : List Value) (types output : List ValueType)
  | write (sql : String) (values : List Value) (types : List ValueType)
  /-- An insert that lets the database generate a column. -/
  | insertKey (sql : String) (values : List Value) (types : List ValueType) (column : String)
  /-- One statement for each list of values. -/
  | writeMany (sql : String) (rows : List (List Value)) (types : List ValueType)
  | insertManyKey (sql : String) (rows : List (List Value)) (types : List ValueType)
      (column : String)
  deriving Repr, Inhabited

namespace Call

/-- What a call is answered with: the row or nothing, the rows one after the other, or the
number of rows affected, with the generated keys in the order of the rows. A row that
cannot be brought into its native form is a failure only once it is looked at. -/
def Reply : Call → Type
  | read .. => Option (List Value)
  | readMany .. => List (Except Failure (List Value))
  | write .. | writeMany .. => Int
  | insertKey .. => Int × Value
  | insertManyKey .. => Int × List Value

end Call

/-- The outcome of a call, and what the handle notes about it. -/
structure Answer (c : Call) where
  outcome : Except Failure c.Reply
  log : List LogLine := []

end Tablewright
