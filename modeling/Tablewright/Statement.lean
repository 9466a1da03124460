/-! Statements as the engine writes them: the columns they name, and a mark for every
value that is bound when the statement is executed. -/

namespace Tablewright

/-- What stands for a value in a statement. -/
inductive Term where
  | parameter
  /-- Evaluated by the database. -/
  | expression (text : String)
  deriving DecidableEq, Repr, Inhabited

namespace Term

def toText : Term → String
  | parameter => "?"
  | expression text => text

end Term

/-- A column and what it is given. -/
structure Assignment where
  column : String
  value : Term
  deriving DecidableEq, Repr, Inhabited

/-- One statement on one table. A condition is a column that has to equal its parameter. -/
inductive Statement where
  | select (table : String) (columns conditions : List String)
  | insert (table : String) (entries : List Assignment)
  | update (table : String) (sets : List Assignment) (conditions : List String)
  | delete (table : String) (conditions : List String)
  deriving DecidableEq, Repr, Inhabited

namespace Statement

def commaList (parts : List String) : String := ", ".intercalate parts

/-- A column next to a mark. -/
def equation (column : String) : String := column ++ "=?"

/-- The clause under which all of some columns equal their parameters. -/
def whereText (conditions : List String) : String :=
  "WHERE " ++ " AND ".intercalate (conditions.map equation)

def setText (a : Assignment) : String := a.column ++ "=" ++ a.value.toText

/-- A statement's text with a clause behind it. -/
def withClause (text clause : String) : String := text ++ " " ++ clause

def toText : Statement → String
  | select table columns conditions =>
    let text := "SELECT " ++ commaList columns ++ " FROM " ++ table
    if conditions.isEmpty then text else withClause text (whereText conditions)
  | insert table entries =>
    "INSERT INTO " ++ table ++ " (" ++ commaList (entries.map (·.column)) ++ ") VALUES (" ++
      commaList (entries.map (·.value.toText)) ++ ")"
  | update table sets conditions =>
    withClause ("UPDATE " ++ table ++ " SET " ++ commaList (sets.map setText)) (whereText conditions)
  | delete table conditions => withClause ("DELETE FROM " ++ table) (whereText conditions)

theorem insert_toText (table : String) (entries : List Assignment) :
    (insert table entries).toText = "INSERT INTO " ++ table ++ " (" ++
      commaList (entries.map (·.column)) ++ ") VALUES (" ++
      commaList (entries.map (·.value.toText)) ++ ")" := rfl

theorem update_toText (table : String) (sets : List Assignment) (conditions : List String) :
    (update table sets conditions).toText =
      withClause ("UPDATE " ++ table ++ " SET " ++ commaList (sets.map setText))
        (whereText conditions) := rfl

end Statement

end Tablewright
