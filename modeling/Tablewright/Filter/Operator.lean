import Tablewright.Text.Blank

/-! The operators of filter conditions. -/

namespace Tablewright

/-- The orderings of two values. -/
inductive Comparison where
  | eq
  | ne
  | lt
  | le
  | gt
  | ge
  deriving DecidableEq, Repr, Inhabited

namespace Comparison

def all : List Comparison := [eq, ne, lt, le, gt, ge]

/-- How a client writes it. -/
def name : Comparison → String
  | eq => "="
  | ne => "!="
  | lt => "<"
  | le => "<="
  | gt => ">"
  | ge => ">="

/-- How a statement writes it. -/
def symbol : Comparison → String
  | ne => "<>"
  | c => c.name

end Comparison

inductive FilterOperator where
  | compare (c : Comparison)
  | contains
  | startsWith
  | isIn
  | between
  deriving DecidableEq, Repr, Inhabited

namespace FilterOperator

def all : List FilterOperator :=
  Comparison.all.map compare ++ [contains, startsWith, isIn, between]

def name : FilterOperator → String
  | compare c => c.name
  | contains => "contains"
  | startsWith => "startsWith"
  | isIn => "in"
  | between => "between"

/-- The operator as the standard of statements spells it. -/
def symbol : FilterOperator → String
  | compare c => c.symbol
  | op => op.name

def ofName? (s : String) : Option FilterOperator := all.find? (·.name == s)

/-- The operator that a text names, in any case and without the white space at its ends.
Either spelling of inequality is understood. -/
def parse? (s : String) : Option FilterOperator :=
  let key := (Text.trim s.toList).map Char.toLower
  if key = ['<', '>'] then some (.compare .ne)
  else all.find? (·.name.toList.map Char.toLower == key)

end FilterOperator

end Tablewright
