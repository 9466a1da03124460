import Tablewright.Number.Integer

/-! Problems of data that does not have its declared shape: where in the data, and what
is wrong there. -/

namespace Tablewright

/-- A step into data: a key of a map or a position in a list. -/
inductive PathPart where
  | key (name : String)
  | index (position : Nat)
  deriving DecidableEq, Repr, Inhabited

namespace Problem

inductive Kind where
  | missing
  | notText
  | tooShort
  | notInteger
  | integerText
  | fraction
  | notBoolean
  | booleanText
  | notDecimal
  | decimalText
  | notFinite
  | notListed
  | notList
  | notMap
  | notModel
  | notAbove
  | notAtLeast
  | tooLong
  deriving DecidableEq, Repr, Inhabited

def Kind.name : Kind → String
  | missing => "missing"
  | notText => "string_type"
  | tooShort => "string_too_short"
  | notInteger => "int_type"
  | integerText => "int_parsing"
  | fraction => "int_from_float"
  | notBoolean => "bool_type"
  | booleanText => "bool_parsing"
  | notDecimal => "decimal_type"
  | decimalText => "decimal_parsing"
  | notFinite => "finite_number"
  | notListed => "enum"
  | notList => "list_type"
  | notMap => "dict_type"
  | notModel => "model_type"
  | notAbove => "greater_than"
  | notAtLeast => "greater_than_equal"
  | tooLong => "int_parsing_size"

end Problem

/-- What is wrong at one place of the data. -/
structure Problem where
  path : List PathPart
  kind : Problem.Kind
  deriving DecidableEq, Repr, Inhabited

namespace Problem

def here (kind : Kind) : Problem := ⟨[], kind⟩

/-- The problem as seen from one level further out. -/
def within (part : PathPart) (p : Problem) : Problem := ⟨part :: p.path, p.kind⟩

end Problem

end Tablewright
