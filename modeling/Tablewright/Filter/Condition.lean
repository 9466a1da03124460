import Tablewright.Filter.Clause
import Tablewright.Filter.Like
import Tablewright.Filter.Request
import Tablewright.Schema.Record

/-! One condition of a filter request, resolved against a schema. Its literals become
bound values of the field's type. Another field takes a literal's place if the condition
refers to it by name in the reference brackets. -/

namespace Tablewright

/-- Why a field cannot be compared with. -/
inductive ReferenceFault where
  | unknown
  | otherType (actual expected : ValueType)
  | notAColumn
  deriving DecidableEq, Repr, Inhabited

namespace ReferenceFault

def toText : ReferenceFault → String
  | unknown => "This field does not exist"
  | otherType actual expected =>
    "This field is of value type " ++ actual.name ++ " but a value of type " ++ expected.name ++
      " is expected"
  | notAColumn => "This field is not a column in the table/view"

end ReferenceFault

/-- Why a condition is rejected. -/
inductive ConditionFault where
  | notAColumn (field : String)
  | noOperator (index : Nat)
  | unknownOperator (text : String)
  | noValue (index : Nat)
  | noUpperValue (index : Nat)
  | badReference (text field : String) (fault : ReferenceFault)
  | notText (op : FilterOperator) (field : String) (t : ValueType)
  | referenceNotAllowed (op : FilterOperator)
  | badValue (text : String) (t : ValueType) (field : String)
  deriving DecidableEq, Repr, Inhabited

namespace ConditionFault

def toText : ConditionFault → String
  | notAColumn field => "Filter field " ++ field ++ " is not a column in the table/view"
  | noOperator index => "filter operator is missing at index " ++ Integer.toText index
  | unknownOperator text => text ++ " is not a valid filter condition"
  | noValue index => "value is missing for a filter condition at index " ++ Integer.toText index
  | noUpperValue index =>
    "toValue is missing for a filter condition at index " ++ Integer.toText index
  | badReference text field fault =>
    "Filter condition uses '" ++ text ++ "' indicating that the field '" ++ field ++
      "' is to be used for comparison. " ++ fault.toText
  | notText op field t =>
    "Condition " ++ op.name ++ " is not valid for field " ++ field ++ " which is of value type " ++
      t.name
  | referenceNotAllowed op =>
    "Operator " ++ op.name ++ " can not be used with a field as the second operand"
  | badValue text t field =>
    text ++ " is not a valid value for value type " ++ t.name ++ " for field " ++ field

end ConditionFault

/-- Either a rejected condition, or a failure that ends the whole compilation. -/
abbrev Resolve (α : Type) := ExceptT ConditionFault (Except Failure) α

namespace FilterCondition

/-- The field that a text refers to, for a text in reference brackets. -/
def reference? (text : String) : Option String :=
  match text.toList with
  | '$' :: '\x7b' :: rest =>
    if rest.getLast? = some '\x7d' then some (String.ofList rest.dropLast) else none
  | _ => none

/-- The column that a text refers to, none for a literal. The field has to be a column of
the same type as the one that is compared. -/
def resolveReference (s : RecordSchema) (text : String) (t : ValueType) : Resolve (Option String) :=
  match reference? text with
  | none => return none
  | some name =>
    match s.field? name with
    | none => throw (.badReference text name .unknown)
    | some f =>
      if f.valueType ≠ t then throw (.badReference text name (.otherType f.valueType t))
      else if !f.isColumn then throw (.badReference text name .notAColumn)
      else return some f.columnName

/-- The value of the field's type that a literal spells. -/
def readLiteral (text : String) (f : Field) : Resolve Value := do
  match ← ExceptT.lift (f.valueType.parseText text) with
  | some v => return v
  | none => throw (.badValue text f.valueType f.name)

/-- The referred column, or a mark and the value that is bound to it. -/
def readOperand (text : String) (reference : Option String) (f : Field) :
    Resolve (Operand × List Value) :=
  match reference with
  | some column => return (.column column, [])
  | none => do return (.parameter, [← readLiteral text f])

def isBlank (text : Option String) : Bool := text.all Text.isBlankText

/-- The operator of a condition that has one. -/
def operator (c : FilterCondition) (index : Nat) : Resolve FilterOperator :=
  let text := c.comparator.getD ""
  match FilterOperator.parse? text with
  | some op => return op
  | none => throw (if text = "" then .noOperator index else .unknownOperator text)

/-- The texts of the values that an operator needs. -/
def operands (c : FilterCondition) (op : FilterOperator) (index : Nat) :
    Resolve (String × String) := do
  if isBlank c.value then throw (.noValue index)
  if op = .between ∧ isBlank c.toValue then throw (.noUpperValue index)
  return (c.value.getD "", c.toValue.getD "")

/-- A test of text against a pattern that is made of a literal. -/
def resolvePattern (op : FilterOperator) (pattern : String) (reference : Option String) (f : Field) :
    Resolve (ColumnTest × List Value) := do
  if f.valueType ≠ .text then throw (.notText op f.name f.valueType)
  if reference.isSome then throw (.referenceNotAllowed op)
  return (.matchesPattern, [.text pattern])

/-- The elements of a list, which commas part. -/
def elements (text : String) : List String := (text.toList.splitOn ',').map String.ofList

def resolveIn (value : String) (reference : Option String) (f : Field) :
    Resolve (ColumnTest × List Value) := do
  if reference.isSome then throw (.referenceNotAllowed .isIn)
  let values ← (elements value).mapM fun part => readLiteral (Text.strip part) f
  return (.isIn values.length, values)

def resolveBetween (s : RecordSchema) (value toValue : String) (reference : Option String)
    (f : Field) : Resolve (ColumnTest × List Value) := do
  let (lower, lowerValues) ← readOperand value reference f
  let reference ← resolveReference s toValue f.valueType
  let (upper, upperValues) ← readOperand toValue reference f
  return (.between lower upper, lowerValues ++ upperValues)

def resolveCompare (c : Comparison) (value : String) (reference : Option String) (f : Field) :
    Resolve (ColumnTest × List Value) := do
  let (right, values) ← readOperand value reference f
  return (.compare c right, values)

/-- The test that a condition puts to a field's column, and the values bound in it. -/
def resolveTest (s : RecordSchema) (c : FilterCondition) (index : Nat) (f : Field) :
    Resolve (ColumnTest × List Value) := do
  if !f.isColumn then throw (.notAColumn f.name)
  let op ← c.operator index
  let (value, toValue) ← c.operands op index
  let reference ← resolveReference s value f.valueType
  match op with
  | .contains => resolvePattern op (Like.containing value) reference f
  | .startsWith => resolvePattern op (Like.startingWith value) reference f
  | .isIn => resolveIn value reference f
  | .between => resolveBetween s value toValue reference f
  | .compare c => resolveCompare c value reference f

/-- The condition that a row has to meet, and the values bound in it. -/
def resolve (s : RecordSchema) (c : FilterCondition) (index : Nat) (f : Field) :
    Resolve (Conjunct × List Value) := do
  let (t, values) ← c.resolveTest s index f
  return (.test f.columnName (f.valueType == .text) t, values)

end FilterCondition

end Tablewright
