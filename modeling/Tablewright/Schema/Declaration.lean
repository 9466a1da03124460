import Tablewright.Schema.Field

/-! Declarations of records and of links between them, as they stand in a declarations
file. They are taken as they are; what is wrong with a record as a whole comes out when
its schema is built. -/

namespace Tablewright

structure FieldDeclaration where
  name : String
  columnName : Option String
  valueType : ValueType
  role : Option FieldRole
  /-- Overrides what the role says about the field being required. -/
  required : Option Bool
  defaultValue : Option String
  schemaName : Option String
  minLength : Option Int
  maxLength : Option Int
  pattern : Option String
  minValue : Option Decimal
  maxValue : Option Decimal
  valueList : Option ValueList
  listKey : Option String
  deriving DecidableEq, Repr, Inhabited

namespace FieldDeclaration

/-- The rules for the field's values. Without a name of their own they are named after
the type. -/
def valueSchema (d : FieldDeclaration) : ValueSchema where
  name := match d.schemaName with
    | some name => if name = "" then d.valueType.name else name
    | none => d.valueType.name
  valueType := d.valueType
  minLength := d.minLength
  maxLength := d.maxLength
  pattern := d.pattern
  minValue := d.minValue
  maxValue := d.maxValue

def decode : Decoder FieldDeclaration := Decoder.model fun es =>
  mk <$> Decoder.required es ["name"] (.nonEmpty .text)
    <*> Decoder.part es ["columnName", "column_name"] none (.optional .text)
    <*> Decoder.part es ["valueType", "value_type"] .text (.oneOf ValueType.all ValueType.name)
    <*> Decoder.part es ["role"] none (.optional (.oneOf FieldRole.all FieldRole.name))
    <*> Decoder.part es ["required"] none (.optional .boolean)
    <*> Decoder.part es ["defaultValue", "default_value"] none (.optional .text)
    <*> Decoder.part es ["valueSchema", "schema_name"] none (.optional .text)
    <*> Decoder.part es ["minLength", "min_length"] none (.optional (.atLeast 0 .integer))
    <*> Decoder.part es ["maxLength", "max_length"] none (.optional (.atLeast 0 .integer))
    <*> Decoder.part es ["pattern"] none (.optional .text)
    <*> Decoder.part es ["minValue", "min_value"] none (.optional .decimal)
    <*> Decoder.part es ["maxValue", "max_value"] none (.optional .decimal)
    <*> Decoder.part es ["valueList", "value_list"] none (.optional ValueList.decode)
    <*> Decoder.part es ["listKey", "list_key"] none (.optional .text)

end FieldDeclaration

structure RecordDeclaration where
  name : String
  nameInDb : Option String
  useTimestampCheck : Bool
  operations : List String
  fields : List FieldDeclaration
  deriving DecidableEq, Repr, Inhabited

namespace RecordDeclaration

def decode : Decoder RecordDeclaration := Decoder.model fun es =>
  mk <$> Decoder.required es ["name"] (.nonEmpty .text)
    <*> Decoder.part es ["nameInDb", "name_in_db"] none (.optional .text)
    <*> Decoder.part es ["useTimestampCheck", "use_timestamp_check"] false .boolean
    <*> Decoder.part es ["operations"] [] (.list .text)
    <*> Decoder.part es ["fields"] [] (.list FieldDeclaration.decode)

end RecordDeclaration

/-- A child record linked to a parent record: the rows of the child whose fields equal
the paired fields of a parent row belong to that row. -/
structure LinkDeclaration where
  name : String
  parent : String
  child : String
  parentFields : List String
  childFields : List String
  isMultiRow : Bool
  minRows : Int
  maxRows : Int
  errorMessageId : Option String
  deriving DecidableEq, Repr, Inhabited

namespace LinkDeclaration

def decode : Decoder LinkDeclaration := Decoder.model fun es =>
  mk <$> Decoder.required es ["name"] (.nonEmpty .text)
    <*> Decoder.required es ["parent"] (.nonEmpty .text)
    <*> Decoder.required es ["child"] (.nonEmpty .text)
    <*> Decoder.part es ["parentFields", "parent_fields"] [] (.list .text)
    <*> Decoder.part es ["childFields", "child_fields"] [] (.list .text)
    <*> Decoder.part es ["isMultiRow", "is_multi_row"] false .boolean
    <*> Decoder.part es ["minRows", "min_rows"] 0 (.atLeast 0 .integer)
    <*> Decoder.part es ["maxRows", "max_rows"] 0 (.atLeast 0 .integer)
    <*> Decoder.part es ["errorMessageId", "error_message_id"] none (.optional .text)

end LinkDeclaration

/-- The contents of a declarations file. -/
structure Declarations where
  records : List RecordDeclaration
  links : List LinkDeclaration
  deriving DecidableEq, Repr, Inhabited

namespace Declarations

def decode : Decoder Declarations := Decoder.model fun es =>
  mk <$> Decoder.part es ["records"] [] (.list RecordDeclaration.decode)
    <*> Decoder.part es ["links"] [] (.list LinkDeclaration.decode)

end Declarations

end Tablewright
