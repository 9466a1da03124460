import Tablewright.Schema.Field

/-! The schema of a record: its fields in row order, and which of them play which role.
A schema with faults is kept, so that it can be looked at, but nothing is built on it. -/

namespace Tablewright

/-- A row holds one value per field. -/
abbrev Row := List Value

/-- What can be wrong with a record as a whole. -/
inductive SchemaFault where
  | noColumn (field : String) (role : FieldRole)
  | unknownListKey (field key : String)
  | noKeyedList (field key : String)
  | noListKey (field : String)
  | repeatedField (field : String)
  | keyAfterGenerated (generated field : String)
  | generatedTwice (generated field : String)
  | generatedAfterKey (field key : String)
  | tenantTwice (tenant field : String)
  | auditTwice (role : FieldRole) (existing field : String)
  deriving DecidableEq, Repr, Inhabited

namespace SchemaFault

def toText : SchemaFault → String
  | noColumn field role => "field " ++ field ++ " has role " ++ role.name ++ " but no column name"
  | unknownListKey field key =>
    "field " ++ field ++ " specifies " ++ key ++ " as listKey, but that field is not defined"
  | noKeyedList field key =>
    "field " ++ field ++ " specifies " ++ key ++ " as listKey, but has no keyed value list"
  | noListKey field => "field " ++ field ++ " has a keyed value list but no listKey"
  | repeatedField field => "field " ++ field ++ " is declared more than once"
  | keyAfterGenerated generated field =>
    generated ++ " is a generated primary key, but " ++ field ++ " is also a primary key"
  | generatedTwice generated field =>
    "only one generated key please; found " ++ generated ++ " as well as " ++ field
  | generatedAfterKey field key =>
    field ++ " is a generated primary key, but " ++ key ++ " is also a primary key"
  | tenantTwice tenant field =>
    "both " ++ tenant ++ " and " ++ field ++ " are tenant keys; tenant key has to be unique"
  | auditTwice role existing field =>
    "only one field can be " ++ role.name ++ ", but " ++ existing ++ " and " ++ field ++ " are marked"

end SchemaFault

structure RecordSchema where
  name : String
  nameInDb : Option String
  fields : List Field
  keyFields : List Field
  generatedKey : Option Field
  tenantField : Option Field
  auditFields : List (FieldRole × Field)
  useTimestampCheck : Bool
  operations : List Operation
  faults : List SchemaFault
  deriving Repr, Inhabited

namespace RecordSchema

def isValid (s : RecordSchema) : Bool := s.faults.isEmpty

/-- Whether the record is kept in a table or view. -/
def isDbRecord (s : RecordSchema) : Bool := s.nameInDb.any (· != "")

/-- The name of the table, for a record that has one. -/
def tableName (s : RecordSchema) : String := s.nameInDb.getD ""

def auditField? (s : RecordSchema) (role : FieldRole) : Option Field :=
  (s.auditFields.find? (·.1 == role)).map (·.2)

/-- The field whose stamp tells whether somebody else has changed a row. -/
def timestampField? (s : RecordSchema) : Option Field :=
  if s.useTimestampCheck then s.auditField? .modifiedAt else none

def columnFields (s : RecordSchema) : List Field := s.fields.filter Field.isColumn

/-- The fields whose values are checked against a list that the row selects. -/
def dependentFields (s : RecordSchema) : List Field := s.fields.filter (·.listKey.isSome)

/-- The field of a name; of several, the last one. -/
def field? (s : RecordSchema) (name : String) : Option Field :=
  s.fields.reverse.find? (·.name == name)

/-- A row of default values. -/
def newRow (s : RecordSchema) : Row := s.fields.map (·.default)

/-- The value at a field's place. -/
def at? (row : Row) (f : Field) : Except Failure Value :=
  match row[f.index]? with
  | some v => .ok v
  | none => .error .rowPosition

/-- A row from values under field names. Unknown names are ignored. -/
def rowFrom (s : RecordSchema) (values : List (String × Value)) : Row :=
  values.foldl
    (fun row (name, v) => match s.field? name with
      | some f => row.set f.index v
      | none => row)
    s.newRow

/-- The values of a row under their fields' names. -/
def toEntries (s : RecordSchema) (row : Row) : Except Failure (List (String × Value)) :=
  s.fields.mapM fun f => (at? row f).map (f.name, ·)

/-- The fields that tell a row from all others: the keys, then the tenant. -/
def identifyingFields (s : RecordSchema) : List Field := s.keyFields ++ s.tenantField.toList

/-- The values that tell a row from all others, for log lines and errors. -/
def emitKeys (s : RecordSchema) (row : Row) : Except Failure String :=
  if s.keyFields.isEmpty then .ok "No keys"
  else
    (s.identifyingFields.mapM fun f => (at? row f).map fun v => f.name ++ " = " ++ v.display).map
      ("  ".intercalate ·)

/-- The schema in one line. -/
def summary (s : RecordSchema) : String :=
  "RecordSchema(name=" ++ Text.quoted s.name ++ ", fields=" ++ Integer.toText s.fields.length ++
    ", valid=" ++ Value.boolText s.isValid ++ ")"

end RecordSchema

end Tablewright
