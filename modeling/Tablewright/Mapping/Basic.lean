import Tablewright.Diagnostics.Journal
import Tablewright.Schema.Record
import Tablewright.Settings
import Tablewright.Statement

/-! The mapping of a record to its table: which of the record's columns each statement
names, and at which places of a row its parameters are. Each list of fields is in the
order of the marks in the statement's text. -/

namespace Tablewright

structure Mapping where
  schema : RecordSchema
  /-- Whether null in a numeric column counts as zero, both ways. -/
  nullAsZero : Bool
  /-- The expression by which the database stamps a row. -/
  clock : String
  deriving Repr, Inhabited

namespace Mapping

def table (m : Mapping) : String := m.schema.tableName

/-- Rows of a record without keys can be selected by clauses and nothing else. -/
def hasKeys (m : Mapping) : Bool := !m.schema.keyFields.isEmpty

def columns (fields : List Field) : List String := fields.map Field.columnName

def places (fields : List Field) : List Nat := fields.map (·.index)

def types (fields : List Field) : List ValueType := fields.map Field.valueType

/-! ### The fields of each statement -/

def selectFields (m : Mapping) : List Field := m.schema.columnFields

/-- The fields that a row is found by. -/
def whereFields (m : Mapping) : List Field :=
  if m.hasKeys then m.schema.identifyingFields else []

/-- The columns that an insert names. -/
def insertFields (m : Mapping) : List Field :=
  m.schema.columnFields.filter (·.role.any FieldRole.isInserted)

/-- A column's value in an insert: a parameter, or the stamp. -/
def insertTerm (m : Mapping) (f : Field) : Term :=
  if f.role.any FieldRole.stampedOnInsert then .expression m.clock else .parameter

/-- The fields whose values an insert binds. -/
def insertBound (m : Mapping) : List Field :=
  if m.hasKeys then m.insertFields.filter (m.insertTerm · == .parameter) else []

/-- The columns that an update sets. -/
def updateFields (m : Mapping) : List Field :=
  m.schema.columnFields.filter (·.role.any FieldRole.isUpdated)

def updateTerm (m : Mapping) (f : Field) : Term :=
  if f.role.any FieldRole.stampedOnUpdate then .expression m.clock else .parameter

def canUpdate (m : Mapping) : Bool := m.hasKeys && !m.updateFields.isEmpty

/-- What an update finds its row by: besides its keys, the stamp that the row had when it
was read, if changes by others are to be noticed. -/
def updateConditions (m : Mapping) : List Field :=
  m.whereFields ++ m.schema.timestampField?.toList

/-- The fields whose values an update binds: what it sets, then what it finds the row by. -/
def updateBound (m : Mapping) : List Field :=
  if m.canUpdate then m.updateFields.filter (m.updateTerm · == .parameter) ++ m.updateConditions
  else []

/-! ### The statements -/

def selectStatement (m : Mapping) : Statement := .select m.table (columns m.selectFields) []

def readStatement (m : Mapping) : Statement :=
  .select m.table (columns m.selectFields) (columns m.whereFields)

def insertStatement (m : Mapping) : Statement :=
  .insert m.table (m.insertFields.map fun f => ⟨f.columnName, m.insertTerm f⟩)

def updateStatement (m : Mapping) : Statement :=
  .update m.table (m.updateFields.map fun f => ⟨f.columnName, m.updateTerm f⟩)
    (columns m.updateConditions)

def deleteStatement (m : Mapping) : Statement := .delete m.table (columns m.whereFields)

/-! ### The texts that a mapping offers -/

def selectText (m : Mapping) : String := m.selectStatement.toText

def whereText? (m : Mapping) : Option String :=
  if m.hasKeys then some (Statement.whereText (columns m.whereFields)) else none

def insertText? (m : Mapping) : Option String :=
  if m.hasKeys then some m.insertStatement.toText else none

def updateText? (m : Mapping) : Option String :=
  if m.canUpdate then some m.updateStatement.toText else none

def deleteText? (m : Mapping) : Option String :=
  if m.hasKeys then some m.deleteStatement.toText else none

/-- Each statement's name, its text if the record supports it, and the places of its
parameters. -/
def describe (m : Mapping) : List (String × Option String × List Nat) :=
  [("select", some m.selectText, places m.selectFields),
    ("where", m.whereText?, places m.whereFields),
    ("insert", m.insertText?, places m.insertBound),
    ("update", m.updateText?, places m.updateBound),
    ("delete", m.deleteText?, places m.whereFields)]

/-- The mapping in one line. -/
def summary (m : Mapping) : String :=
  "SqlSynthesizer(record=" ++ Text.quoted m.schema.name ++ ", table=" ++ Text.quoted m.table ++ ")"

/-! ### Building -/

/-- What is given, or the setting. An empty expression counts as not given, but the
settings are at hand only if something else was left to them. -/
def chooseClock (settings : Settings) (nullAsZero : Option Bool) : Option String →
    Except Failure String
  | none => .ok settings.timestampFunction
  | some clock =>
    if clock ≠ "" then .ok clock
    else if nullAsZero.isNone then .ok settings.timestampFunction
    else .error .noSettings

/-- Notes what the record does not support. -/
def noteLimits (m : Mapping) : Check Unit :=
  if !m.hasKeys then
    Check.note .debug .synthesizer
      ("No keys defined for " ++ m.schema.name ++ ". Only filter operations are possible.")
  else if m.updateFields.isEmpty then
    Check.note .debug .synthesizer (m.schema.name ++ " has no updatable columns")
  else pure ()

/-- The mapping of a schema that has no faults and names a table. -/
def build (settings : Settings) (nullAsZero : Option Bool) (clock : Option String)
    (schema : RecordSchema) : Check Mapping := do
  if !schema.isValid then throw (.badSchema schema.name (schema.faults.map SchemaFault.toText))
  if !schema.isDbRecord then
    throw (.badSchema schema.name ["record is not mapped to a table/view"])
  let clock ← .mk (return chooseClock settings nullAsZero clock)
  let m : Mapping := ⟨schema, nullAsZero.getD settings.treatNullAsZero, clock⟩
  m.noteLimits
  return m

end Mapping

end Tablewright
