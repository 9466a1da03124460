import Tablewright.Schema.Record

/-! Rows from client input. Every field is looked at and every problem reported, so that
the caller sees all of them at once. Tenant and user come from the request's context and
never from the input. -/

namespace Tablewright

/-- What the surrounding application knows about a request. -/
structure RequestContext where
  tenant : Value := .null
  user : Value := .null
  deriving Repr, Inhabited

/-- How input is read: for an insert or an update, with which fields left to the caller,
and with which names in messages. -/
structure InputMode where
  forInsert : Bool := true
  /-- Places that the caller fills afterwards. -/
  skip : List Nat := []
  /-- Rows that may be updated or inserted can have their generated key or not. -/
  optionalGeneratedKey : Bool := false
  object : Option String := none
  rowNumber : Option Int := none
  deriving Repr, Inhabited

namespace RecordSchema

/-- The payload's value under a name. Only a map has any. -/
def payloadValue (payload : Value) (name : String) : Except Failure Value :=
  match payload with
  | .map es => .ok (Value.ofOption (Entries.get? name es))
  | _ => .error .notAMap

/-- Null and blank text are no input. -/
def isMissing : Value → Bool
  | .null => true
  | .text s => Text.isBlankText s
  | _ => false

/-- Whether missing input is an error: the field is required, or it is the generated key
by which a row is updated. -/
def needsInput (mode : InputMode) (f : Field) : Bool :=
  f.required ||
    (f.role == some .generatedPrimaryKey && !mode.forInsert && !mode.optionalGeneratedKey)

def requiredMessage (mode : InputMode) (f : Field) : Message :=
  .fieldError f.name (f.name ++ " requires a value") Message.valueRequired mode.object mode.rowNumber

def invalidMessage (mode : InputMode) (f : Field) (raw : Value) : Message :=
  .fieldError f.name ("'" ++ raw.display ++ "' is not a valid value for " ++ f.name)
    Message.invalidData mode.object mode.rowNumber

/-- What becomes of a field's place in the row. -/
inductive Entry where
  | keep
  | put (v : Value)
  | rejected
  deriving Repr, Inhabited

/-- The place of a field that is read from the payload. -/
def readPayload (mode : InputMode) (payload : Value) (f : Field) : Check Entry := do
  let raw ← .mk (return payloadValue payload f.name)
  if isMissing raw then
    if needsInput mode f then
      Check.note .error .schema ("Field " ++ f.name ++ " is required but no data is received")
      Check.report (requiredMessage mode f)
      return .rejected
    else return .keep
  else match ← .mk (return f.parse raw) with
    | some v => return .put v
    | none =>
      Check.note .error .schema (raw.literal ++ " is not valid for field " ++ f.name ++
        " as per value schema " ++ f.schema.name)
      Check.report (invalidMessage mode f raw)
      return .rejected

/-- The place of a field: the context's tenant and user in theirs, nothing for a key that
the database generates, and the payload's value for every other. -/
def readField (ctx : RequestContext) (mode : InputMode) (payload : Value) (f : Field) :
    Check Entry :=
  if mode.skip.contains f.index then return .keep
  else match f.role with
    | some .tenantKey => return .put ctx.tenant
    | some .createdBy | some .modifiedBy => return .put ctx.user
    | some .generatedPrimaryKey =>
      if mode.forInsert then return .keep else readPayload mode payload f
    | _ => readPayload mode payload f

/-- A row, and whether everything that went into it was accepted. -/
structure Reading where
  row : Row
  accepted : Bool := true
  deriving Repr, Inhabited

def Reading.enter (r : Reading) (f : Field) : Entry → Reading
  | .keep => r
  | .put v => { r with row := r.row.set f.index v }
  | .rejected => { r with accepted := false }

/-- One more field read into the row. -/
def readInto (ctx : RequestContext) (mode : InputMode) (payload : Value) (r : Reading) (f : Field) :
    Check Reading :=
  return r.enter f (← readField ctx mode payload f)

def dependentMessage (mode : InputMode) (f : Field) (v : Value) (keyName : String) (key : Value) :
    Message :=
  .fieldError f.name
    ("'" ++ v.display ++ "' is not a valid value for " ++ f.name ++ " with " ++ keyName ++ " '" ++
      key.display ++ "'")
    Message.invalidData mode.object mode.rowNumber

/-- Whether a field's value is in the list that its row selects. Places left to the caller
and null are not looked at. -/
def checkDependent (s : RecordSchema) (mode : InputMode) (row : Row) (f : Field) : Check Bool := do
  match f.list, f.listKey.bind (s.fields[·]?) with
  | some l, some keyField =>
    let v := row.getD f.index .null
    let key := row.getD keyField.index .null
    if mode.skip.contains f.index || v.isNull then return true
    else if ← l.admits v f.valueType key then return true
    else
      Check.note .error .schema (v.literal ++ " is not valid for field " ++ f.name ++ " when " ++
        keyField.name ++ " is " ++ key.literal)
      Check.report (dependentMessage mode f v keyField.name key)
      return false
  | _, _ => return true

def checkNext (s : RecordSchema) (mode : InputMode) (row : Row) (ok : Bool) (f : Field) :
    Check Bool :=
  return (← s.checkDependent mode row f) && ok

/-- The row that a payload describes. Keyed value lists are checked once the whole row is
read. Nothing comes out if any field was rejected. -/
def parseRow (s : RecordSchema) (ctx : RequestContext) (mode : InputMode) (payload : Value) :
    Check (Option Row) := do
  let reading ← s.fields.foldlM (readInto ctx mode payload) { row := s.newRow }
  let ok ← s.dependentFields.foldlM (s.checkNext mode reading.row) reading.accepted
  return if ok then some reading.row else none

/-! ### Keys only -/

/-- The place of a key field. -/
def readKey (payload : Value) (f : Field) : Check Entry := do
  let raw ← .mk (return payloadValue payload f.name)
  if isMissing raw then
    Check.report (requiredMessage {} f)
    return .rejected
  else match ← .mk (return f.parse raw) with
    | some v => return .put v
    | none =>
      Check.report (invalidMessage {} f raw)
      return .rejected

def readKeyInto (payload : Value) (r : Reading) (f : Field) : Check Reading :=
  return r.enter f (← readKey payload f)

/-- A row with the keys of a payload and the context's tenant. -/
def parseKeys (s : RecordSchema) (ctx : RequestContext) (payload : Value) : Check (Option Row) := do
  if s.keyFields.isEmpty then
    Check.note .error .schema ("No keys defined for record " ++ s.name)
    Check.report (.error (s.name ++ " has no key fields") Message.internalError)
    return none
  else
    let row := match s.tenantField with
      | some t => s.newRow.set t.index ctx.tenant
      | none => s.newRow
    let reading ← s.keyFields.foldlM (readKeyInto payload) { row := row }
    return if reading.accepted then some reading.row else none

end RecordSchema

end Tablewright
