import Tablewright.Schema.Declaration
import Tablewright.Schema.Record

/-! From a declaration to a schema. Fields get their places in the order of declaration
and are sorted by role; every fault is noted and kept, and nothing is refused. -/

namespace Tablewright

namespace RecordSchema

/-- What is known of a record after some of its fields. -/
structure Draft where
  fields : List Field := []
  keyFields : List Field := []
  generatedKey : Option Field := none
  tenantField : Option Field := none
  auditFields : List (FieldRole × Field) := []
  faults : List SchemaFault := []
  deriving Repr, Inhabited

/-- The role that a field has: a column without a role holds optional data. -/
def roleOf (d : FieldDeclaration) : Option FieldRole :=
  match d.role, d.columnName with
  | none, some column => if column = "" then none else some .optionalData
  | role, _ => role

def columnFaults (d : FieldDeclaration) : List SchemaFault :=
  match roleOf d with
  | some role => if d.columnName.all (· == "") then [.noColumn d.name role] else []
  | none => []

/-- The place of the field of a name; of several, the last one. -/
def position? (ds : List FieldDeclaration) (name : String) : Option Nat :=
  (ds.zipIdx.reverse.find? (·.1.name == name)).map (·.2)

def hasKeyedList (d : FieldDeclaration) : Bool := d.valueList.any ValueList.isKeyed

/-- The place of the field that selects the list, for a field whose list key stands with
a keyed value list. -/
def listKeyOf (ds : List FieldDeclaration) (d : FieldDeclaration) : Option Nat :=
  if hasKeyedList d then d.listKey.bind (position? ds) else none

def listFaults (ds : List FieldDeclaration) (d : FieldDeclaration) : List SchemaFault :=
  match d.listKey with
  | some key =>
    if (position? ds key).isNone then [.unknownListKey d.name key]
    else if hasKeyedList d then []
    else [.noKeyedList d.name key]
  | none => if hasKeyedList d then [.noListKey d.name] else []

def defaultOf (d : FieldDeclaration) : Except Failure Value :=
  match d.defaultValue with
  | some s => (d.valueSchema.parse (.text s)).map Value.ofOption
  | none => .ok .null

def fieldOf (ds : List FieldDeclaration) (index : Nat) (d : FieldDeclaration) (default : Value) :
    Field where
  index := index
  name := d.name
  schema := d.valueSchema
  column := d.columnName
  role := roleOf d
  required := d.required.getD ((roleOf d).any FieldRole.isRequired)
  default := default
  list := d.valueList
  listKey := listKeyOf ds d

/-- The draft with one more field, and the faults that its name and role add. Of several
fields for a role that only one can have, the first one has it. -/
def Draft.add (draft : Draft) (f : Field) : Draft × List SchemaFault :=
  let repeated := if draft.fields.any (·.name == f.name) then [.repeatedField f.name] else []
  let draft := { draft with fields := draft.fields ++ [f] }
  match f.role with
  | some .primaryKey =>
    ({ draft with keyFields := draft.keyFields ++ [f] },
      repeated ++ draft.generatedKey.toList.map fun g => .keyAfterGenerated g.name f.name)
  | some .generatedPrimaryKey =>
    match draft.generatedKey, draft.keyFields with
    | some g, _ => (draft, repeated ++ [.generatedTwice g.name f.name])
    | none, key :: _ => (draft, repeated ++ [.generatedAfterKey f.name key.name])
    | none, [] =>
      ({ draft with generatedKey := some f, keyFields := draft.keyFields ++ [f] }, repeated)
  | some .tenantKey =>
    match draft.tenantField with
    | some t => (draft, repeated ++ [.tenantTwice t.name f.name])
    | none => ({ draft with tenantField := some f }, repeated)
  | some role =>
    if role.isAudit then
      match draft.auditFields.find? (·.1 == role) with
      | some (_, existing) => (draft, repeated ++ [.auditTwice role existing.name f.name])
      | none => ({ draft with auditFields := draft.auditFields ++ [(role, f)] }, repeated)
    else (draft, repeated)
  | none => (draft, repeated)

/-- Notes faults as they are found and keeps them. -/
def Draft.fault (record : String) (draft : Draft) (faults : List SchemaFault) : Check Draft := do
  faults.forM fun fault =>
    Check.note .error .schema ("[SCHEMA] " ++ record ++ ": " ++ fault.toText)
  return { draft with faults := draft.faults ++ faults }

/-- A column without a role is taken, with a warning. -/
def warnOfMissingRole (d : FieldDeclaration) : Check Unit :=
  match d.role, roleOf d with
  | none, some _ =>
    Check.note .warning .schema (d.name ++ " is linked to db column " ++ d.columnName.getD "" ++
      " but declares no role. It is treated as optional data.")
  | _, _ => pure ()

/-- One declared field added to a draft. -/
def declare (record : String) (ds : List FieldDeclaration) (draft : Draft)
    (next : FieldDeclaration × Nat) : Check Draft := do
  let (d, index) := next
  warnOfMissingRole d
  let draft ← draft.fault record (columnFaults d)
  let default ← .mk (return defaultOf d)
  let draft ← draft.fault record (listFaults ds d)
  let (draft, faults) := draft.add (fieldOf ds index d default)
  draft.fault record faults

/-- The operations that texts name, each once; other texts are ignored with a warning. -/
def readOperations (record : String) : List String → List Operation → Check (List Operation)
  | [], found => return found
  | text :: texts, found =>
    match Operation.parse? text with
    | some op => readOperations record texts (if found.contains op then found else found ++ [op])
    | none => do
      Check.note .warning .schema
        ("Record " ++ record ++ ": " ++ text ++ " is not a valid operation. Ignored.")
      readOperations record texts found

/-- A check on the stamp needs a field that holds it; without one it is given up. -/
def readTimestampCheck (d : RecordDeclaration) (draft : Draft) : Check Bool :=
  if !d.useTimestampCheck then return false
  else if draft.auditFields.any (·.1 == .modifiedAt) then return true
  else do
    Check.note .warning .schema ("Record " ++ d.name ++
      " is designed to use time-stamp for concurrency, but has no modifiedAt field. Check disabled.")
    return false

/-- The schema that a declaration describes. It ends without one only if a default value
cannot be read. -/
def build (d : RecordDeclaration) : Check RecordSchema := do
  let draft ← d.fields.zipIdx.foldlM (declare d.name d.fields) {}
  let useTimestampCheck ← readTimestampCheck d draft
  let operations ← readOperations d.name d.operations []
  if draft.faults.isEmpty then
    Check.note .debug .schema ("Record " ++ d.name ++ " built with " ++
      Integer.toText draft.fields.length ++ " fields")
  else
    Check.note .error .schema ("Record " ++ d.name ++ " has " ++
      Integer.toText draft.faults.length ++ " definition error(s) and must not be used")
  return {
    name := d.name
    nameInDb := d.nameInDb
    fields := draft.fields
    keyFields := draft.keyFields
    generatedKey := draft.generatedKey
    tenantField := draft.tenantField
    auditFields := draft.auditFields
    useTimestampCheck := useTimestampCheck
    operations := operations
    faults := draft.faults }

end RecordSchema

end Tablewright
