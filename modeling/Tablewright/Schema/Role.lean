import Tablewright.Text.Blank

/-! Roles of fields in their table, and the operations that a record is open to. A role
decides in which statements its column takes part, and whether the column's value comes
from the row or from the database clock. -/

namespace Tablewright

inductive FieldRole where
  | primaryKey
  | generatedPrimaryKey
  | tenantKey
  | createdAt
  | createdBy
  | modifiedAt
  | modifiedBy
  | requiredData
  | optionalData
  deriving DecidableEq, Repr, Inhabited

namespace FieldRole

def all : List FieldRole :=
  [primaryKey, generatedPrimaryKey, tenantKey, createdAt, createdBy, modifiedAt, modifiedBy,
    requiredData, optionalData]

def name : FieldRole → String
  | primaryKey => "primaryKey"
  | generatedPrimaryKey => "generatedPrimaryKey"
  | tenantKey => "tenantKey"
  | createdAt => "createdAt"
  | createdBy => "createdBy"
  | modifiedAt => "modifiedAt"
  | modifiedBy => "modifiedBy"
  | requiredData => "requiredData"
  | optionalData => "optionalData"

/-- Every column is inserted but one that the database generates. -/
def isInserted (r : FieldRole) : Bool := r != generatedPrimaryKey

/-- Keys, the tenant and the marks of creation never change. -/
def isUpdated : FieldRole → Bool
  | modifiedAt | modifiedBy | requiredData | optionalData => true
  | _ => false

def isRequired : FieldRole → Bool
  | primaryKey | tenantKey | requiredData => true
  | _ => false

/-- Whether an insert stamps the column by the database clock. -/
def stampedOnInsert : FieldRole → Bool
  | createdAt | modifiedAt => true
  | _ => false

/-- Whether an update stamps the column by the database clock. -/
def stampedOnUpdate (r : FieldRole) : Bool := r == modifiedAt

def isKey : FieldRole → Bool
  | primaryKey | generatedPrimaryKey => true
  | _ => false

def isUserId : FieldRole → Bool
  | createdBy | modifiedBy => true
  | _ => false

/-- The roles that tell who wrote a row and when. -/
def isAudit : FieldRole → Bool
  | createdAt | createdBy | modifiedAt | modifiedBy => true
  | _ => false

end FieldRole

/-- What a record may be exposed for. -/
inductive Operation where
  | get
  | create
  | update
  | delete
  | filter
  deriving DecidableEq, Repr, Inhabited

namespace Operation

def all : List Operation := [get, create, update, delete, filter]

def name : Operation → String
  | get => "get"
  | create => "create"
  | update => "update"
  | delete => "delete"
  | filter => "filter"

/-- The operation of exactly this name. -/
def ofName? (s : String) : Option Operation := all.find? (·.name == s)

/-- The operation that a text names, white space at its ends and case aside. -/
def parse? (s : String) : Option Operation := ofName? ((Text.strip s).map Char.toLower)

end Operation

end Tablewright
