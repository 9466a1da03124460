import Tablewright.Filter.Condition
import Tablewright.Schema.Input

/-! From a filter request to a clause with bound values. Every condition is looked at and
every problem reported, up to a field that does not exist; nothing comes out if there was
any. A record with a tenant is only ever searched for the caller's. -/

namespace Tablewright

/-- A filter that can be executed. -/
structure CompiledFilter where
  clause : FilterClause
  values : List Value
  types : List ValueType
  /-- The fields to select; none are named where all are wanted. -/
  outputFields : List Field
  sorts : List (Field × Bool)
  deriving Repr, Inhabited

namespace CompiledFilter

def clauseText (c : CompiledFilter) : String := c.clause.toText

def maxRows (c : CompiledFilter) : Int := c.clause.limit

end CompiledFilter

namespace FilterRequest

/-- The conditions so far, with what is bound in them, and whether all were accepted. -/
structure Collected where
  conjuncts : List Conjunct := []
  values : List Value := []
  types : List ValueType := []
  accepted : Bool := true
  deriving Repr, Inhabited

def Collected.add (c : Collected) (conjunct : Conjunct) (values : List Value) (t : ValueType) :
    Collected :=
  { c with
    conjuncts := c.conjuncts ++ [conjunct]
    values := c.values ++ values
    types := c.types ++ values.map fun _ => t }

/-- Notes a problem and reports it, on a field if it is one of a field. -/
def reject (text : String) (field : Option String) : Check Unit := do
  Check.note .error .filters text
  Check.report (match field with
    | some name => .fieldError name text
    | none => .error text)

/-- The condition on the tenant, for a record that has one. Nothing comes out if the
caller's tenant is not known. -/
def collectTenant (s : RecordSchema) (tenant : Value) : Check (Option Collected) := do
  match s.tenantField with
  | none => return some {}
  | some f =>
    if tenant.isNull then
      reject ("Record " ++ s.name ++ " is scoped by tenant, but no tenant id is available") none
      return none
    else return some (({} : Collected).add (.tenant f.columnText) [tenant] f.valueType)

/-- One condition on a field that exists. -/
def collectCondition (s : RecordSchema) (index : Nat) (c : FilterCondition) (f : Field)
    (sofar : Collected) : Check Collected := do
  match ← .mk (return (c.resolve s index f).run) with
  | .ok (conjunct, values) => return sofar.add conjunct values f.valueType
  | .error fault =>
    reject fault.toText (some f.name)
    return { sofar with accepted := false }

/-- All conditions, in order. A field that does not exist ends it: nothing after it can be
trusted. -/
def collect (s : RecordSchema) : List FilterCondition → Nat → Collected → Check (Option Collected)
  | [], _, sofar => return if sofar.accepted then some sofar else none
  | c :: cs, index, sofar =>
    match s.field? c.field with
    | none => do
      reject ("Filter field " ++ c.field ++ " does not exist in the record " ++ s.name)
        (some c.field)
      return none
    | some f => do collect s cs (index + 1) (← collectCondition s index c f sofar)

/-- The column field of a name. -/
def columnField? (s : RecordSchema) (name : String) : Option Field :=
  (s.field? name).filter Field.isColumn

/-- The fields to select. A name that is none of a column is dropped with a warning. -/
def readOutputFields (s : RecordSchema) : List String → Check (List Field)
  | [] => return []
  | name :: names =>
    match columnField? s name with
    | some f => return f :: (← readOutputFields s names)
    | none => do
      Check.note .warning .filters
        (name ++ " is not a valid field in this record. Field dropped from selection list.")
      readOutputFields s names

/-- The fields to sort by. A name that is none of a column is ignored with a warning. -/
def readSorts (s : RecordSchema) : List SortBy → Check (List (Field × Bool))
  | [] => return []
  | sort :: sorts =>
    match columnField? s sort.field with
    | some f => return (f, sort.descending) :: (← readSorts s sorts)
    | none => do
      Check.note .warning .filters
        (sort.field ++ " is not a field in the record. Sort order ignored")
      readSorts s sorts

/-- The limit asked for, if it is within the bound, or the bound itself. -/
def rowLimit (requested : Option Int) (bound : Int) : Int :=
  match requested with
  | some n => if 0 < n ∧ n ≤ bound then n else bound
  | none => bound

/-- The filter for a request whose conditions were all accepted. -/
def finish (s : RecordSchema) (request : FilterRequest) (bound : Int) (c : Collected) :
    Check CompiledFilter := do
  let outputFields ← readOutputFields s (request.outputFields.getD [])
  let sorts ← readSorts s request.sorts
  let compiled : CompiledFilter := {
    clause := {
      conjuncts := c.conjuncts
      sorts := sorts.map fun (f, descending) => ⟨f.columnName, descending⟩
      limit := rowLimit request.maxRows bound }
    values := c.values
    types := c.types
    outputFields := outputFields
    sorts := sorts }
  Check.note .info .filters ("filter clause is: " ++ compiled.clauseText)
  return compiled

/-- Compiles a request for a caller of a tenant, for at most so many rows. -/
def compile (s : RecordSchema) (request : FilterRequest) (tenant : Value) (bound : Int) :
    Check (Option CompiledFilter) := do
  match ← collectTenant s tenant with
  | none => return none
  | some sofar =>
    if request.filters.isEmpty then
      Check.note .warning .filters "payload for filter has no conditions. All rows will be filtered"
    match ← collect s request.filters 0 sofar with
    | none => return none
    | some c => return some (← request.finish s bound c)

end FilterRequest

end Tablewright
