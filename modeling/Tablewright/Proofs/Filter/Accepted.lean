import Tablewright.Filter.Compile
import Tablewright.Proofs.Ending
import Tablewright.Proofs.Filter.Resolution

/-! What an accepted request is compiled to. Every condition contributes its own part, in
the order of the request and behind the tenant's: a conjunct, and the values that its
marks are bound to. Nothing else of the conditions is kept. -/

namespace Tablewright.FilterRequest

open Check

/-- What one condition puts into a filter. -/
structure Part where
  field : Field
  conjunct : Conjunct
  values : List Value

/-- The types that the values are bound with. -/
def Part.types (p : Part) : List ValueType := p.values.map fun _ => p.field.valueType

/-- The part that a condition contributes. -/
def Contributes (s : RecordSchema) (c : FilterCondition) (p : Part) : Prop :=
  s.field? c.field = some p.field ∧ c.Resolves s p.field p.conjunct p.values

/-- The part that a condition is resolved to, wherever it stands in the request. -/
def Supplies (s : RecordSchema) (c : FilterCondition) (p : Part) : Prop :=
  s.field? c.field = some p.field ∧
    ∃ index, Resolve.Gives (c.resolve s index p.field) (p.conjunct, p.values)

theorem Supplies.contributes {s : RecordSchema} {c : FilterCondition} {p : Part}
    (h : Supplies s c p) : Contributes s c p := by
  obtain ⟨hf, index, hgives⟩ := h
  exact ⟨hf, FilterCondition.gives_resolve hgives⟩

/-- The part that keeps a filter within a tenant. -/
def tenantPart (f : Field) (tenant : Value) : Part := ⟨f, .tenant f.columnText, [tenant]⟩

def tenantParts (s : RecordSchema) (tenant : Value) : List Part :=
  s.tenantField.toList.map (tenantPart · tenant)

/-- The conditions so far with the parts of some more. -/
def Collected.append (c : Collected) (parts : List Part) : Collected :=
  { c with
    conjuncts := c.conjuncts ++ parts.map (·.conjunct)
    values := c.values ++ parts.flatMap (·.values)
    types := c.types ++ parts.flatMap (·.types) }

@[simp] theorem Collected.append_nil (c : Collected) : c.append [] = c := by
  simp [append]

theorem Collected.append_cons (c : Collected) (p : Part) (parts : List Part) :
    c.append (p :: parts) = (c.add p.conjunct p.values p.field.valueType).append parts := by
  simp [append, add, Part.types]

theorem Collected.append_append (c : Collected) (ps qs : List Part) :
    (c.append ps).append qs = c.append (ps ++ qs) := by
  simp [append]

theorem ends_reject {text : String} {field : Option String} : (reject text field).Ends (.ok ())
    [match field with
      | some name => .fieldError name text
      | none => .error text] := ends_note.then ends_report

theorem ends_collectTenant_unknown {s : RecordSchema} {tenant : Value}
    (h : (s.tenantField.isSome && tenant.isNull) = true) : (collectTenant s tenant).Ends (.ok none)
      [.error ("Record " ++ s.name ++ " is scoped by tenant, but no tenant id is available")] := by
  obtain ⟨htenant, hnull⟩ := Bool.and_eq_true_iff.mp h
  obtain ⟨f, hf⟩ := Option.isSome_iff_exists.mp htenant
  simp only [collectTenant, hf, hnull, if_true]
  exact ends_reject.bind ends_pure

theorem ends_collectTenant {s : RecordSchema} {tenant : Value}
    (h : ¬ (s.tenantField.isSome && tenant.isNull) = true) : (collectTenant s tenant).Ends
      (.ok (some (({} : Collected).append (tenantParts s tenant)))) [] := by
  unfold collectTenant tenantParts
  cases hf : s.tenantField with
  | none => exact ends_pure
  | some f =>
    rw [hf, Option.isSome_some, Bool.true_and] at h
    simp only [if_neg h]
    exact ends_pure

theorem returns_collectTenant {s : RecordSchema} {tenant : Value} {c : Collected} {j k : Journal}
    (h : (collectTenant s tenant).Returns j (some c) k) :
    (s.tenantField.isSome = true → tenant.isNull = false) ∧
      c = ({} : Collected).append (tenantParts s tenant) := by
  by_cases hunknown : (s.tenantField.isSome && tenant.isNull) = true
  · cases ((ends_collectTenant_unknown hunknown).eq_of_returns h).1
  · obtain ⟨hc, -⟩ := (ends_collectTenant hunknown).eq_of_returns h
    exact ⟨by simpa using hunknown, Option.some.inj hc⟩

/-- Either the condition was accepted and has contributed its part, or the filter can no
longer be. -/
theorem returns_collectCondition {s : RecordSchema} {index : Nat} {c : FilterCondition}
    {f : Field} {sofar d : Collected} {j k : Journal}
    (h : (collectCondition s index c f sofar).Returns j d k) :
    (∃ conjunct values, Resolve.Gives (c.resolve s index f) (conjunct, values) ∧
        d = sofar.add conjunct values f.valueType) ∨ d.accepted = false := by
  rw [collectCondition, returns_bind] at h
  obtain ⟨r, _, hr, h⟩ := h
  obtain ⟨hr, -⟩ := returns_known.mp hr
  cases r with
  | ok p =>
    exact .inl ⟨p.1, p.2, hr, (returns_pure.mp h).1.symm⟩
  | error fault =>
    obtain ⟨_, _, _, h⟩ := returns_bind.mp h
    exact .inr (by rw [← (returns_pure.mp h).1])

/-- A filter whose conditions are not all accepted never comes out. -/
theorem returns_collect {s : RecordSchema} {cs : List FilterCondition} {index : Nat}
    {sofar c : Collected} {j k : Journal} (h : (collect s cs index sofar).Returns j (some c) k) :
    sofar.accepted = true ∧
      ∃ parts, List.Forall₂ (Supplies s) cs parts ∧ c = sofar.append parts := by
  induction cs generalizing index sofar j with
  | nil =>
    unfold collect at h
    split at h
    · rename_i ha
      obtain ⟨⟨⟩, -⟩ := returns_pure.mp h
      exact ⟨ha, [], .nil, by simp⟩
    · cases (returns_pure.mp h).1
  | cons cond cs ih =>
    unfold collect at h
    split at h
    · obtain ⟨_, _, _, h⟩ := returns_bind.mp h
      cases (returns_pure.mp h).1
    · rename_i f hf
      obtain ⟨d, _, hd, h⟩ := returns_bind.mp h
      obtain ⟨ha, parts, hparts, hc⟩ := ih h
      rcases returns_collectCondition hd with ⟨conjunct, values, hr, rfl⟩ | hrefused
      · refine ⟨ha, ⟨f, conjunct, values⟩ :: parts, .cons ⟨hf, index, hr⟩ hparts, ?_⟩
        rw [hc, Collected.append_cons]
      · rw [ha] at hrefused
        cases hrefused

theorem ends_readOutputFields {s : RecordSchema} {names : List String} :
    (readOutputFields s names).Ends (.ok (names.filterMap (columnField? s))) [] := by
  induction names with
  | nil => exact ends_pure
  | cons name names ih =>
    unfold readOutputFields
    split
    · rename_i f hf
      rw [List.filterMap_cons_some hf]
      exact ih.map
    · rename_i hnone
      rw [List.filterMap_cons_none hnone]
      exact ends_note.then ih

/-- The field and the direction of a sort whose name is one of a column. -/
def sortColumn? (s : RecordSchema) (sort : SortBy) : Option (Field × Bool) :=
  (columnField? s sort.field).map (·, sort.descending)

theorem ends_readSorts {s : RecordSchema} {sorts : List SortBy} :
    (readSorts s sorts).Ends (.ok (sorts.filterMap (sortColumn? s))) [] := by
  induction sorts with
  | nil => exact ends_pure
  | cons sort sorts ih =>
    unfold readSorts
    split
    · rename_i f hf
      have hsort : sortColumn? s sort = some (f, sort.descending) := by rw [sortColumn?, hf]; rfl
      rw [List.filterMap_cons_some hsort]
      exact ih.map
    · rename_i hnone
      have hsort : sortColumn? s sort = none := by rw [sortColumn?, hnone]; rfl
      rw [List.filterMap_cons_none hsort]
      exact ends_note.then ih

/-- The filter made of what was collected, with the caller's choices of order, limit and fields. -/
def Collected.filter (c : Collected) (s : RecordSchema) (request : FilterRequest) (bound : Int) :
    CompiledFilter :=
  let sorts := request.sorts.filterMap (sortColumn? s)
  { clause := {
      conjuncts := c.conjuncts
      sorts := sorts.map fun e => ⟨e.1.columnName, e.2⟩
      limit := rowLimit request.maxRows bound }
    values := c.values
    types := c.types
    outputFields := (request.outputFields.getD []).filterMap (columnField? s)
    sorts := sorts }

theorem ends_finish (request : FilterRequest) (s : RecordSchema) (bound : Int) (c : Collected) :
    (request.finish s bound c).Ends (.ok (c.filter s request bound)) [] :=
  ends_readOutputFields.then (ends_readSorts.then (ends_note.then ends_pure))

/-- The filter made of some parts. -/
def filterOf (s : RecordSchema) (request : FilterRequest) (bound : Int) (parts : List Part) :
    CompiledFilter :=
  let sorts := request.sorts.filterMap (sortColumn? s)
  { clause := {
      conjuncts := parts.map (·.conjunct)
      sorts := sorts.map fun e => ⟨e.1.columnName, e.2⟩
      limit := rowLimit request.maxRows bound }
    values := parts.flatMap (·.values)
    types := parts.flatMap (·.types)
    outputFields := (request.outputFields.getD []).filterMap (columnField? s)
    sorts := sorts }

theorem filter_append (s : RecordSchema) (request : FilterRequest) (bound : Int)
    (parts : List Part) :
    (({} : Collected).append parts).filter s request bound = filterOf s request bound parts := by
  simp [Collected.filter, Collected.append, filterOf]

/-- The conditions of a request, behind the tenant's. -/
def gather (s : RecordSchema) (filters : List FilterCondition) (tenant : Value) :
    Check (Option Collected) := do
  match ← collectTenant s tenant with
  | none => return none
  | some sofar =>
    if filters.isEmpty then
      Check.note .warning .filters "payload for filter has no conditions. All rows will be filtered"
    collect s filters 0 sofar

theorem returns_gather {s : RecordSchema} {filters : List FilterCondition} {tenant : Value}
    {c : Collected} {j k : Journal} (h : (gather s filters tenant).Returns j (some c) k) :
    (s.tenantField.isSome = true → tenant.isNull = false) ∧
      ∃ parts, List.Forall₂ (Supplies s) filters parts ∧
        c = ({} : Collected).append (tenantParts s tenant ++ parts) := by
  have hnone : ∀ l, ¬ Returns (pure none) l (some c) k := fun l hl => by cases (returns_pure.mp hl).1
  obtain ⟨sofar, _, htenant, h⟩ := returns_bind_found h hnone
  obtain ⟨hnull, rfl⟩ := returns_collectTenant htenant
  have hcollect : ∃ i, (collect s filters 0
      (({} : Collected).append (tenantParts s tenant))).Returns i (some c) k := by
    dsimp only at h
    split at h
    · obtain ⟨_, i, _, h⟩ := returns_bind.mp h
      exact ⟨i, h⟩
    · exact ⟨_, h⟩
  obtain ⟨_, hcollect⟩ := hcollect
  obtain ⟨_, parts, hparts, rfl⟩ := returns_collect hcollect
  exact ⟨hnull, parts, hparts, Collected.append_append ..⟩

theorem compile_eq (request : FilterRequest) (s : RecordSchema) (tenant : Value) (bound : Int) :
    request.compile s tenant bound = gather s request.filters tenant >>= fun r =>
      match r with
      | none => return none
      | some c => do return some (← request.finish s bound c) := by
  rw [gather, bind_assoc]
  refine congrArg _ (funext fun r => ?_)
  cases r with
  | none => rw [pure_bind]
  | some sofar =>
    dsimp only
    split
    · exact (bind_assoc ..).symm
    · rfl

/-- An accepted request is the filter of its parts, the tenant's before all others. -/
theorem supplied_of_returns {s : RecordSchema} {request : FilterRequest} {tenant : Value} {bound : Int}
    {c : CompiledFilter} {j k : Journal}
    (h : (request.compile s tenant bound).Returns j (some c) k) :
    (s.tenantField.isSome = true → tenant.isNull = false) ∧
      ∃ parts, List.Forall₂ (Supplies s) request.filters parts ∧
        c = filterOf s request bound (tenantParts s tenant ++ parts) := by
  have hnone : ∀ l, ¬ Returns (pure none) l (some c) k := fun l hl => by cases (returns_pure.mp hl).1
  rw [compile_eq] at h
  obtain ⟨d, _, hgather, h⟩ := returns_bind_found h hnone
  obtain ⟨hnull, parts, hparts, rfl⟩ := returns_gather hgather
  refine ⟨hnull, parts, hparts, ?_⟩
  obtain ⟨_, _, hfinish, h⟩ := returns_bind.mp h
  obtain ⟨⟨⟩, -⟩ := returns_pure.mp h
  rw [((request.ends_finish s bound _).eq_of_returns hfinish).1, filter_append]

theorem returns_compile {s : RecordSchema} {request : FilterRequest} {tenant : Value} {bound : Int}
    {c : CompiledFilter} {j k : Journal}
    (h : (request.compile s tenant bound).Returns j (some c) k) :
    (s.tenantField.isSome = true → tenant.isNull = false) ∧
      ∃ parts, List.Forall₂ (Contributes s) request.filters parts ∧
        c = filterOf s request bound (tenantParts s tenant ++ parts) := by
  obtain ⟨hnull, parts, hparts, hc⟩ := supplied_of_returns h
  exact ⟨hnull, parts, hparts.imp fun _ _ hsupplies => hsupplies.contributes, hc⟩

/-! ## A search among invoices -/

/-- A search among invoices. -/
def invoiceRequest : FilterRequest where
  filters := [⟨"customer", some "contains", some "Ada", none⟩,
    ⟨"number", some "in", some "1,2,3", none⟩,
    ⟨"total", some "between", some "1", some "$\x7btotal\x7d"⟩]
  sorts := [⟨"dueOn", true⟩]
  maxRows := some 10
  outputFields := some ["number", "customer"]

/-- The same search with literals that look like wild marks, ends of a statement and the
beginning of a reference. -/
def hostileRequest : FilterRequest :=
  { invoiceRequest with
    filters := [⟨"customer", some " CONTAINS ", some "$\x7b%' OR 1=1; --_", none⟩,
      ⟨"number", some "IN", some " -7, 08 ,9.4", none⟩,
      ⟨"total", some "Between", some "1e3", some "$\x7btotal\x7d"⟩] }

end Tablewright.FilterRequest
