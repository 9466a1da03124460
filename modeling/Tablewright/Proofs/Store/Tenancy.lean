import Tablewright.Proofs.Filter.Meaning
import Tablewright.Proofs.Store.Invariant
import Tablewright.Proofs.Store.Reference
import Tablewright.Proofs.Store.Written

/-! Statements of a mapping whose rows belong to tenants. Whatever a row of a tenant binds,
the statements leave the rows of all other tenants as they are: an insert adds a row of this
tenant, and updates and deletes have the tenant among their conditions, while no statement
writes over its column. -/

namespace Tablewright.Mapping

open TableStore

/-- A mapping whose rows belong to tenants, and one of the tenants. -/
structure Scoped (m : Mapping) (t : Field) (tenant : Value) : Prop where
  sound : m.schema.Sound
  keys : m.hasKeys = true
  field : m.schema.tenantField = some t
  names : (columns m.selectFields).Nodup
  known : tenant.isNull = false

/-- A row that carries a tenant. -/
def Carries (t : Field) (tenant : Value) (row : Row) : Prop := row[t.index]? = some tenant

/-- The rows of other tenants are the same in both stores. -/
def SameOthers (m : Mapping) (t : Field) (tenant : Value) (s s' : TableStore) : Prop :=
  others (s'.table m.table).rows t.columnName tenant =
    others (s.table m.table).rows t.columnName tenant

namespace Scoped

variable {m : Mapping} {t : Field} {tenant : Value} {row : Row} (h : m.Scoped t tenant)
include h

theorem keyed : m.Keyed := ⟨h.sound, h.keys, h.names⟩

theorem role : t.role = some .tenantKey := (h.sound.tenant_mem h.field).2

theorem mem_whereFields : t ∈ m.whereFields := tenant_mem_whereFields h.keys h.field

theorem mem_selectFields : t ∈ m.selectFields :=
  updateConditions_columns h.sound t (List.mem_append_left _ h.mem_whereFields)

theorem mem_insertBound : t ∈ m.insertBound := tenant_mem_insertBound h.sound h.keys h.field

/-- What a row of the tenant binds for the tenant's field is the tenant. -/
theorem boundValue_eq (hrow : Carries t tenant row) : m.boundValue t row = tenant := by
  rw [boundValue, List.getD_eq_getElem?_getD, hrow, Option.getD_some, fill_of_not_null h.known]

theorem mem_bound {fs : List Field} (ht : t ∈ fs) (hrow : Carries t tenant row) :
    (t.columnName, tenant) ∈ (columns fs).zip (m.boundValues fs row) := by
  have hbound := Mapping.mem_bound m ht row
  rwa [h.boundValue_eq hrow] at hbound

/-! ## What statements write -/

theorem newRow_belongs (s : TableStore) (hrow : Carries t tenant row) :
    (m.insertedRow row s).BelongsTo t.columnName tenant :=
  .inl ((h.keyed.column_inserted h.mem_insertBound row s).trans (h.boundValue_eq hrow))

/-- No update writes the column of the tenant, by parameter or by stamp. -/
theorem notMem_updateFields (q : Field → Bool) :
    t.columnName ∉ columns (m.updateFields.filter q) := by
  refine h.keyed.notMem_columns h.mem_selectFields ?_ fun hm => ?_
  · exact (List.filter_sublist.trans sublist_updateFields).subset
  · have hupdated := (List.mem_filter.mp (List.mem_filter.mp hm).1).2
    simp [h.role, FieldRole.isUpdated] at hupdated

theorem sameOthers_insert (hrow : Carries t tenant row) (s : TableStore) :
    m.SameOthers t tenant s (s.perform (m.boundValues m.insertBound row)
      (m.schema.generatedKey.map (·.columnName)) m.insertStatement.stored).2 :=
  others_insert (h.newRow_belongs s hrow)

theorem sameOthers_update (hc : m.canUpdate = true) (hrow : Carries t tenant row)
    (s : TableStore) : m.SameOthers t tenant s
      (s.perform (m.boundValues m.updateBound row) none m.updateStatement.stored).2 := by
  have hstored : m.updateStatement.stored =
      .update m.table m.updateEntries (columns m.updateConditions) := rfl
  rw [hstored]
  refine others_update ?_ ?_
  · rw [parameterCount_update, drop_updateBound hc]
    exact h.mem_bound (List.mem_append_left _ h.mem_whereFields) hrow
  · rw [bound_update, stamped_update, ← updateBoundFields_eq, List.mem_append, not_or]
    refine ⟨fun hm => ?_, h.notMem_updateFields _⟩
    obtain ⟨e, he, hname⟩ := List.mem_map.mp hm
    exact h.notMem_updateFields _ (hname ▸ (List.of_mem_zip he).1)

theorem sameOthers_delete (hrow : Carries t tenant row) (s : TableStore) :
    m.SameOthers t tenant s
      (s.perform (m.boundValues m.whereFields row) none m.deleteStatement.stored).2 :=
  others_delete (h.mem_bound h.mem_whereFields hrow)

/-- The statements of the mapping leave the rows of other tenants as they are, whatever row
of the tenant they bind. -/
theorem respects (u : Casing) (reads : String → Option Sql.Query) (s₀ : TableStore) :
    m.Respects (.reference m.statements u reads) (m.SameOthers t tenant s₀) (Carries t tenant) where
  insert _ row hrow s hs := by
    rw [Dialect.execute_known (find_statement (by simp [statements]))]
    exact (h.sameOthers_insert hrow s).trans hs
  update hc row hrow s hs := by
    rw [Dialect.execute_known (find_statement (by simp [statements]))]
    exact (h.sameOthers_update hc hrow s).trans hs
  delete _ row hrow s hs := by
    rw [Dialect.execute_known (find_statement (by simp [statements]))]
    exact (h.sameOthers_delete hrow s).trans hs
  key g v hg row hrow := by
    obtain ⟨hgm, hgr⟩ := h.sound.generated_mem hg
    have hne : g.index ≠ t.index := by
      intro hi
      have := h.sound.eq_of_index (List.mem_filter.mp hgm).1 (h.sound.tenant_mem h.field).1 hi
      rw [this, h.role] at hgr
      cases hgr
    rw [Carries, List.getElem?_set_ne hne]
    exact hrow

/-! ## What queries find -/

/-- What is read by a row of the tenant comes from a row of the tenant. -/
theorem find_read {s : TableStore} {result : List Value} {results : List (List Value)}
    (hrow : Carries t tenant row)
    (hfind : s.find (m.boundValues m.whereFields row) m.readStatement.stored = .ok results)
    (hm : result ∈ results) : ∃ stored ∈ (s.table m.table).rows,
      stored.BelongsTo t.columnName tenant ∧
        result = (columns m.selectFields).map stored.column := by
  obtain rfl := Except.ok.inj hfind
  obtain ⟨stored, hs, rfl⟩ := List.mem_map.mp hm
  obtain ⟨hs, hagrees⟩ := List.mem_filter.mp hs
  have hbound := h.mem_bound h.mem_whereFields hrow
  exact ⟨stored, hs, StoredRow.belongsTo_of_agrees hagrees hbound, rfl⟩

/-- What a filter for the tenant finds comes from rows of the tenant. -/
theorem answer_filter {request : FilterRequest} {bound : Int} {c : CompiledFilter} {j k : Journal}
    (hc : (request.compile m.schema tenant bound).Returns j (some c) k) (u : Casing) (s : TableStore)
    {result : List Value} (hm : result ∈ (m.filterQuery c).answer u c.values s) :
    ∃ stored ∈ (s.table m.table).rows, stored.BelongsTo t.columnName tenant ∧
      result = (columns (m.filterFields c)).map stored.column := by
  obtain ⟨stored, hs, rfl⟩ := List.mem_map.mp hm
  obtain ⟨hs, hselects⟩ := List.mem_filter.mp (List.mem_mergeSort.mp (List.mem_of_mem_take hs))
  refine ⟨stored, hs, ?_, rfl⟩
  obtain ⟨b, hb, hiff⟩ := FilterRequest.selects_compiled h.sound hc u stored.column
  have hclause : (m.filterQuery c).clause = Sql.clauseOf c.clause := rfl
  rw [hclause, hb, beq_iff_eq, Option.some.injEq] at hselects
  have htenant := (hiff.mp hselects).1 t h.field
  exact .inr (Value.same_of_order (Comparison.order_of_eq htenant))

end Scoped

end Tablewright.Mapping
