import Mathlib.Data.List.Nodup
import Tablewright.Proofs.Mapping.Marshal
import Tablewright.Proofs.Mapping.Places
import Tablewright.Proofs.Store.Rows

/-! What the statements of a mapping write. If all columns have names of their own, then
every column of a row that is inserted holds what its field binds, or the key or the stamp
that the store made for it; and an update writes the columns that it sets and no other. -/

namespace Tablewright.Mapping

open TableStore

/-! ## What statements bind -/

/-- The columns of an insert, with their values. -/
def insertEntries (m : Mapping) : List Assignment :=
  m.insertFields.map fun f => ⟨f.columnName, m.insertTerm f⟩

/-- The columns that an update sets, with their values. -/
def updateEntries (m : Mapping) : List Assignment :=
  m.updateFields.map fun f => ⟨f.columnName, m.updateTerm f⟩

theorem bound_insert {m : Mapping} (hk : m.hasKeys = true) (values : List Value) :
    bound m.insertEntries values = (columns m.insertBound).zip values := by
  rw [bound, insertBound, if_pos hk, columns, insertEntries, List.filter_map, List.map_map]
  rfl

theorem stamped_insert (m : Mapping) :
    stamped m.insertEntries = columns (m.insertFields.filter (m.insertTerm · != .parameter)) := by
  rw [stamped, insertEntries, List.filter_map, List.map_map]
  rfl

theorem bound_update (m : Mapping) (values : List Value) :
    bound m.updateEntries values = (columns (setFields m.schema)).zip values := by
  rw [bound, ← updateBoundFields_eq, columns, updateEntries, List.filter_map, List.map_map]
  rfl

theorem stamped_update (m : Mapping) :
    stamped m.updateEntries = columns (m.updateFields.filter (m.updateTerm · != .parameter)) := by
  rw [stamped, updateEntries, List.filter_map, List.map_map]
  rfl

theorem parameterCount_update (m : Mapping) :
    parameterCount m.updateEntries = (setFields m.schema).length := by
  rw [parameterCount, ← updateBoundFields_eq, updateEntries, List.filter_map, List.length_map]
  rfl

/-- Behind what an update sets are the values of its conditions. -/
theorem drop_updateBound {m : Mapping} (hc : m.canUpdate = true) (row : Row) :
    (m.boundValues m.updateBound row).drop (setFields m.schema).length =
      m.boundValues m.updateConditions row := by
  rw [updateBound, if_pos hc, updateBoundFields_eq, boundValues, List.map_append]
  exact List.drop_left' (List.length_map ..)

/-- The value that a row binds for a field. -/
def boundValue (m : Mapping) (f : Field) (row : Row) : Value :=
  m.fill f.valueType (row.getD f.index .null)

/-- What an update sets from a row. -/
def changes (m : Mapping) (row : Row) : List (String × Value) :=
  (columns (setFields m.schema)).zip (m.boundValues (setFields m.schema) row)

/-- The row that an insert adds. -/
def insertedRow (m : Mapping) (row : Row) (s : TableStore) : StoredRow :=
  s.newRow m.insertEntries (m.boundValues m.insertBound row)
    (m.schema.generatedKey.map (·.columnName))

/-- A stored row after an update at some tick. -/
def updatedRow (m : Mapping) (row : Row) (s : TableStore) (ticks : Nat) (stored : StoredRow) :
    StoredRow :=
  stored.write (m.changes row ++ s.supply.stamps ticks (stamped m.updateEntries))

/-! ## Columns with names of their own -/

/-- A mapping that has keys, and whose columns all have names of their own. -/
structure Keyed (m : Mapping) : Prop where
  sound : m.schema.Sound
  keys : m.hasKeys = true
  names : (columns m.selectFields).Nodup

section

variable {m : Mapping} {f : Field} {fs : List Field} {row : Row}

theorem zip_boundValues : (columns fs).zip (m.boundValues fs row) =
    fs.map fun f => (f.columnName, m.boundValue f row) := by
  rw [columns, boundValues, List.zip_map']
  rfl

theorem names_bound : ((columns fs).zip (m.boundValues fs row)).map Prod.fst = columns fs := by
  rw [zip_boundValues, List.map_map]
  rfl

theorem mem_bound (m : Mapping) (hf : f ∈ fs) (row : Row) :
    (f.columnName, m.boundValue f row) ∈ (columns fs).zip (m.boundValues fs row) := by
  rw [zip_boundValues]
  exact List.mem_map_of_mem hf

theorem sublist_updateFields : m.updateFields.Sublist m.selectFields := List.filter_sublist

theorem names_changes : (m.changes row).map Prod.fst = columns (setFields m.schema) := names_bound

theorem updateFields_of_set (hf : f ∈ setFields m.schema) :
    f ∈ m.updateFields ∧ m.updateTerm f = .parameter := by
  rw [← updateBoundFields_eq] at hf
  simpa using List.mem_filter.mp hf

/-- The column of the generated key holds the key that the store made. -/
theorem column_generated {g : Field} (hg : m.schema.generatedKey = some g) (row : Row)
    (s : TableStore) : (m.insertedRow row s).column g.columnName = s.supply.key s.issued := by
  unfold insertedRow newRow
  rw [hg, Option.map_some]
  dsimp only
  rw [StoredRow.column_put, if_pos rfl]

end

namespace Keyed

variable {m : Mapping} (h : m.Keyed) {f : Field} {fs : List Field} {row : Row} {s : TableStore}
include h

theorem notMem_columns (hf : f ∈ m.selectFields) (hfs : fs ⊆ m.selectFields) (hne : f ∉ fs) :
    f.columnName ∉ columns fs := by
  intro hm
  obtain ⟨g, hg, hname⟩ := List.mem_map.mp hm
  obtain rfl : g = f := List.inj_on_of_nodup_map h.names (hfs hg) hf hname
  exact hne hg

theorem nodup_columns (hfs : fs.Sublist m.selectFields) : (columns fs).Nodup :=
  h.names.sublist (hfs.map _)

theorem sublist_insertBound : m.insertBound.Sublist m.selectFields := by
  rw [insertBound_eq h.keys]
  exact List.filter_sublist.trans List.filter_sublist

theorem whereFields_ne_nil : m.whereFields ≠ [] := by
  have hne : m.schema.keyFields ≠ [] := by simpa [hasKeys] using h.keys
  rw [whereFields, if_pos h.keys, RecordSchema.identifyingFields]
  simp [hne]

theorem whereFields_subset : m.whereFields ⊆ m.selectFields := fun f hf =>
  updateConditions_columns h.sound f (List.mem_append_left _ hf)

theorem generated_mem_whereFields {g : Field} (hg : m.schema.generatedKey = some g) :
    g ∈ m.whereFields := by
  rw [whereFields, if_pos h.keys, RecordSchema.identifyingFields, h.sound.alone g hg]
  exact List.mem_cons_self

/-- What a row is found by is bound by an insert, but for a generated key. -/
theorem mem_insertBound (hf : f ∈ m.whereFields) (hr : f.role ≠ some .generatedPrimaryKey) :
    f ∈ m.insertBound := by
  have hcolumn := h.whereFields_subset hf
  rw [whereFields, if_pos h.keys] at hf
  have hrole : f.role = some .primaryKey ∨ f.role = some .tenantKey := by
    rcases List.mem_append.mp hf with hk | ht
    · left
      obtain ⟨-, hkey⟩ := h.sound.key_mem hk
      cases hr : f.role with
      | none => simp [hr] at hkey
      | some role => cases role <;> simp_all [FieldRole.isKey]
    · exact .inr (h.sound.tenant_mem (Option.mem_toList.mp ht)).2
  rw [insertBound_eq h.keys, List.mem_filter]
  refine ⟨List.mem_filter.mpr ⟨hcolumn, ?_⟩, ?_⟩
  · rcases hrole with hr | hr <;> simp [hr]
  · rcases hrole with hr | hr <;> simp [IsStamp, hr]

/-- What an update sets is bound by an insert as well. -/
theorem mem_insertBound_of_set (hf : f ∈ setFields m.schema) : f ∈ m.insertBound := by
  obtain ⟨hcolumn, hrole⟩ := List.mem_filter.mp hf
  have hrole : f.role = some .modifiedBy ∨ f.role = some .requiredData ∨
      f.role = some .optionalData := of_decide_eq_true hrole
  rw [insertBound_eq h.keys, List.mem_filter]
  refine ⟨List.mem_filter.mpr ⟨hcolumn, ?_⟩, ?_⟩
  · rcases hrole with hr | hr | hr <;> simp [hr]
  · rcases hrole with hr | hr | hr <;> simp [IsStamp, hr]

/-- Every column is one that an insert binds or stamps, or that of the generated key. -/
theorem column_cases (hf : f ∈ m.selectFields) : m.schema.generatedKey = some f ∨
    f ∈ m.insertFields ∧ IsStamp f ∨ f ∈ m.insertBound := by
  by_cases hr : f.role = some .generatedPrimaryKey
  · exact .inl (h.sound.generated_of_role (List.mem_filter.mp hf).1 hr)
  · have hinserted : f ∈ insertedFields m.schema := List.mem_filter.mpr ⟨hf, by simp [hr]⟩
    right
    by_cases hstamp : IsStamp f
    · exact .inl ⟨insertFields_eq m ▸ hinserted, hstamp⟩
    · right
      rw [insertBound_eq h.keys]
      exact List.mem_filter.mpr ⟨hinserted, by simp [hstamp]⟩

/-! ### The row that an insert adds -/

theorem ne_generated {g : Field} (hg : m.schema.generatedKey = some g) (hf : f ∈ m.insertFields) :
    g.columnName ≠ f.columnName := by
  obtain ⟨hgm, hgr⟩ := h.sound.generated_mem hg
  intro hname
  have hsel : f ∈ m.selectFields := (List.mem_filter.mp hf).1
  obtain rfl : g = f := List.inj_on_of_nodup_map h.names hgm hsel hname
  have hinserted := (List.mem_filter.mp hf).2
  simp [hgr, FieldRole.isInserted] at hinserted

theorem column_insertedRow (hf : f ∈ m.insertFields) :
    (m.insertedRow row s).column f.columnName =
      (StoredRow.write [] (bound m.insertEntries (m.boundValues m.insertBound row) ++
        s.supply.stamps s.ticks (stamped m.insertEntries))).column f.columnName := by
  unfold insertedRow newRow
  cases hg : m.schema.generatedKey with
  | none => rfl
  | some g =>
    rw [Option.map_some]
    dsimp only
    rw [StoredRow.column_put, if_neg (h.ne_generated hg hf)]

/-- A column that takes a parameter holds what its field binds. -/
theorem column_inserted (hf : f ∈ m.insertBound) (row : Row) (s : TableStore) :
    (m.insertedRow row s).column f.columnName = m.boundValue f row := by
  have hbound : f ∈ m.insertFields ∧ m.insertTerm f = .parameter := by
    rw [insertBound, if_pos h.keys] at hf
    simpa using List.mem_filter.mp hf
  have hstamped : f.columnName ∉ stamped m.insertEntries := by
    rw [stamped_insert]
    refine h.notMem_columns (h.sublist_insertBound.subset hf) ?_ ?_
    · exact (List.filter_sublist.trans List.filter_sublist).subset
    · simp [hbound.2]
  rw [h.column_insertedRow hbound.1, StoredRow.write_append, StoredRow.column_write_of_notMem,
    bound_insert h.keys]
  · refine StoredRow.column_write_of_mem ?_ (mem_bound m hf row)
    rw [names_bound]
    exact h.nodup_columns h.sublist_insertBound
  · rwa [names_stamps]

/-- A column that the clock stamps holds one of the stamps that the insert used up. -/
theorem column_stamped (hf : f ∈ m.insertFields) (hterm : m.insertTerm f ≠ .parameter)
    (row : Row) (s : TableStore) : ∃ i < (stamped m.insertEntries).length,
      (m.insertedRow row s).column f.columnName = s.supply.stamp (s.ticks + i + 1) := by
  have hm : f.columnName ∈ stamped m.insertEntries := by
    rw [stamped_insert]
    exact List.mem_map_of_mem (List.mem_filter.mpr ⟨hf, by simpa using hterm⟩)
  obtain ⟨i, hi⟩ := List.getElem?_of_mem hm
  refine ⟨i, (List.getElem?_eq_some_iff.mp hi).1, ?_⟩
  rw [h.column_insertedRow hf, StoredRow.write_append]
  refine StoredRow.column_write_of_mem ?_ (mem_stamps hi s.supply s.ticks)
  rw [names_stamps, stamped_insert]
  exact h.nodup_columns (List.filter_sublist.trans List.filter_sublist)

/-! ### Rows that an update takes -/

/-- A column that no update sets is as it was. -/
theorem column_kept (hf : f ∈ m.selectFields) (hu : f ∉ m.updateFields) (row : Row)
    (s : TableStore) (ticks : Nat) (stored : StoredRow) :
    (m.updatedRow row s ticks stored).column f.columnName = stored.column f.columnName := by
  refine StoredRow.column_write_of_notMem ?_
  rw [List.map_append, names_stamps, names_changes, List.mem_append, not_or, stamped_update]
  constructor
  · refine h.notMem_columns hf (fun g hg => setFields_columns g hg) fun hm => hu ?_
    exact (updateFields_of_set hm).1
  · refine h.notMem_columns hf ?_ fun hm => hu (List.mem_filter.mp hm).1
    exact (List.filter_sublist.trans sublist_updateFields).subset

/-- A column that an update sets holds what its field binds. -/
theorem column_changed (hf : f ∈ setFields m.schema) (row : Row) (s : TableStore) (ticks : Nat)
    (stored : StoredRow) :
    (m.updatedRow row s ticks stored).column f.columnName = m.boundValue f row := by
  obtain ⟨hu, hterm⟩ := updateFields_of_set hf
  rw [updatedRow, StoredRow.write_append, StoredRow.column_write_of_notMem]
  · refine StoredRow.column_write_of_mem ?_ (mem_bound m hf row)
    rw [names_changes]
    exact h.nodup_columns List.filter_sublist
  · rw [names_stamps, stamped_update]
    refine h.notMem_columns (setFields_columns f hf) ?_ ?_
    · exact (List.filter_sublist.trans sublist_updateFields).subset
    · simp [hterm]

/-- A column that an update stamps holds a stamp. -/
theorem column_restamped (hf : f ∈ m.updateFields) (hterm : m.updateTerm f ≠ .parameter)
    (row : Row) (s : TableStore) (ticks : Nat) (stored : StoredRow) :
    ∃ n, (m.updatedRow row s ticks stored).column f.columnName = s.supply.stamp n := by
  have hm : f.columnName ∈ stamped m.updateEntries := by
    rw [stamped_update]
    exact List.mem_map_of_mem (List.mem_filter.mpr ⟨hf, by simpa using hterm⟩)
  obtain ⟨i, hi⟩ := List.getElem?_of_mem hm
  refine ⟨ticks + i + 1, ?_⟩
  rw [updatedRow, StoredRow.write_append]
  refine StoredRow.column_write_of_mem ?_ (mem_stamps hi s.supply ticks)
  rw [names_stamps, stamped_update]
  exact h.nodup_columns (List.filter_sublist.trans sublist_updateFields)

end Keyed

end Tablewright.Mapping
