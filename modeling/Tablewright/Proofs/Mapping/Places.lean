import Tablewright.Proofs.Mapping.Marks

/-! Texts and places agree. For every text that a mapping offers, the marks are as many as
the places of its parameters, in the same order, and each is of the column whose field
stands at its place. In an insert the stamps take a position of the lists but no place. -/

namespace Tablewright.Mapping

open Statement Check

/-- As many marks as places. Each of them belongs to the column of the field at its place,
and is bound with the type of that field. -/
structure Binds (m : Mapping) (text : String) (places : List Nat) (types : List ValueType) :
    Prop where
  count : marks text = places.length
  parallel : types.length = places.length
  bound : ∀ k p, places[k]? = some p → ∃ f : Field, m.schema.fields[p]? = some f ∧
    types[k]? = some f.valueType ∧ MarkOf text k f.columnName

/-- The columns that a query names are those of the fields at some places. -/
structure Selects (m : Mapping) (text : String) (places : List Nat) (types : List ValueType) :
    Prop where
  count : marks text = 0
  parallel : types.length = places.length
  columns : ∃ columns : List String, columns.length = places.length ∧
    text = "SELECT " ++ ", ".intercalate columns ++ " FROM " ++ m.table ∧
    ∀ k p : Nat, places[k]? = some p → ∃ f : Field, m.schema.fields[p]? = some f ∧
      types[k]? = some f.valueType ∧ columns[k]? = some f.columnName

/-- The fields whose columns an insert names: all but the one that the database generates. -/
def insertedFields (s : RecordSchema) : List Field :=
  s.columnFields.filter fun f => f.role ≠ some .generatedPrimaryKey

/-- Whether an insert leaves the column's value to the database clock. -/
def IsStamp (f : Field) : Prop := f.role = some .createdAt ∨ f.role = some .modifiedAt

instance (f : Field) : Decidable (IsStamp f) := inferInstanceAs (Decidable (_ ∨ _))

/-- A list of columns and a list of values that pair up: the clock for the stamps and a mark
for every other column. The marks are as many as the places, and each stands where the
column of the field at its place stands. -/
structure Inserts (m : Mapping) (text : String) (places : List Nat) (types : List ValueType) :
    Prop where
  count : marks text = places.length
  parallel : types.length = places.length
  bound : ∃ columns values : List String,
    columns = (insertedFields m.schema).map Field.columnName ∧
    values = (insertedFields m.schema).map (fun f => if IsStamp f then m.clock else "?") ∧
    text = "INSERT INTO " ++ m.table ++ " (" ++ ", ".intercalate columns ++ ") VALUES (" ++
      ", ".intercalate values ++ ")" ∧
    ∀ k p, places[k]? = some p → ∃ (f : Field) (i : Nat), m.schema.fields[p]? = some f ∧
      types[k]? = some f.valueType ∧ columns[i]? = some f.columnName ∧ values[i]? = some "?" ∧
      marks (", ".intercalate (values.take i)) = k

/-- The fields that an update sets from the row. -/
def setFields (s : RecordSchema) : List Field :=
  s.columnFields.filter fun f =>
    f.role = some .modifiedBy ∨ f.role = some .requiredData ∨ f.role = some .optionalData

/-! ## Fields at places -/

section Fields

variable {m : Mapping} {fs : List Field}

/-- The field at the place that some fields have at one position of their list. -/
theorem field_at_place (hs : m.schema.Sound) (hf : ∀ f ∈ fs, f ∈ m.schema.fields) {k p : Nat}
    (hp : (places fs)[k]? = some p) :
    ∃ f, fs[k]? = some f ∧ m.schema.fields[p]? = some f ∧ (types fs)[k]? = some f.valueType := by
  rw [places, List.getElem?_map, Option.map_eq_some_iff] at hp
  obtain ⟨f, hk, rfl⟩ := hp
  refine ⟨f, hk, hs.at_index (hf f (List.mem_of_getElem? hk)), ?_⟩
  rw [types, List.getElem?_map, hk]
  rfl

theorem types_length : (types fs).length = (places fs).length := by
  rw [types, places, List.length_map, List.length_map]

theorem binds_of_fields {text : String} (hs : m.schema.Sound)
    (hf : ∀ f ∈ fs, f ∈ m.schema.fields) (h : Marked text (columns fs)) :
    m.Binds text (places fs) (types fs) where
  count := by rw [h.1, columns, places, List.length_map, List.length_map]
  parallel := types_length
  bound := by
    intro k p hp
    obtain ⟨f, hk, hfield, htype⟩ := field_at_place hs hf hp
    refine ⟨f, hfield, htype, h.2 k _ ?_⟩
    rw [columns, List.getElem?_map, hk]
    rfl

end Fields

/-! ## Conditions -/

theorem equation_eq_setText (column : String) :
    equation column = setText ⟨column, .parameter⟩ := by
  rw [equation, setText, Term.toText, String.append_assoc]
  rfl

theorem boundOf_parameters (cs : List String) :
    boundOf (cs.map fun c => ⟨c, .parameter⟩) = cs := by
  induction cs with
  | nil => rfl
  | cons c cs ih =>
    rw [List.map_cons, boundOf_cons, ih]
    rfl

theorem marked_where {cs : List String} (h : ∀ c ∈ cs, marks c = 0) : Marked (whereText cs) cs := by
  have hplain : ∀ a ∈ cs.map fun c => (⟨c, .parameter⟩ : Assignment), Plain a := by
    intro a ha
    obtain ⟨c, hc, rfl⟩ := List.mem_map.mp ha
    exact ⟨h c hc, by rintro _ ⟨⟩⟩
  have htext : whereText cs = "WHERE " ++ " AND ".intercalate
      ((cs.map fun c => (⟨c, .parameter⟩ : Assignment)).map setText) := by
    rw [whereText, List.map_map]
    exact congrArg _ (congrArg _ (List.map_congr_left fun c _ => equation_eq_setText c))
  have hlist := marked_list (by decide : " AND " ∈ leads) hplain (by decide : "WHERE " ∈ leads)
  rwa [← htext, boundOf_parameters] at hlist

/-! ## Inserts -/

theorem insertFields_eq (m : Mapping) : m.insertFields = insertedFields m.schema := by
  refine List.filter_congr fun f hf => ?_
  have hcol : f.isColumn = true := (List.mem_filter.mp hf).2
  rw [Field.isColumn, Bool.and_eq_true] at hcol
  obtain ⟨role, hr⟩ := Option.isSome_iff_exists.mp hcol.2
  cases role <;> simp [hr, FieldRole.isInserted]

theorem stampedOnInsert_iff (f : Field) :
    f.role.any FieldRole.stampedOnInsert = true ↔ IsStamp f := by
  unfold IsStamp
  cases f.role with
  | none => simp
  | some role => cases role <;> simp [FieldRole.stampedOnInsert]

theorem insertTerm_eq (m : Mapping) (f : Field) :
    m.insertTerm f = if IsStamp f then .expression m.clock else .parameter := by
  simp only [insertTerm, stampedOnInsert_iff]

theorem insertBound_eq {m : Mapping} (h : m.hasKeys = true) :
    m.insertBound = (insertedFields m.schema).filter fun f => ¬ IsStamp f := by
  rw [insertBound, if_pos h, insertFields_eq]
  refine List.filter_congr fun f _ => ?_
  rw [insertTerm_eq]
  by_cases hf : IsStamp f <;> simp [hf]

/-- What stands for a field among the values of an insert. -/
def insertValue (m : Mapping) (f : Field) : String := if IsStamp f then m.clock else "?"

theorem insertTerm_toText (m : Mapping) (f : Field) : (m.insertTerm f).toText = m.insertValue f := by
  rw [insertTerm_eq, insertValue]
  split <;> rfl

/-- A separator without a mark adds none. -/
theorem marks_intercalate {sep : String} (hs : marks sep = 0) (parts : List String) :
    marks (sep.intercalate parts) = marks (String.join parts) := by
  induction parts with
  | nil => rfl
  | cons a parts ih =>
    cases parts with
    | nil => simp
    | cons b parts =>
      rw [String.intercalate_cons_cons, marks_append, marks_append, hs, ih, Nat.add_zero,
        ← marks_append, String.join_cons (s := a)]

theorem marks_insertValues {m : Mapping} (hclock : marks m.clock = 0) (fs : List Field) :
    marks (", ".intercalate (fs.map m.insertValue)) = (fs.filter fun f => ¬ IsStamp f).length := by
  rw [marks_intercalate (by decide)]
  induction fs with
  | nil => rfl
  | cons f fs ih =>
    rw [List.map_cons, String.join_cons, marks_append, ih, List.filter_cons]
    by_cases hf : IsStamp f
    · simp [insertValue, hf, hclock]
    · have hmark : marks "?" = 1 := by decide
      simp [insertValue, hf, hmark, Nat.add_comm]

/-- Where an element that passes a filter stands among all. -/
theorem position_of_filter {α : Type} {p : α → Bool} {l : List α} {k : Nat} {a : α}
    (h : (l.filter p)[k]? = some a) :
    ∃ i, l[i]? = some a ∧ p a = true ∧ ((l.take i).filter p).length = k := by
  induction l generalizing k with
  | nil => cases h
  | cons b l ih =>
    by_cases hb : p b = true
    · rw [List.filter_cons_of_pos hb] at h
      cases k with
      | zero =>
        cases h
        exact ⟨0, rfl, hb, rfl⟩
      | succ k =>
        obtain ⟨i, hi, ha, hk⟩ := ih h
        refine ⟨i + 1, hi, ha, ?_⟩
        rw [List.take_succ_cons, List.filter_cons_of_pos hb, List.length_cons, hk]
    · rw [List.filter_cons_of_neg hb] at h
      obtain ⟨i, hi, ha, hk⟩ := ih h
      refine ⟨i + 1, hi, ha, ?_⟩
      rw [List.take_succ_cons, List.filter_cons_of_neg hb, hk]

theorem marks_of_columns {s : RecordSchema} (h : ∀ f ∈ s.columnFields, marks f.columnName = 0)
    {fs : List Field} (hf : ∀ f ∈ fs, f ∈ s.columnFields) : ∀ c ∈ columns fs, marks c = 0 := by
  intro c hc
  obtain ⟨f, hm, rfl⟩ := List.mem_map.mp hc
  exact h f (hf f hm)

theorem columns_subset {s : RecordSchema} {fs : List Field} (h : ∀ f ∈ fs, f ∈ s.columnFields) :
    ∀ f ∈ fs, f ∈ s.fields := fun f hf => (List.mem_filter.mp (h f hf)).1

theorem marks_columns {fs : List Field} (h : ∀ f ∈ fs, marks f.columnName = 0) :
    marks (", ".intercalate (fs.map Field.columnName)) = 0 := by
  rw [marks_intercalate (by decide)]
  induction fs with
  | nil => rfl
  | cons f fs ih =>
    have hfs := ih fun g hg => h g (List.mem_cons_of_mem f hg)
    rw [List.map_cons, String.join_cons, marks_append, hfs, h f List.mem_cons_self]

theorem insertText_inserts {m : Mapping} (hs : m.schema.Sound) (htable : marks m.table = 0)
    (hcolumns : ∀ f ∈ m.schema.columnFields, marks f.columnName = 0) (hclock : marks m.clock = 0)
    (hk : m.hasKeys = true) :
    m.Inserts m.insertStatement.toText (places m.insertBound) (types m.insertBound) := by
  have hmem : ∀ f ∈ insertedFields m.schema, f ∈ m.schema.columnFields :=
    fun f hf => (List.mem_filter.mp hf).1
  have htext : m.insertStatement.toText = "INSERT INTO " ++ m.table ++ " (" ++
      ", ".intercalate ((insertedFields m.schema).map Field.columnName) ++ ") VALUES (" ++
      ", ".intercalate ((insertedFields m.schema).map m.insertValue) ++ ")" := by
    rw [insertStatement, insert_toText, commaList, commaList, List.map_map, List.map_map, insertFields_eq]
    have : (fun f => (m.insertTerm f).toText) = m.insertValue := funext (insertTerm_toText m)
    exact congrArg (fun g => _ ++ ", ".intercalate (List.map g _) ++ ")") this
  have hbound := insertBound_eq hk
  have hfields : ∀ f ∈ m.insertBound, f ∈ m.schema.fields := by
    rw [hbound]
    exact columns_subset fun f hf => hmem f (List.mem_filter.mp hf).1
  refine ⟨?_, types_length, _, _, rfl, rfl, htext, ?_⟩
  · simp only [htext, marks_append, htable, marks_columns fun f hf => hcolumns f (hmem f hf),
      marks_insertValues hclock]
    rw [hbound, places, List.length_map]
    have : marks "INSERT INTO " = 0 ∧ marks " (" = 0 ∧ marks ") VALUES (" = 0 ∧ marks ")" = 0 := by
      decide
    omega
  · intro k p hp
    obtain ⟨f, hf, hfield, htype⟩ := field_at_place hs hfields hp
    rw [hbound] at hf
    obtain ⟨i, hi, hstamp, hlen⟩ := position_of_filter hf
    refine ⟨f, i, hfield, htype, ?_, ?_, ?_⟩
    · rw [List.getElem?_map, hi]
      rfl
    · rw [List.getElem?_map, hi]
      exact congrArg some (if_neg (of_decide_eq_true hstamp))
    · rw [← List.map_take]
      exact (marks_insertValues hclock _).trans hlen

/-! ## Updates -/

theorem updateBoundFields_eq (m : Mapping) :
    m.updateFields.filter (m.updateTerm · == .parameter) = setFields m.schema := by
  rw [updateFields, List.filter_filter]
  refine List.filter_congr fun f _ => ?_
  unfold updateTerm
  cases hr : f.role with
  | none => simp
  | some role => cases role <;> simp [FieldRole.isUpdated, FieldRole.stampedOnUpdate]

/-- What an update sets from the row, then the keys, then the tenant, then the stamp. -/
theorem updateBound_eq {m : Mapping} (h : m.canUpdate = true) :
    m.updateBound = setFields m.schema ++ m.schema.keyFields ++ m.schema.tenantField.toList ++
      m.schema.timestampField?.toList := by
  have hk : m.hasKeys = true := (Bool.and_eq_true_iff.mp h).1
  rw [updateBound, if_pos h, updateBoundFields_eq, updateConditions, whereFields, if_pos hk,
    RecordSchema.identifyingFields]
  simp only [List.append_assoc]

theorem setFields_columns {s : RecordSchema} : ∀ f ∈ setFields s, f ∈ s.columnFields :=
  fun _ hf => (List.mem_filter.mp hf).1

theorem updateConditions_columns {m : Mapping} (hs : m.schema.Sound) :
    ∀ f ∈ m.updateConditions, f ∈ m.schema.columnFields := by
  intro f hf
  rcases List.mem_append.mp hf with hw | ht
  · rw [whereFields] at hw
    split at hw
    · exact hs.identifying_mem hw
    · cases hw
  · exact (hs.timestamp_mem (Option.mem_toList.mp ht)).1

/-- A row is found by its tenant, too. -/
theorem tenant_mem_whereFields {m : Mapping} {t : Field} (hk : m.hasKeys = true)
    (ht : m.schema.tenantField = some t) : t ∈ m.whereFields := by
  rw [whereFields, if_pos hk, RecordSchema.identifyingFields, ht]
  exact List.mem_append_right _ List.mem_cons_self

theorem tenant_mem_updateBound {m : Mapping} {t : Field} (hc : m.canUpdate = true)
    (ht : m.schema.tenantField = some t) : t ∈ m.updateBound := by
  rw [updateBound_eq hc, ht]
  simp

theorem tenant_mem_insertBound {m : Mapping} {t : Field} (hs : m.schema.Sound)
    (hk : m.hasKeys = true) (ht : m.schema.tenantField = some t) : t ∈ m.insertBound := by
  have hrole : t.role = some .tenantKey := (hs.tenant_mem ht).2
  have hcolumn : t ∈ m.schema.columnFields := updateConditions_columns hs t
    (List.mem_append_left _ (tenant_mem_whereFields hk ht))
  rw [insertBound_eq hk, List.mem_filter]
  refine ⟨List.mem_filter.mpr ⟨hcolumn, ?_⟩, ?_⟩
  · simp [hrole]
  · simp [IsStamp, hrole]

/-- The marks of an update: those of what is set, then those of the conditions. -/
theorem updateText_marked {m : Mapping} (hs : m.schema.Sound) (htable : marks m.table = 0)
    (hcolumns : ∀ f ∈ m.schema.columnFields, marks f.columnName = 0) (hclock : marks m.clock = 0) :
    ∃ sets conditions, m.updateStatement.toText = "UPDATE " ++ m.table ++ " SET " ++ sets ++
        " WHERE " ++ conditions ∧ marks sets = (setFields m.schema).length ∧
      Marked m.updateStatement.toText (columns (setFields m.schema ++ m.updateConditions)) := by
  let as : List Assignment := m.updateFields.map fun f => ⟨f.columnName, m.updateTerm f⟩
  have hplain : ∀ a ∈ as, Plain a := by
    intro a ha
    obtain ⟨f, hf, rfl⟩ := List.mem_map.mp ha
    refine ⟨hcolumns f (List.mem_filter.mp hf).1, fun text ht => ?_⟩
    simp only [updateTerm] at ht
    split at ht
    · cases ht
      exact hclock
    · cases ht
  have hbound : boundOf as = columns (setFields m.schema) := by
    rw [← updateBoundFields_eq, boundOf, List.filter_map, List.map_map]
    rfl
  have hsets := marked_list (by decide : ", " ∈ leads) hplain (by decide : "SET " ∈ leads)
  have hconditions : Marked (whereText (columns m.updateConditions)) (columns m.updateConditions) :=
    marked_where (marks_of_columns hcolumns (updateConditions_columns hs))
  have htext : m.updateStatement.toText = "UPDATE " ++ m.table ++ " " ++
      ("SET " ++ ", ".intercalate (as.map setText)) ++ (" " ++ whereText (columns m.updateConditions)) := by
    simp [as, ← String.toList_inj, updateStatement, update_toText, withClause, commaList]
  have hhead : marks ("UPDATE " ++ m.table ++ " ") = 0 := by
    rw [marks_append, marks_append, htable]
    decide
  rw [hbound] at hsets
  refine ⟨", ".intercalate (as.map setText),
    " AND ".intercalate ((columns m.updateConditions).map equation), ?_, ?_, ?_⟩
  · rw [htext]
    simp [← String.toList_inj, whereText]
  · have hset : marks "SET " = 0 := by decide
    have := hsets.1
    rwa [marks_append, hset, Nat.zero_add, columns, List.length_map] at this
  · rw [htext, show columns (setFields m.schema ++ m.updateConditions) = _ from List.map_append]
    exact (hsets.behind hhead).append (hconditions.behind (by decide))

/-! ## All texts of a mapping -/

theorem returns_build {settings : Settings} {nullAsZero : Option Bool} {clock : Option String}
    {s : RecordSchema} {m : Mapping} {j k : Journal}
    (h : (build settings nullAsZero clock s).Returns j m k) :
    m.schema = s ∧ s.isValid = true ∧ chooseClock settings nullAsZero clock = .ok m.clock := by
  simp only [build, returns_unless, returns_bind, returns_known, returns_pure] at h
  obtain ⟨hv, _, c, _, ⟨hc, _⟩, _, _, _, rfl, _⟩ := h
  exact ⟨rfl, by simpa using hv, hc⟩

theorem selectText_selects {m : Mapping} (hs : m.schema.Sound) (htable : marks m.table = 0)
    (hcolumns : ∀ f ∈ m.schema.columnFields, marks f.columnName = 0) :
    m.Selects m.selectText (places m.selectFields) (types m.selectFields) := by
  have htext : m.selectText = "SELECT " ++ ", ".intercalate (columns m.selectFields) ++ " FROM " ++
      m.table := rfl
  refine ⟨?_, types_length, columns m.selectFields, ?_, htext, ?_⟩
  · have hlist : marks (", ".intercalate (columns m.selectFields)) = 0 := marks_columns hcolumns
    rw [htext, marks_append, marks_append, marks_append, htable, hlist]
    decide
  · rw [columns, places, List.length_map, List.length_map]
  · intro k p hp
    have hmem : ∀ f ∈ m.selectFields, f ∈ m.schema.fields := columns_subset fun _ hf => hf
    obtain ⟨f, hk, hfield, htype⟩ := field_at_place hs hmem hp
    refine ⟨f, hfield, htype, ?_⟩
    rw [columns, List.getElem?_map, hk]
    rfl

/-- Whatever text a mapping offers, its marks are bound by place and by type to the columns
they stand at, provided no name brings a mark of its own. -/
theorem texts_bind {d : RecordDeclaration} {s : RecordSchema} {settings : Settings}
    {nullAsZero : Option Bool} {clock : Option String} {m : Mapping} {j k j' k' : Journal}
    (hs : (RecordSchema.build d).Returns j s k)
    (hm : (build settings nullAsZero clock s).Returns j' m k') (htable : marks m.table = 0)
    (hcolumns : ∀ f ∈ s.columnFields, marks f.columnName = 0) (hclock : marks m.clock = 0) :
    m.Selects m.selectText (places m.selectFields) (types m.selectFields) ∧
    (∀ text, m.whereText? = some text → m.Binds text (places m.whereFields) (types m.whereFields)) ∧
    (∀ text, m.insertText? = some text →
      m.Inserts text (places m.insertBound) (types m.insertBound)) ∧
    (∀ text, m.updateText? = some text →
      m.Binds text (places m.updateBound) (types m.updateBound) ∧
      m.updateBound = setFields s ++ s.keyFields ++ s.tenantField.toList ++
        s.timestampField?.toList ∧
      ∃ sets conditions, text = "UPDATE " ++ m.table ++ " SET " ++ sets ++ " WHERE " ++ conditions ∧
        marks sets = (setFields s).length) ∧
    (∀ text, m.deleteText? = some text →
      m.Binds text (places m.whereFields) (types m.whereFields)) := by
  obtain ⟨rfl, hv, -⟩ := returns_build hm
  have hsound : m.schema.Sound := RecordSchema.Valid.sound ⟨hv, d, j, k, hs⟩
  have hwhereFields : ∀ f ∈ m.whereFields, f ∈ m.schema.columnFields := by
    intro f hf
    exact updateConditions_columns hsound f (List.mem_append_left _ hf)
  have hwhere := marked_where (marks_of_columns hcolumns hwhereFields)
  refine ⟨selectText_selects hsound htable hcolumns, ?_, ?_, ?_, ?_⟩
  · intro text ht
    obtain ⟨hk, ⟨⟩⟩ := Option.ite_none_right_eq_some.mp ht
    exact binds_of_fields hsound (columns_subset hwhereFields) hwhere
  · intro text ht
    obtain ⟨hk, ⟨⟩⟩ := Option.ite_none_right_eq_some.mp ht
    exact insertText_inserts hsound htable hcolumns hclock hk
  · intro text ht
    obtain ⟨hk, ⟨⟩⟩ := Option.ite_none_right_eq_some.mp ht
    obtain ⟨sets, conditions, htext, hsets, hmarked⟩ :=
      updateText_marked hsound htable hcolumns hclock
    have hbound : m.updateBound = setFields m.schema ++ m.updateConditions := by
      rw [updateBound, if_pos hk, updateBoundFields_eq]
    refine ⟨?_, updateBound_eq hk, sets, conditions, htext, hsets⟩
    rw [hbound]
    refine binds_of_fields hsound (columns_subset fun f hf => ?_) hmarked
    exact (List.mem_append.mp hf).elim (setFields_columns f) (updateConditions_columns hsound f)
  · intro text ht
    obtain ⟨hk, ⟨⟩⟩ := Option.ite_none_right_eq_some.mp ht
    have hhead : marks ("DELETE FROM " ++ m.table ++ " ") = 0 := by
      rw [marks_append, marks_append, htable]
      decide
    exact binds_of_fields hsound (columns_subset hwhereFields) (hwhere.behind hhead)

theorem texts_bind_invoice : ∃ s m k k',
    (RecordSchema.build RecordSchema.invoiceDeclaration).Returns {} s k ∧
    (build {} none none s).Returns {} m k' ∧ m.updateText?.isSome = true ∧
    ∀ text, m.updateText? = some text → m.Binds text (places m.updateBound) (types m.updateBound) := by
  obtain ⟨k, hs⟩ := RecordSchema.invoice_built
  obtain ⟨m, k', hm, -⟩ := returns_of_result (c := build {} none none RecordSchema.invoice)
    (j := {}) (by decide +kernel)
  obtain ⟨hschema, -, hclock⟩ := returns_build hm
  have htable : marks m.table = 0 := by
    rw [table, hschema]
    decide +kernel
  have hnoMark : marks m.clock = 0 := by
    have : "CURRENT_TIMESTAMP" = m.clock := Except.ok.inj hclock
    rw [← this]
    decide
  have hcan : m.canUpdate = true := by
    rw [canUpdate, hasKeys, updateFields, hschema]
    decide +kernel
  have hbinds := texts_bind hs hm htable (by decide +kernel) hnoMark
  refine ⟨_, m, k, k', hs, hm, ?_, fun text ht => (hbinds.2.2.2.1 text ht).1⟩
  rw [updateText?, if_pos hcan]
  rfl

end Tablewright.Mapping
