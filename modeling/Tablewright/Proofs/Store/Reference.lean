import Mathlib.Data.List.Basic
import Tablewright.Mapping.ByClause
import Tablewright.Proofs.Mapping.Marshal
import Tablewright.Proofs.Mapping.Places
import Tablewright.Proofs.Sql.Evaluation
import Tablewright.Proofs.Sql.RoundTrip
import Tablewright.Store.Handle

/-! The dialect that proofs about stores speak. Some statements are known by their texts;
any other query is read by a reader, and finds the rows that meet all of its conditions. -/

namespace Tablewright

namespace Statement

/-- A statement as a store executes it. -/
def stored : Statement → StoreStatement
  | select table columns conditions => .select table columns conditions none
  | insert table entries => .insert table entries
  | update table sets conditions => .update table sets conditions
  | delete table conditions => .delete table conditions

/-- The first letter of a statement's text, which tells its kind. -/
def initial : Statement → Char
  | select .. => 'S'
  | insert .. => 'I'
  | update .. => 'U'
  | delete .. => 'D'

theorem head?_toText (st : Statement) : st.toText.toList.head? = some st.initial := by
  cases st with
  | select table columns conditions =>
    rw [toText.eq_def]
    simp only
    split <;> simp [withClause, initial]
  | insert table entries => simp [insert_toText, initial]
  | update table sets conditions => simp [update_toText, withClause, initial]
  | delete table conditions =>
    rw [toText.eq_def]
    simp [withClause, initial]

/-- A statement among some others of its own kind is found by its text. -/
theorem find?_toText {known : List Statement} {st : Statement} (hm : st ∈ known)
    (hknown : ∀ o ∈ known, o.initial = st.initial → o = st) :
    known.find? (·.toText == st.toText) = some st := by
  have hsome : (known.find? (·.toText == st.toText)).isSome = true := by
    rw [List.find?_isSome]
    exact ⟨st, hm, beq_self_eq_true _⟩
  obtain ⟨o, ho⟩ := Option.isSome_iff_exists.mp hsome
  have htext : o.toText = st.toText := by simpa using List.find?_some ho
  have hinitial : o.initial = st.initial := by
    have := head?_toText o
    rw [htext, head?_toText] at this
    exact (Option.some.inj this).symm
  rw [ho, hknown o (List.mem_of_find?_eq_some ho) hinitial]

theorem intercalate_concat (sep last : String) (parts : List String) :
    ∃ front, sep.intercalate (parts ++ [last]) = front ++ last := by
  induction parts with
  | nil => exact ⟨"", by simp⟩
  | cons a parts ih =>
    obtain ⟨front, hfront⟩ := ih
    obtain ⟨b, rest, hrest⟩ : ∃ b rest, parts ++ [last] = b :: rest :=
      List.exists_cons_of_ne_nil (by simp)
    refine ⟨a ++ sep ++ front, ?_⟩
    rw [List.cons_append, hrest, String.intercalate_cons_cons, ← hrest, hfront]
    simp only [String.append_assoc]

/-- Conditions end with the mark of the last one. -/
theorem getLast?_whereText {conditions : List String} (h : conditions ≠ []) :
    (whereText conditions).toList.getLast? = some '?' := by
  obtain ⟨init, last, hc⟩ := (List.eq_nil_or_concat conditions).resolve_left h
  rw [List.concat_eq_append] at hc
  subst hc
  obtain ⟨front, hfront⟩ := intercalate_concat " AND " (equation last) (init.map equation)
  have hlast : (equation last).toList.getLast? = some '?' := by
    rw [equation, String.toList_append, List.getLast?_append]
    rfl
  simp only [whereText, List.map_append, List.map_cons, List.map_nil, hfront, String.toList_append,
    List.getLast?_append, hlast]
  rfl

theorem select_toText {table : String} {columns conditions : List String} (h : conditions ≠ []) :
    (select table columns conditions).toText =
      withClause (select table columns []).toText (whereText conditions) := by
  have hnonempty : conditions.isEmpty = false := by simpa using h
  rw [toText.eq_def]
  simp only [hnonempty, Bool.false_eq_true, if_false]
  rfl

/-- A query with conditions ends as these do. -/
theorem getLast?_select {table : String} {columns conditions : List String} (h : conditions ≠ []) :
    (select table columns conditions).toText.toList.getLast? = some '?' := by
  rw [select_toText h, withClause, String.toList_append, List.getLast?_append,
    getLast?_whereText h]
  rfl

end Statement

namespace Sql.Query

/-- Whether one row comes before another: the first column in which they are not level
tells. -/
def before : List SortColumn → StoredRow → StoredRow → Bool
  | [], _, _ => true
  | s :: sorts, a, b =>
    match (a.column s.column).order? (b.column s.column) with
    | some .lt => !s.descending
    | some .gt => s.descending
    | _ => before sorts a b

/-- The rows that meet all conditions of a query, in its order and no more than it wants,
each with the columns it names. -/
def answer (q : Sql.Query) (u : Casing) (values : List Value) (s : TableStore) : List (List Value) :=
  let found := (s.table q.table).rows.filter fun row =>
    q.clause.selects u row.column values == some true
  ((found.mergeSort (before q.clause.sorts)).take q.clause.limit).map fun row =>
    q.columns.map row.column

end Sql.Query

namespace Dialect

/-- The dialect that knows some statements by their texts and reads every other query. -/
def reference (known : List Statement) (u : Casing) (reads : String → Option Sql.Query) :
    Dialect where
  query s sql values := match known.find? (·.toText == sql) with
    | some statement => s.find values statement.stored
    | none => match reads sql with
      | some q => .ok (q.answer u values s)
      | none => .error (.database "unsupported select")
  statement sql := match known.find? (·.toText == sql) with
    | some statement => .ok statement.stored
    | none => .error (.database "unsupported statement")

theorem query_known {known : List Statement} {st : Statement} {sql : String}
    (h : known.find? (·.toText == sql) = some st) (u : Casing) (reads : String → Option Sql.Query)
    (s : TableStore) (values : List Value) :
    (reference known u reads).query s sql values = s.find values st.stored := by
  simp only [reference, h]

theorem query_read {known : List Statement} {sql : String} {reads : String → Option Sql.Query}
    {q : Sql.Query} (h : known.find? (·.toText == sql) = none) (hq : reads sql = some q)
    (u : Casing) (s : TableStore) (values : List Value) :
    (reference known u reads).query s sql values = .ok (q.answer u values s) := by
  simp only [reference, h, hq]

theorem execute_known {known : List Statement} {st : Statement} {sql : String}
    (h : known.find? (·.toText == sql) = some st) (u : Casing) (reads : String → Option Sql.Query)
    (s : TableStore) (values : List Value) (generated : Option String) :
    (reference known u reads).execute s sql values generated =
      s.perform values generated st.stored := by
  simp only [execute, reference, h]

/-- A dialect that takes some statements for what they are: it finds the rows that they ask for,
and executes what they say. -/
class Knows (d : Dialect) (known : List Statement) : Prop where
  query : ∀ st ∈ known, ∀ s values, d.query s st.toText values = s.find values st.stored
  statement : ∀ st ∈ known, d.statement st.toText = .ok st.stored

section

variable {d : Dialect} {known : List Statement}

theorem Knows.mono {more : List Statement} (h : d.Knows more) (hsub : known ⊆ more) :
    d.Knows known where
  query st hst := h.query st (hsub hst)
  statement st hst := h.statement st (hsub hst)

theorem execute_of_knows [h : d.Knows known] {st : Statement} (hst : st ∈ known) (s : TableStore)
    (values : List Value) (generated : Option String) :
    d.execute s st.toText values generated = s.perform values generated st.stored := by
  rw [execute, h.statement st hst]

/-- Statements that can be told apart by their texts are known. -/
theorem knows_reference
    (h : ∀ st ∈ known, known.find? (·.toText == st.toText) = some st) (u : Casing)
    (reads : String → Option Sql.Query) : (reference known u reads).Knows known where
  query st hst := query_known (h st hst) u reads
  statement st hst := by simp only [reference, h st hst]

end

end Dialect

/-! ## Texts of filters -/

theorem FilterClause.head?_toText (c : FilterClause) :
    ∃ x, c.toText.toList.head? = some x ∧ Text.isBlank x = false := by
  unfold toText whereParts orderParts limitText
  split <;> split <;> simp [String.intercalate_cons_cons, String.intercalate_singleton] <;> decide

theorem FilterClause.getLast?_toText (c : FilterClause) : c.toText.toList.getLast? = some 'Y' := by
  obtain ⟨front, hfront⟩ :=
    Statement.intercalate_concat " " c.limitText (c.whereParts ++ c.orderParts)
  have hlimit : c.limitText.toList.getLast? = some 'Y' := by
    rw [limitText, String.toList_append, List.getLast?_append]
    rfl
  rw [toText, hfront, String.toList_append, List.getLast?_append, hlimit]
  rfl

namespace Mapping

/-- The statements that a mapping writes for single rows. -/
def statements (m : Mapping) : List Statement :=
  [m.readStatement, m.insertStatement, m.updateStatement, m.deleteStatement]

/-- The fields that a filter selects. -/
def filterFields (m : Mapping) (c : CompiledFilter) : List Field :=
  if c.outputFields.isEmpty then m.selectFields else c.outputFields

/-- The text by which a filter is executed. -/
def filterText (m : Mapping) (c : CompiledFilter) : String :=
  clauseSql (Statement.select m.table (columns (m.filterFields c)) []).toText (some c.clauseText)

/-- What a filter's text is written from. -/
def filterQuery (m : Mapping) (c : CompiledFilter) : Sql.Query :=
  ⟨columns (m.filterFields c), m.table, Sql.clauseOf c.clause⟩

/-- The fields that a filter names, without those that have no column. -/
theorem filterCompiled_of_named {m : Mapping} (hs : m.schema.Sound) {c : CompiledFilter}
    (hne : c.outputFields ≠ []) (hc : ∀ f ∈ c.outputFields, f ∈ m.schema.fields) :
    m.filterCompiled c = m.collectRows (c.outputFields.filter Field.isColumn)
      (clauseSql (Statement.select m.table
        (columns (c.outputFields.filter Field.isColumn)) []).toText (some c.clauseText))
      c.values c.types := by
  have hselected : ∀ f ∈ c.outputFields.filter Field.isColumn, f ∈ m.schema.fields :=
    fun f hf => hc f (List.mem_filter.mp hf).1
  rw [filterCompiled, if_neg (by simpa using hne)]
  dsimp only
  rw [fieldsAt_places hs hselected]
  rfl

/-- The fields that a filter selects, named by their places. -/
theorem filterCompiled_eq {m : Mapping} (hs : m.schema.Sound) {c : CompiledFilter}
    (hc : ∀ f ∈ c.outputFields, f ∈ m.schema.columnFields) :
    m.filterCompiled c =
      m.collectRows (m.filterFields c) (m.filterText c) c.values c.types := by
  unfold filterText filterFields
  split
  · rename_i hempty
    rw [filterCompiled, if_pos hempty]
    rfl
  · rename_i hnamed
    have hcolumns : c.outputFields.filter Field.isColumn = c.outputFields :=
      List.filter_eq_self.mpr fun f hf => (List.mem_filter.mp (hc f hf)).2
    rw [filterCompiled_of_named hs (by simpa using hnamed)
      fun f hf => (List.mem_filter.mp (hc f hf)).1, hcolumns]

/-- The text of a filter is put behind a select as it is. -/
theorem clauseSql_clauseText (text : String) (c : CompiledFilter) :
    clauseSql text (some c.clauseText) = Statement.withClause text c.clauseText := by
  obtain ⟨x, hx, hblank⟩ := c.clause.head?_toText
  have hlast := c.clause.getLast?_toText
  have hne : c.clauseText ≠ "" := by
    intro h
    rw [CompiledFilter.clauseText] at h
    rw [h] at hlast
    cases hlast
  rw [clauseSql, if_neg hne]
  exact congrArg (Statement.withClause _) (Text.strip_eq hx hlast hblank (by decide))

theorem filterText_eq (m : Mapping) (c : CompiledFilter) :
    m.filterText c = Statement.withClause
      (Statement.select m.table (columns (m.filterFields c)) []).toText c.clauseText :=
  clauseSql_clauseText _ c

theorem find_statement {m : Mapping} {st : Statement} (h : st ∈ m.statements) :
    m.statements.find? (·.toText == st.toText) = some st := by
  refine Statement.find?_toText h ?_
  simp only [statements, List.mem_cons, List.not_mem_nil, or_false] at h ⊢
  rintro o (rfl | rfl | rfl | rfl) hi <;> obtain rfl | rfl | rfl | rfl := h <;>
    first | rfl | cases hi

instance {m : Mapping} {u : Casing} {reads : String → Option Sql.Query} :
    (Dialect.reference m.statements u reads).Knows m.statements :=
  Dialect.knows_reference (fun _ => find_statement) u reads

/-- No statement for single rows has the text of a filter: that of another kind begins
otherwise, and that of a query ends with a mark. -/
theorem find_filterText {m : Mapping} (hk : m.hasKeys = true) (c : CompiledFilter) :
    m.statements.find? (·.toText == m.filterText c) = none := by
  have hhead : (m.filterText c).toList.head? = some 'S' := by
    rw [filterText_eq, Statement.withClause, String.toList_append, String.toList_append,
      List.append_assoc, List.head?_append, Statement.head?_toText]
    rfl
  have hlast : (m.filterText c).toList.getLast? = some 'Y' := by
    rw [filterText_eq, Statement.withClause, String.toList_append, List.getLast?_append,
      CompiledFilter.clauseText, c.clause.getLast?_toText]
    rfl
  have hconditions : columns m.whereFields ≠ [] := by
    have hne : m.schema.keyFields ≠ [] := by simpa [hasKeys] using hk
    rw [whereFields, if_pos hk, RecordSchema.identifyingFields, columns, List.map_append]
    simp [hne]
  rw [List.find?_eq_none]
  intro st hst htext
  rw [← beq_iff_eq.mp htext] at hhead hlast
  rw [Statement.head?_toText] at hhead
  simp only [statements, List.mem_cons, List.not_mem_nil, or_false] at hst
  obtain rfl | rfl | rfl | rfl := hst
  · rw [readStatement, Statement.getLast?_select hconditions] at hlast
    cases hlast
  all_goals cases hhead

end Mapping

end Tablewright
