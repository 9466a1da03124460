import Mathlib.Data.List.Basic
import Tablewright.Store.Handle

/-! What statements do to the rows of a table. An update writes over the rows that meet its
conditions and over no other, so what it does not look for stays as it is. Every row belongs
to the tenant in one of its columns: a statement that inserts a row of some tenant, or that
has this tenant among its conditions and does not write its column, leaves all rows of other
tenants as they are. -/

namespace Tablewright

namespace StoredRow

variable {name : String} {row : StoredRow} {values : List (String × Value)} {tenant v : Value}

theorem column_put (name other : String) (v : Value) (row : StoredRow) :
    column (Entries.put name v row) other = if name = other then v else row.column other := by
  rw [column, Entries.get?_put]
  split <;> rfl

theorem column_write_of_notMem (h : name ∉ values.map Prod.fst) :
    (row.write values).column name = row.column name := by
  induction values generalizing row with
  | nil => rfl
  | cons e values ih =>
    simp only [List.map_cons, List.mem_cons, not_or] at h
    have hrest : column (write (Entries.put e.1 e.2 row) values) name = _ := ih h.2
    rw [column_put, if_neg (Ne.symm h.1)] at hrest
    exact hrest

/-- What is written stands in its column, if no column is written twice. -/
theorem column_write_of_mem (hn : (values.map Prod.fst).Nodup) (h : (name, v) ∈ values) :
    (row.write values).column name = v := by
  induction values generalizing row with
  | nil => cases h
  | cons e values ih =>
    rw [List.map_cons, List.nodup_cons] at hn
    rcases List.mem_cons.mp h with rfl | h
    · have hrest : column (write (Entries.put name v row) values) name = _ :=
        column_write_of_notMem hn.1
      rw [column_put, if_pos rfl] at hrest
      exact hrest
    · have hrest : column (write (Entries.put e.1 e.2 row) values) name = v := ih hn.2 h
      exact hrest

theorem write_append (row : StoredRow) (values more : List (String × Value)) :
    row.write (values ++ more) = (row.write values).write more := List.foldl_append

/-- Rows that are the same in the columns of some conditions meet them alike. -/
theorem agrees_congr {other : StoredRow} {conditions : List (String × Value)}
    (h : ∀ name ∈ conditions.map Prod.fst, row.column name = other.column name) :
    row.agrees conditions = other.agrees conditions := by
  rw [Bool.eq_iff_iff, agrees, agrees, List.all_eq_true, List.all_eq_true]
  refine forall₂_congr fun e he => ?_
  have hname := h e.1 (List.mem_map_of_mem he)
  simp only [hname]

/-- Whether rows agree in some columns is told by these columns. -/
theorem agreesWith_congr {x x' y y' : StoredRow} {names : List String}
    (hx : ∀ name ∈ names, x.column name = x'.column name)
    (hy : ∀ name ∈ names, y.column name = y'.column name) :
    x.agreesWith y names = x'.agreesWith y' names := by
  have hconditions : names.map (fun name => (name, y.column name)) =
      names.map fun name => (name, y'.column name) :=
    List.map_congr_left fun name hm => congrArg (name, ·) (hy name hm)
  rw [agreesWith, agreesWith, hconditions]
  refine agrees_congr fun name hm => hx name ?_
  simpa using hm

/-- The row is one of a tenant: its column holds the very value, or one that equals it. -/
def BelongsTo (row : StoredRow) (column : String) (tenant : Value) : Prop :=
  row.column column = tenant ∨ (row.column column).same tenant = true

theorem belongsTo_of_agrees {column : String} {conditions : List (String × Value)}
    (h : row.agrees conditions = true)
    (hm : (column, tenant) ∈ conditions) : row.BelongsTo column tenant :=
  .inr (List.all_eq_true.mp h _ hm)

theorem belongsTo_write {column : String} (h : column ∉ values.map Prod.fst) :
    (row.write values).BelongsTo column tenant ↔ row.BelongsTo column tenant := by
  rw [BelongsTo, BelongsTo, column_write_of_notMem h]

end StoredRow

namespace TableStore

open scoped Classical in
/-- The rows of other tenants. -/
noncomputable def others (rows : List StoredRow) (column : String) (tenant : Value) :
    List StoredRow :=
  rows.filter fun row => ¬ row.BelongsTo column tenant

variable {s : TableStore} {p : Supply} {name column : String} {tenant : Value} {rows : List StoredRow}
  {entries : List Assignment} {values conditions : List (String × Value)}

theorem others_append {row : StoredRow} (h : row.BelongsTo column tenant) :
    others (rows ++ [row]) column tenant = others rows column tenant := by
  simp [others, h]

theorem table_setRows (s : TableStore) (name other : String) (rows : List StoredRow) :
    (s.setRows name rows).table other =
      if name = other then { s.table name with rows := rows } else s.table other := by
  rw [table, setRows, Entries.get?_put]
  split <;> rfl

theorem rows_setRows (s : TableStore) (name : String) (rows : List StoredRow) :
    ((s.setRows name rows).table name).rows = rows := by
  rw [table_setRows, if_pos rfl]

theorem key_setRows (s : TableStore) (name : String) (rows : List StoredRow) :
    ((s.setRows name rows).table name).key = (s.table name).key := by
  rw [table_setRows, if_pos rfl]

theorem rows_delete (s : TableStore) (table : String) (conditions : List (String × Value))
    (name : String) : ((s.delete table conditions).2.table name).rows =
      (s.table name).rows.filter fun row => !(table == name && row.agrees conditions) := by
  have htable : (s.delete table conditions).2.table name =
      (s.setRows table ((s.table table).rows.filter (!·.agrees conditions))).table name := rfl
  rw [htable, table_setRows]
  by_cases hname : table = name
  · subst hname
    simp
  · have hother : (table == name) = false := beq_eq_false_iff_ne.mpr hname
    simp [hname, hother]

theorem names_stamps (p : Supply) (ticks : Nat) (columns : List String) :
    (p.stamps ticks columns).map Prod.fst = columns := by
  rw [Supply.stamps, List.map_map]
  exact List.zipIdx_map_fst 0 columns

/-- The column at a position is stamped as many ticks later. -/
theorem mem_stamps {columns : List String} {i : Nat} (h : columns[i]? = some column)
    (p : Supply) (ticks : Nat) :
    (column, p.stamp (ticks + i + 1)) ∈ p.stamps ticks columns := by
  refine List.mem_map.mpr ⟨(column, i), ?_, rfl⟩
  exact List.mem_zipIdx_iff_getElem?.mpr h

/-- Rows that an update does not look for are where they were, if it makes no other row such
a one. -/
theorem filter_updateRows {q : StoredRow → Bool}
    (hq : ∀ row : StoredRow, row.agrees conditions = true → q row = false)
    (hw : ∀ (row : StoredRow) (ticks : Nat), row.agrees conditions = true →
      q (row.write (values ++ p.stamps ticks (stamped entries))) = false) (ticks : Nat) :
    (updateRows p entries values conditions ticks rows).filter q = rows.filter q := by
  induction rows generalizing ticks with
  | nil => rfl
  | cons row rows ih =>
    unfold updateRows
    split
    · rename_i hagrees
      rw [List.filter_cons_of_neg (by simp [hw row ticks hagrees]), ih,
        List.filter_cons_of_neg (by simp [hq row hagrees])]
    · rw [List.filter_cons, List.filter_cons, ih]

theorem length_updateRows (ticks : Nat) :
    (updateRows p entries values conditions ticks rows).length = rows.length := by
  induction rows generalizing ticks with
  | nil => rfl
  | cons row rows ih =>
    unfold updateRows
    split <;> simp [ih]

/-- An update leaves every row at its place, and writes over those that it looks for. -/
theorem getElem?_updateRows {row : StoredRow} {i : Nat} (h : rows[i]? = some row) (ticks : Nat) :
    ∃ n, (updateRows p entries values conditions ticks rows)[i]? = some
      (if row.agrees conditions then row.write (values ++ p.stamps n (stamped entries)) else row) := by
  induction rows generalizing i ticks with
  | nil => cases h
  | cons first rows ih =>
    unfold updateRows
    cases i with
    | zero =>
      obtain rfl := Option.some.inj h
      refine ⟨ticks, ?_⟩
      split <;> rfl
    | succ i =>
      split
      · exact ih h (ticks + (stamped entries).length)
      · exact ih h ticks

/-- A row after an update was there before and was not looked for, or is written over one
that was. -/
theorem mem_updateRows {row : StoredRow} (ticks : Nat)
    (h : row ∈ updateRows p entries values conditions ticks rows) :
    ∃ old ∈ rows, row = old ∧ old.agrees conditions = false ∨ old.agrees conditions = true ∧
      ∃ n, row = old.write (values ++ p.stamps n (stamped entries)) := by
  induction rows generalizing ticks with
  | nil => cases h
  | cons first rows ih =>
    have hrest : ∀ n, row ∈ updateRows p entries values conditions n rows →
        ∃ old ∈ first :: rows, row = old ∧ old.agrees conditions = false ∨
          old.agrees conditions = true ∧
            ∃ n, row = old.write (values ++ p.stamps n (stamped entries)) := fun n hm =>
      have ⟨old, ho, hrow⟩ := ih n hm
      ⟨old, List.mem_cons_of_mem _ ho, hrow⟩
    unfold updateRows at h
    split at h
    · rename_i hagrees
      rcases List.mem_cons.mp h with rfl | h
      · exact ⟨first, List.mem_cons_self, .inr ⟨hagrees, ticks, rfl⟩⟩
      · exact hrest _ h
    · rename_i hagrees
      rcases List.mem_cons.mp h with rfl | h
      · exact ⟨row, List.mem_cons_self, .inl ⟨rfl, by simpa using hagrees⟩⟩
      · exact hrest _ h

/-- Every row that an update looks for is written over. -/
theorem written_mem_updateRows {row : StoredRow} (hm : row ∈ rows)
    (hagrees : row.agrees conditions = true) (ticks : Nat) :
    ∃ n, row.write (values ++ p.stamps n (stamped entries)) ∈
      updateRows p entries values conditions ticks rows := by
  induction rows generalizing ticks with
  | nil => cases hm
  | cons first rows ih =>
    unfold updateRows
    rcases List.mem_cons.mp hm with rfl | hm
    · rw [if_pos hagrees]
      exact ⟨ticks, List.mem_cons_self⟩
    · split
      · obtain ⟨n, hn⟩ := ih hm (ticks + (stamped entries).length)
        exact ⟨n, List.mem_cons_of_mem _ hn⟩
      · obtain ⟨n, hn⟩ := ih hm ticks
        exact ⟨n, List.mem_cons_of_mem _ hn⟩

/-- What holds between any two rows holds between them after an update, if writing over
either of them keeps it. -/
theorem pairwise_updateRows {R : StoredRow → StoredRow → Prop} (h : rows.Pairwise R)
    (hleft : ∀ x y n, R x y → R (x.write (values ++ p.stamps n (stamped entries))) y)
    (hright : ∀ x y n, R x y → R x (y.write (values ++ p.stamps n (stamped entries))))
    (ticks : Nat) : (updateRows p entries values conditions ticks rows).Pairwise R := by
  induction rows generalizing ticks with
  | nil => exact .nil
  | cons row rows ih =>
    obtain ⟨hrow, hrows⟩ := List.pairwise_cons.mp h
    have hothers : ∀ n, ∀ other ∈ updateRows p entries values conditions n rows, R row other := by
      intro n other ho
      obtain ⟨old, hm, ⟨rfl, -⟩ | ⟨-, k, rfl⟩⟩ := mem_updateRows n ho
      · exact hrow _ hm
      · exact hright _ _ k (hrow old hm)
    unfold updateRows
    split
    · exact .cons (fun other ho => hleft _ _ ticks (hothers _ other ho)) (ih hrows _)
    · exact .cons (hothers ticks) (ih hrows ticks)

/-- An update leaves the rows before the first one that it finds as they are. -/
theorem updateRows_append_of_none (h : ∀ row ∈ rows, row.agrees conditions = false)
    (more : List StoredRow) (ticks : Nat) :
    updateRows p entries values conditions ticks (rows ++ more) =
      rows ++ updateRows p entries values conditions ticks more := by
  induction rows with
  | nil => rfl
  | cons row rows ih =>
    obtain ⟨hrow, hrows⟩ := List.forall_mem_cons.mp h
    simp [updateRows, hrow, ih hrows]

/-- An update that finds no row changes none. -/
theorem updateRows_of_none (h : ∀ row ∈ rows, row.agrees conditions = false) (ticks : Nat) :
    updateRows p entries values conditions ticks rows = rows := by
  have hrows : updateRows p entries values conditions ticks (rows ++ []) = rows ++ [] :=
    updateRows_append_of_none h [] ticks
  rwa [List.append_nil] at hrows

/-! ## Rows of others -/

theorem others_updateRows (hm : (column, tenant) ∈ conditions)
    (hn : column ∉ values.map Prod.fst ++ stamped entries) (ticks : Nat) :
    others (updateRows p entries values conditions ticks rows) column tenant =
      others rows column tenant := by
  have hbelongs : ∀ row : StoredRow, row.agrees conditions = true → row.BelongsTo column tenant :=
    fun row hagrees => StoredRow.belongsTo_of_agrees hagrees hm
  refine filter_updateRows ?_ ?_ ticks
  · exact fun row hagrees => by simp [hbelongs row hagrees]
  · intro row ticks hagrees
    have hnames : column ∉ (values ++ p.stamps ticks (stamped entries)).map Prod.fst := by
      rwa [List.map_append, names_stamps]
    simp [(StoredRow.belongsTo_write hnames).mpr (hbelongs row hagrees)]

theorem others_update (hm : (column, tenant) ∈ conditions)
    (hn : column ∉ values.map Prod.fst ++ stamped entries) :
    others (((s.update name entries values conditions).2).table name).rows column tenant =
      others (s.table name).rows column tenant := by
  have hrows : (((s.update name entries values conditions).2).table name).rows =
      updateRows s.supply entries values conditions s.ticks (s.table name).rows := rows_setRows ..
  rw [hrows, others_updateRows hm hn]

theorem others_delete (hm : (column, tenant) ∈ conditions) :
    others (((s.delete name conditions).2).table name).rows column tenant =
      others (s.table name).rows column tenant := by
  have hrows : (((s.delete name conditions).2).table name).rows =
      (s.table name).rows.filter (!·.agrees conditions) := rows_setRows ..
  rw [hrows, others, others, List.filter_filter]
  refine List.filter_congr fun row _ => ?_
  cases h : row.agrees conditions with
  | false => simp
  | true => simp [StoredRow.belongsTo_of_agrees h hm]

theorem others_insert {parameters : List Value} {generated : Option String}
    (h : (s.newRow entries parameters generated).BelongsTo column tenant) :
    others (((s.insert name entries parameters generated).2).table name).rows column tenant =
      others (s.table name).rows column tenant := by
  unfold insert
  dsimp only
  split
  · rfl
  · rw [rows_setRows, others_append h]

end TableStore

end Tablewright
