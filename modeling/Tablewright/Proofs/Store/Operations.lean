import Tablewright.Mapping.Batch
import Tablewright.Proofs.Store.Reference
import Tablewright.Proofs.Store.Written

/-! What each operation on a row does to a store that knows the statements of its mapping. A
row stands for what it binds: the identity that it is found by, the version that an update
takes the stored row for, and the changes that an update writes. -/

namespace Tablewright

open Work TableStore

/-- The rows of the workspace and the store are these; the journal may say anything. -/
def Work.At (rows : List Row) (s₀ : TableStore) : Fact TableStore :=
  fun w s => w.rows = rows ∧ s = s₀

namespace Mapping

/-- The conditions that a row is found by. -/
def identity (m : Mapping) (row : Row) : List (String × Value) :=
  (columns m.whereFields).zip (m.boundValues m.whereFields row)

/-- The conditions under which an update takes a stored row for the one that was read. -/
def version (m : Mapping) (row : Row) : List (String × Value) :=
  (columns m.updateConditions).zip (m.boundValues m.updateConditions row)

/-- The rows of a mapping's table. -/
def rowsIn (m : Mapping) (s : TableStore) : List StoredRow := (s.table m.table).rows

/-- The stored row that a read finds. -/
def stored? (m : Mapping) (row : Row) (s : TableStore) : Option StoredRow :=
  (m.rowsIn s).find? (·.agrees (m.identity row))

def inserted (m : Mapping) (row : Row) (s : TableStore) : Except Failure Value × TableStore :=
  s.insert m.table m.insertEntries (m.boundValues m.insertBound row)
    (m.schema.generatedKey.map (·.columnName))

def updated (m : Mapping) (row : Row) (s : TableStore) : Nat × TableStore :=
  s.update m.table m.updateEntries (m.changes row) (m.version row)

def deleted (m : Mapping) (row : Row) (s : TableStore) : Nat × TableStore :=
  s.delete m.table (m.identity row)

variable {m : Mapping} {row : Row} {s : TableStore}

theorem zip_boundValues_append (m : Mapping) (row : Row) (fs gs : List Field)
    (values : List Value) :
    (columns (fs ++ gs)).zip (m.boundValues fs row ++ values) =
      (columns fs).zip (m.boundValues fs row) ++ (columns gs).zip values := by
  rw [columns, List.map_append, List.zip_append (by simp [boundValues])]
  rfl

/-- An update looks for the identity of a row, and for the stamp that it carries. -/
theorem version_eq (m : Mapping) (row : Row) :
    m.version row = m.identity row ++ (columns m.schema.timestampField?.toList).zip
      (m.boundValues m.schema.timestampField?.toList row) := by
  rw [version, updateConditions, boundValues, List.map_append]
  exact zip_boundValues_append ..

theorem perform_insert (m : Mapping) (row : Row) (s : TableStore) :
    s.perform (m.boundValues m.insertBound row)
      (m.schema.generatedKey.map (·.columnName)) m.insertStatement.stored =
    ((m.inserted row s).1.map fun key => (1, key), (m.inserted row s).2) := rfl

theorem perform_update (hc : m.canUpdate = true) :
    s.perform (m.boundValues m.updateBound row) none m.updateStatement.stored =
      (.ok ((m.updated row s).1, .null), (m.updated row s).2) := by
  have hstored : m.updateStatement.stored =
      .update m.table m.updateEntries (columns m.updateConditions) := rfl
  have hbound : bound m.updateEntries (m.boundValues m.updateBound row) = m.changes row := by
    have hvalues : m.boundValues m.updateBound row =
        m.boundValues (setFields m.schema) row ++ m.boundValues m.updateConditions row := by
      rw [updateBound, if_pos hc, updateBoundFields_eq, boundValues, List.map_append]
      rfl
    have hzip := zip_boundValues_append m row (setFields m.schema) []
      (m.boundValues m.updateConditions row)
    rw [List.append_nil] at hzip
    rw [bound_update, hvalues, hzip]
    exact List.append_nil _
  rw [hstored, TableStore.perform, parameterCount_update, drop_updateBound hc, hbound]
  rfl

theorem perform_delete : s.perform (m.boundValues m.whereFields row) none m.deleteStatement.stored =
    (.ok ((m.deleted row s).1, .null), (m.deleted row s).2) := rfl

/-! ## What the statements do to the table -/

/-- Whether an insert is refused, because a stored row has the key of the new one. -/
def clashes (m : Mapping) (row : Row) (s : TableStore) : Bool :=
  !(s.table m.table).key.isEmpty &&
    (m.rowsIn s).any (·.agreesWith (m.insertedRow row s) (s.table m.table).key)

/-- The store after the stamps and the key of an insert are used up. -/
def spent (m : Mapping) (s : TableStore) : TableStore :=
  { s with
    ticks := s.ticks + (stamped m.insertEntries).length
    issued := s.issued + (if (m.schema.generatedKey.map (·.columnName)).isSome then 1 else 0) }

theorem inserted_of_clash (h : m.clashes row s = true) :
    m.inserted row s = (.error (.database ("duplicate key in " ++ m.table)), m.spent s) := if_pos h

theorem inserted_of_fresh (h : m.clashes row s = false) :
    m.inserted row s = (.ok (((m.schema.generatedKey.map (·.columnName)).map
        (m.insertedRow row s).column).getD .null),
      (m.spent s).setRows m.table (m.rowsIn s ++ [m.insertedRow row s])) :=
  if_neg (ne_true_of_eq_false h)

/-- An insert that is not refused clashes with no stored row. -/
theorem fresh_of_inserted {key : Value} (h : (m.inserted row s).1 = .ok key) :
    m.clashes row s = false := by
  by_contra hclash
  rw [inserted_of_clash (Bool.not_eq_false _ ▸ hclash)] at h
  cases h

/-- The key that an insert gives back is the one that the store made. -/
theorem key_of_inserted {g : Field} {key : Value}
    (hg : m.schema.generatedKey = some g) (h : (m.inserted row s).1 = .ok key) :
    key = s.supply.key s.issued := by
  cases hc : m.clashes row s with
  | true =>
    rw [inserted_of_clash hc] at h
    cases h
  | false =>
    rw [inserted_of_fresh hc, hg] at h
    exact (Except.ok.inj h).symm.trans (column_generated hg _ _)

theorem rowsIn_inserted (m : Mapping) (row : Row) (s : TableStore) :
    m.rowsIn (m.inserted row s).2 =
      if m.clashes row s then m.rowsIn s else m.rowsIn s ++ [m.insertedRow row s] := by
  cases h : m.clashes row s with
  | true => rw [inserted_of_clash h]; rfl
  | false => rw [inserted_of_fresh h]; exact rows_setRows ..

theorem rowsIn_of_inserted {key : Value} (h : (m.inserted row s).1 = .ok key) :
    m.rowsIn (m.inserted row s).2 = m.rowsIn s ++ [m.insertedRow row s] := by
  rw [rowsIn_inserted, fresh_of_inserted h]
  rfl

theorem rowsIn_updated (m : Mapping) (row : Row) (s : TableStore) :
    m.rowsIn (m.updated row s).2 = updateRows s.supply m.updateEntries (m.changes row)
      (m.version row) s.ticks (m.rowsIn s) := rows_setRows ..

theorem rowsIn_deleted (m : Mapping) (row : Row) (s : TableStore) :
    m.rowsIn (m.deleted row s).2 = (m.rowsIn s).filter (!·.agrees (m.identity row)) :=
  rows_setRows ..

/-- A delete finds something if the row is there. -/
theorem deleted_pos_iff : 0 < (m.deleted row s).1 ↔
    ∃ stored ∈ m.rowsIn s, stored.agrees (m.identity row) = true := by
  have hcount : (m.deleted row s).1 = (m.rowsIn s).length -
      ((m.rowsIn s).filter (!·.agrees (m.identity row))).length := rfl
  rw [hcount, Nat.sub_pos_iff_lt, List.length_filter_lt_length_iff_exists]
  simp

/-- An update counts the rows that it takes for the row's version. -/
theorem updated_count (m : Mapping) (row : Row) (s : TableStore) :
    (m.updated row s).1 = ((m.rowsIn s).filter (·.agrees (m.version row))).length := rfl

/-- The rows that an update takes are written over. -/
theorem updatedRow_mem {stored : StoredRow} (hm : stored ∈ m.rowsIn s)
    (h : stored.agrees (m.version row) = true) :
    ∃ n, m.updatedRow row s n stored ∈ m.rowsIn (m.updated row s).2 := by
  rw [rowsIn_updated]
  exact written_mem_updateRows hm h s.ticks

/-- A row after an update was not taken by it, or is written over one that was. -/
theorem mem_updated {stored : StoredRow} (hm : stored ∈ m.rowsIn (m.updated row s).2) :
    ∃ old ∈ m.rowsIn s, stored = old ∧ old.agrees (m.version row) = false ∨
      old.agrees (m.version row) = true ∧ ∃ n, stored = m.updatedRow row s n old := by
  rw [rowsIn_updated] at hm
  exact mem_updateRows s.ticks hm

/-- An update that takes no row changes none, and uses up no stamp. -/
theorem updated_of_zero (h : (m.updated row s).1 = 0) :
    (∀ name, (m.updated row s).2.table name = s.table name) ∧ (m.updated row s).2.ticks = s.ticks := by
  have hempty : (m.rowsIn s).filter (·.agrees (m.version row)) = [] := List.eq_nil_of_length_eq_zero h
  have hnone : ∀ stored ∈ m.rowsIn s, stored.agrees (m.version row) = false := by
    simpa [List.filter_eq_nil_iff] using hempty
  constructor
  · intro name
    have htable : (m.updated row s).2.table name = (s.setRows m.table (updateRows s.supply
      m.updateEntries (m.changes row) (m.version row) s.ticks (m.rowsIn s))).table name := rfl
    rw [htable, updateRows_of_none hnone, table_setRows]
    split
    · rename_i hname
      subst hname
      rfl
    · rfl
  · have hticks : (m.updated row s).2.ticks =
        s.ticks + (m.updated row s).1 * (stamped m.updateEntries).length := rfl
    rw [hticks, h, Nat.zero_mul, Nat.add_zero]

theorem agrees_of_version {stored : StoredRow} (h : stored.agrees (m.version row) = true) :
    stored.agrees (m.identity row) = true := by
  rw [version_eq, StoredRow.agrees, List.all_append, Bool.and_eq_true] at h
  exact h.1

theorem names_identity (m : Mapping) (row : Row) :
    (m.identity row).map Prod.fst = columns m.whereFields := names_bound

/-- An update leaves the columns of a stored row's identity as they are. -/
theorem Keyed.column_identity (h : m.Keyed) {name : String} (hname : name ∈ columns m.whereFields)
    (row : Row) (s : TableStore) (ticks : Nat) (stored : StoredRow) :
    (m.updatedRow row s ticks stored).column name = stored.column name := by
  obtain ⟨f, hf, rfl⟩ := List.mem_map.mp hname
  refine h.column_kept (h.whereFields_subset hf) (fun hu => ?_) row s ticks stored
  have hupdated := (List.mem_filter.mp hu).2
  rw [whereFields, if_pos h.keys] at hf
  rcases List.mem_append.mp hf with hk | ht
  · have hkey := (h.sound.key_mem hk).2
    cases hr : f.role with
    | none => simp [hr] at hkey
    | some role => cases role <;> simp_all [FieldRole.isKey, FieldRole.isUpdated]
  · have htenant := (h.sound.tenant_mem (Option.mem_toList.mp ht)).2
    simp [htenant, FieldRole.isUpdated] at hupdated

theorem Keyed.agrees_updatedRow (h : m.Keyed) (row other : Row) (s : TableStore) (ticks : Nat)
    (stored : StoredRow) : (m.updatedRow row s ticks stored).agrees (m.identity other) =
      stored.agrees (m.identity other) := by
  refine StoredRow.agrees_congr fun name hname => ?_
  rw [names_identity] at hname
  exact h.column_identity hname row s ticks stored

/-! ## Operations on single rows -/

section

variable {d : Dialect} {rows : List Row} {r : RowRef} {s₀ : TableStore}

theorem unlogged_at : Unlogged (At rows s₀) := fun _ _ _ h => h

/-- A call ends as the store replies to it. -/
theorem ensures_call {c : Call} {reply : Except Failure c.Reply} {s' : TableStore}
    (h : d.reply s₀ c = (reply, s')) :
    Ensures d.handle (At rows s₀) (ask c)
      (fun a w s => reply = .ok a ∧ At rows s' w s)
      (fun w s => (∃ e, reply = .error e) ∧ At rows s' w s) := by
  refine ensures_ask ?_
  rintro w s ⟨hrows, rfl⟩
  show Ends _ _ (((d.reply s c).1, w),
    (d.reply s c).2)
  rw [h]
  cases reply with
  | error e => exact ⟨⟨e, rfl⟩, hrows, rfl⟩
  | ok a => exact ⟨rfl, hrows, rfl⟩

section

variable {known : List Statement} [hd : d.Knows known] {st : Statement} {values : List Value}
  {types : List ValueType} {s' : TableStore}

/-- The reply to a known statement that counts the rows it affects. -/
theorem reply_write {result : Except Failure (Int × Value)} (hst : st ∈ known)
    (h : s₀.perform values none st.stored = (result, s')) :
    d.reply s₀ (.write st.toText values types) = (result.map (·.1), s') := by
  rw [Dialect.reply, Dialect.execute_of_knows hst, h]
  rfl

theorem ensures_count {n : Nat} (hst : st ∈ known)
    (h : s₀.perform values none st.stored = (.ok (n, .null), s')) :
    Ensures d.handle (At rows s₀)
      (write st.toText values types) (fun count w s => count = n ∧ At rows s' w s)
      (fun _ _ => False) := by
  refine (ensures_call (reply_write hst h)).imp (fun _ _ => id) ?_ ?_
  · exact fun count w s hpre => ⟨(Except.ok.inj hpre.1).symm, hpre.2⟩
  · rintro w s ⟨⟨e, ⟨⟩⟩, -⟩

end

variable [hd : d.Knows m.statements]

/-- An update says whether a stored row was taken for the row's version. -/
theorem ensures_update :
    Ensures d.handle (At rows s₀) (m.update r)
      (fun done w s => if m.canUpdate then (rows.getD r []).length = m.schema.fields.length ∧
          done = decide (0 < (m.updated (rows.getD r []) s₀).1) ∧
          At rows (m.updated (rows.getD r []) s₀).2 w s
        else done = false ∧ At rows s₀ w s)
      (fun w s => (rows.getD r []).length ≠ m.schema.fields.length ∧ At rows s₀ w s) := by
  unfold update
  split
  · rename_i hc
    have hc : m.canUpdate = false := by simpa using hc
    simp only [hc]
    exact ensures_refuse
  · rename_i hc
    have hc : m.canUpdate = true := by simpa using hc
    simp only [hc, if_true]
    rw [← bind_assoc]
    refine ensures_values.bind fun values => ensures_of fun hvalues => ?_
    obtain ⟨hlen, rfl⟩ := hvalues
    refine ((ensures_count (show m.updateStatement ∈ m.statements by simp [statements])
      (perform_update hc)).imp (fun _ _ => id)
      (fun _ _ _ => id) (fun _ _ => False.elim)).bind fun n => ensures_of fun hn => ?_
    exact ensures_pure fun w s hpre => ⟨hlen, by simp [hn], hpre⟩

/-- A delete says whether the row was there. -/
theorem ensures_delete (hk : m.hasKeys = true) :
    Ensures d.handle (At rows s₀) (m.delete r)
      (fun done w s => (rows.getD r []).length = m.schema.fields.length ∧
        done = decide (0 < (m.deleted (rows.getD r []) s₀).1) ∧
        At rows (m.deleted (rows.getD r []) s₀).2 w s)
      (fun w s => (rows.getD r []).length ≠ m.schema.fields.length ∧ At rows s₀ w s) := by
  unfold delete
  rw [hk, ← bind_assoc]
  refine ensures_values.bind fun values => ensures_of fun hvalues => ?_
  obtain ⟨hlen, rfl⟩ := hvalues
  refine ((ensures_count (show m.deleteStatement ∈ m.statements by simp [statements])
      perform_delete).imp (fun _ _ => id)
    (fun _ _ _ => id) (fun _ _ => False.elim)).bind fun n => ensures_of fun hn => ?_
  exact ensures_pure fun w s hpre => ⟨hlen, by simp [hn], hpre⟩

/-- The key that an insert generated comes back into the row. -/
theorem ensures_assignKey {g : Field} (hg : m.schema.generatedKey = some g) {key : Value}
    {h : Handle TableStore} {s : TableStore} :
    Ensures h (At rows s) (m.assignKey r g key)
      (fun _ w s' => ∃ row, m.keyed key (rows.getD r []) = .ok row ∧ At (rows.set r row) s w s')
      (At rows s) := by
  unfold assignKey
  simp only [keyed, hg]
  split
  · refine (ensures_note unlogged_at).imp (fun _ _ => id) ?_ fun _ _ => id
    exact fun _ w s hpre => ⟨_, rfl, by rwa [set_getD]⟩
  · refine (ensures_lift fun _ _ => id).bind fun v => ensures_of fun hv => ?_
    refine ensures_place.bind fun _ => ?_
    refine (ensures_note unlogged_at).imp (fun _ _ => id) ?_ fun _ _ => id
    exact fun _ w s hpre => ⟨_, by rw [hv]; rfl, hpre⟩

/-- The call by which a row is inserted, with the key that the store generated. -/
theorem ensures_insertCall {g : Field} {types : List ValueType} {row : Row}
    (hg : m.schema.generatedKey = some g) :
    Ensures d.handle (At rows s₀)
      (insertKey m.insertStatement.toText (m.boundValues m.insertBound row) types g.columnName)
      (fun reply w s => (reply.1 = 1 ∧ (m.inserted row s₀).1 = .ok reply.2) ∧
        At rows (m.inserted row s₀).2 w s)
      (At rows (m.inserted row s₀).2) := by
  have hreply : d.reply s₀ (.insertKey
      m.insertStatement.toText (m.boundValues m.insertBound row) types g.columnName) =
      ((m.inserted row s₀).1.map fun key => (1, key), (m.inserted row s₀).2) := by
    rw [← perform_insert, hg]
    exact Dialect.execute_of_knows (h := hd) (by simp [statements]) ..
  refine (ensures_call hreply).imp (fun _ _ => id) ?_ fun _ _ => And.right
  rintro reply w s ⟨hr, hpre⟩
  cases hkey : (m.inserted row s₀).1 with
  | error e =>
    rw [hkey] at hr
    cases hr
  | ok key =>
    rw [hkey] at hr
    obtain rfl := Except.ok.inj hr
    exact ⟨⟨rfl, rfl⟩, hpre⟩

theorem ensures_insertWrite {types : List ValueType} {row : Row}
    (hg : m.schema.generatedKey = none) :
    Ensures d.handle (At rows s₀)
      (write m.insertStatement.toText (m.boundValues m.insertBound row) types)
      (fun count w s => (count = 1 ∧ ∃ key, (m.inserted row s₀).1 = .ok key) ∧
        At rows (m.inserted row s₀).2 w s)
      (At rows (m.inserted row s₀).2) := by
  have hperform := perform_insert m row s₀
  rw [hg] at hperform
  have hknown : m.insertStatement ∈ m.statements := by simp [statements]
  refine (ensures_call (reply_write hknown hperform)).imp (fun _ _ => id) ?_ fun _ _ => And.right
  rintro count w s ⟨hr, hpre⟩
  cases hkey : (m.inserted row s₀).1 with
  | error e =>
    rw [hkey] at hr
    cases hr
  | ok key =>
    rw [hkey] at hr
    exact ⟨⟨(Except.ok.inj hr).symm, key, rfl⟩, hpre⟩

/-- An insert that does not fail has added a row, and put the key that was generated into
the row at hand. -/
theorem ensures_insert (hk : m.hasKeys = true) :
    Ensures d.handle (At rows s₀) (m.insert r)
      (fun done w s => (rows.getD r []).length = m.schema.fields.length ∧ done = true ∧
        ∃ key row, (m.inserted (rows.getD r []) s₀).1 = .ok key ∧
          m.keyed key (rows.getD r []) = .ok row ∧
          At (rows.set r row) (m.inserted (rows.getD r []) s₀).2 w s)
      (fun w s => (rows.getD r []).length ≠ m.schema.fields.length ∧ At rows s₀ w s ∨
        At rows (m.inserted (rows.getD r []) s₀).2 w s) := by
  unfold insert
  rw [hk, ← bind_assoc]
  refine (ensures_values.imp (fun _ _ => id) (fun _ _ _ => id) fun _ _ => Or.inl).bind
    fun values => ensures_of fun hvalues => ?_
  obtain ⟨hlen, rfl⟩ := hvalues
  split
  · rename_i hg
    refine ((ensures_insertWrite hg).imp (fun _ _ => id) (fun _ _ _ => id)
      fun _ _ => Or.inr).bind fun n => ensures_of fun hn => ?_
    obtain ⟨rfl, key, hkey⟩ := hn
    exact ensures_pure fun w s hpre =>
      ⟨hlen, rfl, key, _, hkey, by rw [keyed, hg], by rwa [set_getD]⟩
  · rename_i g hg
    refine ((ensures_insertCall hg).imp (fun _ _ => id) (fun _ _ _ => id)
      fun _ _ => Or.inr).bind ?_
    rintro ⟨n, key⟩
    refine ensures_of fun hn => ?_
    obtain ⟨rfl, hkey⟩ := hn
    refine ((ensures_assignKey hg).imp (fun _ _ => id) (fun _ _ _ => id) fun _ _ => Or.inr).bind
      fun _ => ensures_pure ?_
    rintro w s ⟨row, hrow, hpre⟩
    exact ⟨hlen, rfl, key, row, hkey, hrow, hpre⟩

/-! ## Reading -/

/-- Copying leaves the columns up to some place in the row: all of them, unless one could
not be brought into its native form or has no place in the row. -/
theorem ensures_copies {pairs : List (Value × Field)} {h : Handle TableStore} {s : TableStore} :
    Ensures h (At rows s)
      (pairs.forM fun (v, f) => do setAt r f.index (← lift (m.extract f.valueType v)))
      (fun _ w s' => ∃ row, m.copied pairs (rows.getD r []) = .ok row ∧ At (rows.set r row) s w s')
      (fun w s' => (∀ row, m.copied pairs (rows.getD r []) = .ok row →
          ∃ e ∈ pairs, (rows.getD r []).length ≤ e.2.index) ∧
        ∃ n row, m.copied (pairs.take n) (rows.getD r []) = .ok row ∧
          At (rows.set r row) s w s') := by
  induction pairs generalizing rows with
  | nil => exact ensures_pure fun w s hpre => ⟨_, rfl, by rwa [set_getD]⟩
  | cons e pairs ih =>
    obtain ⟨v, f⟩ := e
    have hnone : ∀ w s', At rows s w s' → ∃ n row,
        m.copied (((v, f) :: pairs).take n) (rows.getD r []) = .ok row ∧
          At (rows.set r row) s w s' := fun w s' hpre => ⟨0, _, rfl, by rwa [set_getD]⟩
    have hset : Ensures h (At rows s) (do setAt r f.index (← lift (m.extract f.valueType v)))
        (fun _ w s' => ∃ x, m.extract f.valueType v = .ok x ∧ r < rows.length ∧
          At (rows.set r ((rows.getD r []).set f.index x)) s w s')
        (fun w s' => (∀ row, m.copied ((v, f) :: pairs) (rows.getD r []) = .ok row →
            ∃ e ∈ (v, f) :: pairs, (rows.getD r []).length ≤ e.2.index) ∧
          ∃ n row, m.copied (((v, f) :: pairs).take n) (rows.getD r []) = .ok row ∧
            At (rows.set r row) s w s') := by
      have hfail : ∀ e, m.extract f.valueType v = .error e → ∀ row,
          m.copied ((v, f) :: pairs) (rows.getD r []) ≠ .ok row := by
        intro e he row hrow
        rw [copied_cons, he] at hrow
        cases hrow
      refine (ensures_lift_of fun e he w s' hpre => ⟨fun row hrow => absurd hrow (hfail e he row),
        hnone w s' hpre⟩).bind fun x => ensures_of fun hx => ensures_setAt_of ?_ ?_
      · rintro w s' ⟨rfl, rfl⟩ hlt
        exact ⟨x, hx, Workspace.lt_of_row hlt, rfl, rfl⟩
      · rintro w s' ⟨rfl, rfl⟩ hle
        exact ⟨fun _ _ => ⟨_, List.mem_cons_self, hle⟩, hnone w s' ⟨rfl, rfl⟩⟩
    refine hset.bind fun _ => ?_
    rintro w s' ⟨x, hx, hr, hpre⟩
    have hrow : (rows.set r ((rows.getD r []).set f.index x)).getD r [] =
        (rows.getD r []).set f.index x := getD_set_self hr ..
    have hcopied : ∀ pairs, m.copied ((v, f) :: pairs) (rows.getD r []) =
        m.copied pairs ((rows.getD r []).set f.index x) := fun pairs => by rw [copied_cons, hx]; rfl
    refine ih.imp (fun _ _ => id) ?_ ?_ w s' hpre
    · rintro _ w s' ⟨row, hcopy, hat⟩
      rw [hrow] at hcopy
      rw [List.set_set] at hat
      exact ⟨row, by rw [hcopied, hcopy], hat⟩
    · rintro w s' ⟨hfail, n, row, hcopy, hat⟩
      rw [hrow] at hfail hcopy
      rw [List.set_set] at hat
      refine ⟨fun row hrow => ?_, n + 1, row, by rw [List.take_succ_cons, hcopied, hcopy], hat⟩
      obtain ⟨e, he, hle⟩ := hfail row (hcopied pairs ▸ hrow)
      rw [List.length_set] at hle
      exact ⟨e, List.mem_cons_of_mem _ he, hle⟩

/-- What the text of a read finds is the first stored row of the row's identity. -/
theorem query_read (row : Row) :
    d.query s₀ m.readStatement.toText
        (m.boundValues m.whereFields row) =
      .ok (((m.rowsIn s₀).filter (·.agrees (m.identity row))).map fun stored =>
        (columns m.selectFields).map stored.column) := by
  rw [hd.query m.readStatement (by simp [statements])]
  rfl

/-- A read says whether a stored row has the identity of the row at hand, and copies its
columns. The store stays as it is. -/
theorem ensures_read (hk : m.hasKeys = true) :
    Ensures d.handle (At rows s₀) (m.read r)
      (fun found w s => (rows.getD r []).length = m.schema.fields.length ∧
        match m.stored? (rows.getD r []) s₀ with
        | none => found = false ∧ At rows s₀ w s
        | some stored => found = true ∧ ∃ row,
          m.copied (m.selectFields.map fun f => (stored.column f.columnName, f))
            (rows.getD r []) = .ok row ∧ At (rows.set r row) s₀ w s)
      (fun w s => (rows.getD r []).length ≠ m.schema.fields.length ∧ At rows s₀ w s ∨
        (rows.getD r []).length = m.schema.fields.length ∧
          ∃ stored, m.stored? (rows.getD r []) s₀ = some stored ∧
            (∀ row, m.copied (m.selectFields.map fun f => (stored.column f.columnName, f))
                (rows.getD r []) = .ok row →
              ∃ f ∈ m.selectFields, (rows.getD r []).length ≤ f.index) ∧
            ∃ n row, m.copied
                ((m.selectFields.map fun f => (stored.column f.columnName, f)).take n)
                (rows.getD r []) = .ok row ∧ At (rows.set r row) s₀ w s) := by
  unfold Mapping.read
  rw [hk, ← bind_assoc]
  refine (ensures_values.imp (fun _ _ => id) (fun _ _ _ => id) fun _ _ => Or.inl).bind
    fun values => ensures_of fun hvalues => ?_
  obtain ⟨hlen, rfl⟩ := hvalues
  have hreply : d.reply s₀ (.read m.readStatement.toText
      (m.boundValues m.whereFields (rows.getD r [])) (types m.whereFields)
      (types m.selectFields)) = (.ok ((m.stored? (rows.getD r []) s₀).map fun stored =>
        (columns m.selectFields).map stored.column), s₀) := by
    rw [Dialect.reply, query_read, stored?, ← List.head?_filter, ← List.head?_map]
    rfl
  refine ((ensures_call hreply).imp (fun _ _ => id) (fun _ _ _ => id) ?_).bind fun found =>
    ensures_of fun hfound => ?_
  · rintro w s ⟨⟨e, ⟨⟩⟩, -⟩
  obtain rfl := Except.ok.inj hfound
  cases hstored : m.stored? (rows.getD r []) s₀ with
  | none => exact ensures_pure fun w s hpre => ⟨hlen, rfl, hpre⟩
  | some stored =>
    refine (ensures_copies.imp (fun _ _ => id) (fun _ _ _ => id) ?_).bind fun _ => ensures_pure ?_
    · rintro w s ⟨hfail, n, row, hcopy, hat⟩
      rw [zip_columns] at hfail hcopy
      refine .inr ⟨hlen, stored, rfl, fun row hrow => ?_, n, row, hcopy, hat⟩
      obtain ⟨e, he, hle⟩ := hfail row hrow
      obtain ⟨f, hf, rfl⟩ := List.mem_map.mp he
      exact ⟨f, hf, hle⟩
    · rintro w s ⟨row, hcopy, hat⟩
      rw [zip_columns] at hcopy
      exact ⟨hlen, rfl, row, hcopy, hat⟩

/-! ## Updating several rows -/

/-- Updates by several rows, one after the other, and how many stored rows they took. -/
def updatedAll (m : Mapping) : List Row → TableStore → Nat × TableStore
  | [], s => (0, s)
  | row :: rows, s =>
    ((m.updated row s).1 + (m.updatedAll rows (m.updated row s).2).1,
      (m.updatedAll rows (m.updated row s).2).2)

theorem executeAll_update (d : Dialect) [hd : d.Knows m.statements]
    (hc : m.canUpdate = true) (batch : List Row) (s : TableStore) :
    d.executeAll m.updateStatement.toText none
        (batch.map (m.boundValues m.updateBound)) s =
      (.ok ((m.updatedAll batch s).1, batch.map fun _ => .null), (m.updatedAll batch s).2) := by
  induction batch generalizing s with
  | nil => rfl
  | cons row batch ih =>
    rw [List.map_cons, Dialect.executeAll,
      Dialect.execute_of_knows (h := hd) (by simp [statements]), perform_update hc]
    simp only [ih, updatedAll, Except.map]
    rfl

omit hd in
/-- What several rows bind. -/
theorem ensures_valuesOf {rs : List RowRef} {fields : List Field} {h : Handle TableStore} :
    Ensures h (At rows s₀) (m.bindRows fields rs)
      (fun values w s => values = rs.map (fun r => m.boundValues fields (rows.getD r [])) ∧
        At rows s₀ w s) (At rows s₀) := by
  have hrow : ∀ r ∈ rs, Ensures h (At rows s₀)
      (do lift (m.bindRow fields (← Work.row r)))
      (fun values w s => values = m.boundValues fields (rows.getD r []) ∧ At rows s₀ w s)
      (At rows s₀) := fun r _ =>
    ensures_values.imp (fun _ _ => id) (fun _ _ _ hpre => ⟨hpre.1.2, hpre.2⟩) fun _ _ => And.right
  refine (ensures_mapM hrow).imp (fun _ _ => id) ?_ fun _ _ => id
  rintro values w s ⟨hvalues, hpre⟩
  have hmap := List.forall₂_map_left_iff.mpr (hvalues.imp fun _ _ => Eq.symm)
  rw [List.forall₂_eq_eq_eq] at hmap
  exact ⟨hmap.symm, hpre⟩

/-- Updating several rows says whether as many stored rows were taken. -/
theorem ensures_updateAll {rs : List RowRef} :
    Ensures d.handle (At rows s₀) (m.updateAll rs)
      (fun done w s => if m.canUpdate then
          done = decide ((m.updatedAll (rs.map (rows.getD · [])) s₀).1 = rs.length) ∧
          At rows (m.updatedAll (rs.map (rows.getD · [])) s₀).2 w s
        else done = false ∧ At rows s₀ w s) (At rows s₀) := by
  unfold updateAll
  split
  · rename_i hc
    have hc : m.canUpdate = false := by simpa using hc
    simp only [hc]
    exact ensures_refuse
  · rename_i hc
    have hc : m.canUpdate = true := by simpa using hc
    simp only [hc, if_true]
    split
    · rename_i hempty
      obtain rfl := List.isEmpty_iff.mp hempty
      exact ensures_pure fun w s hpre => ⟨rfl, hpre⟩
    · refine ensures_valuesOf.bind fun values => ensures_of fun hvalues => ?_
      subst hvalues
      have hreply : d.reply s₀
          (.writeMany m.updateStatement.toText
            (rs.map fun r => m.boundValues m.updateBound (rows.getD r [])) (types m.updateBound)) =
          (.ok ((m.updatedAll (rs.map (rows.getD · [])) s₀).1 : Int),
            (m.updatedAll (rs.map (rows.getD · [])) s₀).2) := by
        have hexecute := executeAll_update d hc (rs.map (rows.getD · [])) s₀
        rw [List.map_map] at hexecute
        rw [Dialect.reply]
        exact congrArg (fun e : Except Failure (Int × List Value) × TableStore =>
          (e.1.map (·.1), e.2)) hexecute
      refine ((ensures_call hreply).imp (fun _ _ => id) (fun _ _ _ => id) ?_).bind fun n =>
        ensures_of fun hn => ?_
      · rintro w s ⟨⟨e, ⟨⟩⟩, -⟩
      · obtain rfl := Except.ok.inj hn
        split
        · rename_i hall
          exact ensures_pure fun w s hpre => ⟨(decide_eq_true (Int.ofNat.inj hall)).symm, hpre⟩
        · rename_i hsome
          refine (ensures_note unlogged_at).bind fun _ => ensures_pure fun w s hpre => ⟨?_, hpre⟩
          exact (decide_eq_false fun hall => hsome (congrArg Int.ofNat hall)).symm

end

end Mapping

end Tablewright
