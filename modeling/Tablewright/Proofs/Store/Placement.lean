import Tablewright.Proofs.Store.ReadBack

/-! Where written rows are stored. A row that is written stands at a place of its table: the place of
a row that its update took, or a new one behind all others. Every other stored row stays at its place
with the same contents. So what was written stays as well, as long as no later write finds it. -/

namespace Tablewright

open Work TableStore

namespace TableStore

/-- The same tables, and the same supply of keys. -/
structure Alike (s t : TableStore) : Prop where
  tables : ∀ name, t.table name = s.table name
  supply : t.supply = s.supply
  issued : t.issued = s.issued

theorem Alike.refl (s : TableStore) : s.Alike s := ⟨fun _ => rfl, rfl, rfl⟩

/-- Every stored row is still at its place with the same contents, unless it is one of those that
were found. -/
def StaysBut (found : String → StoredRow → Prop) (s t : TableStore) : Prop :=
  ∀ (name : String) (i : Nat) (stored : StoredRow), (s.table name).rows[i]? = some stored →
    ¬ found name stored → (t.table name).rows[i]? = some stored

/-- Every stored row is still at its place with the same contents. -/
abbrev Stays (s t : TableStore) : Prop := StaysBut (fun _ _ => False) s t

variable {s t u : TableStore} {found more : String → StoredRow → Prop}

theorem StaysBut.mono (h : StaysBut found s t) (hmore : ∀ name stored, found name stored →
    more name stored) : StaysBut more s t :=
  fun name i stored hs hnot => h name i stored hs fun hfound => hnot (hmore name stored hfound)

theorem StaysBut.trans (h : StaysBut found s t) (h' : StaysBut found t u) : StaysBut found s u :=
  fun name i stored hs hnot => h' name i stored (h name i stored hs hnot) hnot

theorem Stays.stays (h : Stays s t) : StaysBut found s t := h.mono fun _ _ => False.elim

theorem stays_of_tables (h : ∀ name, t.table name = s.table name) : Stays s t :=
  fun name i stored hs _ => by rwa [h name]

theorem Alike.stays (h : s.Alike t) : Stays s t := stays_of_tables h.tables

end TableStore

namespace Mapping

variable {m : Mapping} {op : RowOperation} {row row' : Row} {s s₁ t : TableStore}
  {stored : StoredRow} {rows : List Row} {r : RowRef}

/-! ## What a statement leaves at its place -/

theorem table_updated (m : Mapping) (row : Row) (s : TableStore) (name : String) :
    (m.updated row s).2.table name = if m.table = name then
      { s.table m.table with rows := m.rowsIn (m.updated row s).2 } else s.table name := by
  rw [rowsIn_updated]
  exact table_setRows ..

theorem table_inserted (m : Mapping) (row : Row) (s : TableStore) (name : String) :
    (m.inserted row s).2.table name = if m.table = name then
      { s.table m.table with rows := m.rowsIn (m.inserted row s).2 } else s.table name := by
  rw [rowsIn_inserted]
  cases h : m.clashes row s with
  | true =>
    rw [inserted_of_clash h]
    split
    · rename_i hname
      subst hname
      rfl
    · rfl
  | false =>
    rw [inserted_of_fresh h]
    exact table_setRows ..

/-- An update leaves every row at its place, and writes over those that it takes. -/
theorem getElem?_updated (row : Row) {i : Nat} (h : (m.rowsIn s)[i]? = some stored) :
    ∃ n, (m.rowsIn (m.updated row s).2)[i]? = some (if stored.agrees (m.version row) then
      m.updatedRow row s n stored else stored) := by
  rw [rowsIn_updated]
  exact getElem?_updateRows h s.ticks

theorem stays_updated (m : Mapping) (row : Row) (s : TableStore) :
    s.StaysBut (fun name stored => name = m.table ∧ stored.agrees (m.version row) = true)
      (m.updated row s).2 := by
  intro name i stored hs hnot
  rw [table_updated]
  split
  · rename_i hname
    subst hname
    obtain ⟨n, hn⟩ := getElem?_updated row hs
    rwa [if_neg fun hagrees => hnot ⟨rfl, hagrees⟩] at hn
  · exact hs

theorem stays_inserted (m : Mapping) (row : Row) (s : TableStore) : s.Stays (m.inserted row s).2 := by
  intro name i stored hs _
  rw [table_inserted]
  split
  · rename_i hname
    subst hname
    have hrows : (m.rowsIn s)[i]? = some stored := hs
    rw [rowsIn_inserted]
    split
    · exact hrows
    · rwa [List.getElem?_append_left (List.getElem?_eq_some_iff.mp hrows).1]
  · exact hs

/-! ## Writing a row -/

/-- What a write of a row does to the store, and what it leaves of the row: an update takes a stored
row, or an insert adds one and its key comes back. -/
inductive Changes (m : Mapping) (op : RowOperation) (row : Row) (s : TableStore) :
    Row → TableStore → Prop
  | updated : op ≠ .insert → m.Takes row s → m.Changes op row s row (m.updated row s).2
  | inserted {s₁ : TableStore} {key : Value} {row' : Row} : op ≠ .update → s.Alike s₁ →
      (m.inserted row s₁).1 = .ok key → m.keyed key row = .ok row' →
      m.Changes op row s row' (m.inserted row s₁).2

/-- A row was written. -/
structure Wrote (m : Mapping) (op : RowOperation) (row : Row) (s : TableStore) (row' : Row)
    (t : TableStore) : Prop where
  keys : m.hasKeys = true
  fits : row.length = m.schema.fields.length
  change : m.Changes op row s row' t

/-- A row is as it was, but for a generated key that came back. -/
def SameButKey (m : Mapping) (row row' : Row) : Prop :=
  row' = row ∨ ∃ g v, m.schema.generatedKey = some g ∧ row' = row.set g.index v

theorem SameButKey.length_eq (h : m.SameButKey row row') : row'.length = row.length := by
  obtain rfl | ⟨g, v, -, rfl⟩ := h
  · rfl
  · exact List.length_set

theorem SameButKey.getD_eq (hs : m.schema.Sound) (h : m.SameButKey row row') {f : Field}
    (hf : f ∈ m.schema.fields) (hne : m.schema.generatedKey ≠ some f) :
    row'.getD f.index .null = row.getD f.index .null := by
  obtain rfl | ⟨g, v, hg, rfl⟩ := h
  · rfl
  · refine getD_set_of_ne _ (fun hindex => hne ?_) ..
    rw [hg, hs.eq_of_index (hs.generated_field hg) hf hindex.symm]

theorem Wrote.sameButKey (h : m.Wrote op row s row' t) : m.SameButKey row row' := by
  cases h.change with
  | updated => exact .inl rfl
  | inserted _ _ _ hkey =>
    obtain ⟨rfl, -⟩ | ⟨g, v, hg, -, rfl⟩ := keyed_cases hkey
    · exact .inl rfl
    · exact .inr ⟨g, v, hg, rfl⟩

theorem Wrote.supply (h : m.Wrote op row s row' t) : t.supply = s.supply := by
  cases h.change with
  | updated => rfl
  | @inserted s₁ _ _ _ halike _ _ =>
    rw [← halike.supply]
    cases hc : m.clashes row s₁ with
    | true => rw [inserted_of_clash hc]; rfl
    | false => rw [inserted_of_fresh hc]; rfl

/-- A write leaves every stored row at its place, unless its update takes it. -/
theorem Wrote.stays (h : m.Wrote op row s row' t) :
    s.StaysBut (fun name stored => name = m.table ∧ stored.agrees (m.identity row) = true ∧
      row' = row) t := by
  cases h.change with
  | updated =>
    exact (stays_updated m row s).mono fun _ _ ⟨hname, hversion⟩ =>
      ⟨hname, agrees_of_version hversion, rfl⟩
  | inserted _ halike => exact Stays.stays (halike.stays.trans (stays_inserted m row _))

/-- A stored row bears what a row binds: in the columns that updates set and in those that it is
found by. A key that the store has generated is the one from which the row has its own. -/
structure Bears (m : Mapping) (p : Supply) (row : Row) (stored : StoredRow) : Prop where
  bound : ∀ f ∈ setFields m.schema ++ m.whereFields, m.schema.generatedKey ≠ some f →
    stored.BelongsTo f.columnName (m.boundValue f row)
  key : ∀ g, m.schema.generatedKey = some g → stored.BelongsTo g.columnName (m.boundValue g row) ∨
    ∃ n, stored.column g.columnName = p.key n ∧ (isNoKey (p.key n) = true ∨
      g.valueType.fromDatabase (p.key n) = .ok (row.getD g.index .null))

/-- A stored row bears the row whose update took it. -/
theorem Keyed.bears_updatedRow (h : m.Keyed) (hidentity : stored.agrees (m.identity row) = true)
    (p : Supply) (s : TableStore) (ticks : Nat) :
    m.Bears p row (m.updatedRow row s ticks stored) := by
  have hidentity : (m.updatedRow row s ticks stored).agrees (m.identity row) = true :=
    (h.agrees_updatedRow row row s ticks stored).trans hidentity
  refine ⟨fun f hf _ => ?_, fun g hg =>
    .inl (.inr (same_of_identity hidentity (h.generated_mem_whereFields hg)))⟩
  rcases List.mem_append.mp hf with hset | hwhere
  · exact .inl (h.column_changed hset row s ticks stored)
  · exact .inr (same_of_identity hidentity hwhere)

/-- A new row bears the one that it was made of, once the generated key has come back. -/
theorem Keyed.bears_insertedRow (h : m.Keyed) (hlen : row.length = m.schema.fields.length)
    {key : Value} (hok : (m.inserted row s).1 = .ok key) (hkey : m.keyed key row = .ok row') :
    m.Bears s.supply row' (m.insertedRow row s) := by
  obtain ⟨hplaces, -⟩ := h.keyed_places hkey
  refine ⟨fun f hf hne => .inl ?_, fun g hg => .inr ⟨s.issued, column_generated hg row s, ?_⟩⟩
  · have hcolumn : f ∈ m.selectFields ∧ (m.schema.generatedKey ≠ some f → f ∈ m.insertBound) := by
      rcases List.mem_append.mp hf with hset | hwhere
      · exact ⟨setFields_columns f hset, fun _ => h.mem_insertBound_of_set hset⟩
      · have hselect := h.whereFields_subset hwhere
        exact ⟨hselect, fun hne => h.mem_insertBound hwhere fun hrole =>
          hne (h.sound.generated_of_role (List.mem_filter.mp hselect).1 hrole)⟩
    rw [h.column_inserted (hcolumn.2 hne), boundValue, boundValue,
      hplaces f (List.mem_filter.mp hcolumn.1).1 hne]
  · rw [key_of_inserted hg hok] at hkey
    obtain ⟨-, hno⟩ | ⟨g', v, hg', hv, rfl⟩ := keyed_cases hkey
    · exact .inl (hno g hg)
    · obtain rfl := Option.some.inj (hg'.symm.trans hg)
      have hindex : g'.index < row.length :=
        hlen ▸ h.sound.generated_lt hg
      exact .inr (by rw [hv, getD_set_self hindex])

/-- Where a row was written the stored row bears it. If another was at the place before, the update
of the row took it. -/
theorem Wrote.place (h : m.Wrote op row s row' t) (hs : m.schema.Sound)
    (hn : (columns m.selectFields).Nodup) : ∃ (i : Nat) (stored : StoredRow),
    (m.rowsIn t)[i]? = some stored ∧ m.Bears s.supply row' stored ∧
    ∀ old, (m.rowsIn s)[i]? = some old → old.agrees (m.identity row) = true ∧ row' = row := by
  have hm : m.Keyed := ⟨hs, h.keys, hn⟩
  cases h.change with
  | updated _ htakes =>
    have hcount := htakes.2
    rw [updated_count] at hcount
    obtain ⟨old, hold⟩ := List.exists_mem_of_length_pos hcount
    obtain ⟨hin, hversion⟩ := List.mem_filter.mp hold
    obtain ⟨i, hi⟩ := List.getElem?_of_mem hin
    obtain ⟨n, hn⟩ := getElem?_updated row hi
    rw [if_pos hversion] at hn
    refine ⟨i, _, hn, hm.bears_updatedRow (agrees_of_version hversion) _ s n, fun other hother => ?_⟩
    obtain rfl := Option.some.inj (hi.symm.trans hother)
    exact ⟨agrees_of_version hversion, rfl⟩
  | @inserted s₁ _ _ _ halike hok hkey =>
    have hrows : m.rowsIn s₁ = m.rowsIn s := congrArg Table.rows (halike.tables m.table)
    refine ⟨(m.rowsIn s).length, m.insertedRow row s₁, ?_, ?_, fun old hold => ?_⟩
    · rw [rowsIn_of_inserted hok, hrows, List.getElem?_concat_length]
    · rw [← halike.supply]
      exact hm.bears_insertedRow h.fits hok hkey
    · rw [List.getElem?_eq_none (Nat.le_refl _)] at hold
      cases hold

/-! ## Rows that are told apart -/

/-- No stored row that bears the first row is found by the second one. -/
def Apart (p : Supply) (m : Mapping) (row : Row) (m' : Mapping) (row' : Row) : Prop :=
  ∀ stored : StoredRow, m.Bears p row stored → stored.agrees (m'.identity row') = false

/-- If generated keys suit the record, a stored row bears them as the row binds them. -/
theorem Bears.belongsTo {p : Supply} (h : m.Bears p row stored) (hsuits : m.Suits p) {f : Field}
    (hf : f ∈ m.whereFields) : stored.BelongsTo f.columnName (m.boundValue f row) := by
  by_cases hg : m.schema.generatedKey = some f
  · rcases h.key f hg with hown | ⟨n, hcolumn, hkey⟩
    · exact hown
    · obtain ⟨hkeeps, hno⟩ := hsuits.keys f hg n
      have hnative : row.getD f.index .null = f.valueType.native (p.key n) := by
        rcases hkey with hkey | hkey
        · rw [hno] at hkey
          cases hkey
        · rw [ValueType.fromDatabase_of_keeps hkeeps] at hkey
          exact (Except.ok.inj hkey).symm
      have hnull : (p.key n).isNull = false := (Bool.or_eq_false_iff.mp hno).1
      rw [boundValue, hnative, fill_of_not_null ((ValueType.isNull_native _ _).trans hnull),
        StoredRow.BelongsTo, hcolumn]
      rcases ValueType.native_same f.valueType (p.key n) with heq | hsame
      · exact .inl heq.symm
      · exact .inr (Value.same_comm (ValueType.isPlain_of_keeps hkeeps) hsame)
  · exact h.bound f (List.mem_append_right _ hf) hg

/-- Rows that bind different values for a key are told apart. -/
theorem apart_of_key {m' : Mapping} {p : Supply} {f : Field} (hf' : f ∈ m'.whereFields)
    (hbears : ∀ stored : StoredRow, m.Bears p row stored →
      stored.BelongsTo f.columnName (m.boundValue f row))
    (hplain : (m.boundValue f row).isPlain = true) (hplain' : (m'.boundValue f row').isPlain = true)
    (hdiffer : (m.boundValue f row).same (m'.boundValue f row') = false) :
    Apart p m row m' row' := by
  intro stored hstored
  rw [Bool.eq_false_iff]
  intro hagrees
  have hsame := same_of_identity hagrees hf'
  rcases hbears stored hstored with heq | hown
  · rw [heq, hdiffer] at hsame
    cases hsame
  · have hcolumn := Value.isPlain_of_same hplain hown
    have hback := Value.same_of_same hcolumn (Value.same_comm hplain hown)
      (Value.same_comm hplain' hsame)
    rw [hdiffer] at hback
    cases hback

/-! ## Performing a write -/

section

variable {d : Dialect} [hd : d.Knows m.statements]

/-- What is known after a row was to be written. -/
def Performed (m : Mapping) (op : RowOperation) (rows : List Row) (r : RowRef) (s : TableStore)
    (done : Bool) : Fact TableStore := fun w t =>
  done = true ∧ (∃ row, m.Wrote op (rows.getD r []) s row t ∧ w.rows = rows.set r row) ∨
    done = false ∧ w.rows = rows ∧ s.Stays t

theorem ensures_refused {operation : String} {h : Handle TableStore} {E : Fact TableStore} :
    Ensures h (At rows s) (m.refuse operation) (m.Performed op rows r s) E := by
  refine ensures_refuse.imp (fun _ _ => id) ?_ fun _ _ => id
  rintro done w t ⟨rfl, hrows, rfl⟩
  exact .inr ⟨rfl, hrows, (Alike.refl _).stays⟩

/-- An insert adds a row or fails, where the store has the same tables as before. -/
theorem ensures_insertAlike (hop : op ≠ .update) (halike : s.Alike s₁) :
    Ensures d.handle (At rows s₁) (m.insert r) (m.Performed op rows r s)
      (fun w t => w.rows = rows ∧ s.Stays t) := by
  cases hk : m.hasKeys with
  | false =>
    unfold Mapping.insert
    rw [hk]
    refine ensures_refuse.bind fun done => ensures_of fun hdone => ensures_pure ?_
    rintro w t ⟨hrows, rfl⟩
    exact .inr ⟨hdone, hrows, halike.stays⟩
  | true =>
    refine (ensures_insert hk).imp (fun _ _ => id) ?_ ?_
    · rintro done w t ⟨hlen, rfl, key, row, hok, hkey, hrows, rfl⟩
      exact .inl ⟨rfl, row, ⟨hk, hlen, .inserted hop halike hok hkey⟩, hrows⟩
    · rintro w t (⟨-, hrows, rfl⟩ | ⟨hrows, rfl⟩)
      · exact ⟨hrows, halike.stays⟩
      · exact ⟨hrows, halike.stays.trans (stays_inserted m _ _)⟩

theorem alike_updated (h : (m.updated row s).1 = 0) : s.Alike (m.updated row s).2 :=
  ⟨(updated_of_zero h).1, rfl, rfl⟩

/-- An update takes a stored row, or leaves all tables as they are. -/
theorem ensures_updateAlike (hop : op ≠ .insert) :
    Ensures d.handle (At rows s) (m.update r)
      (fun done w t => done = true ∧
          (∃ row, m.Wrote op (rows.getD r []) s row t ∧ w.rows = rows.set r row) ∨
        done = false ∧ ∃ s₁, s.Alike s₁ ∧ At rows s₁ w t)
      (fun w t => w.rows = rows ∧ s.Stays t) := by
  refine ensures_update.imp (fun _ _ => id) ?_ ?_
  · intro done w t hpre
    split at hpre
    · rename_i hc
      obtain ⟨hlen, hdone, hrows, rfl⟩ := hpre
      have hk : m.hasKeys = true := (Bool.and_eq_true_iff.mp hc).1
      cases done with
      | true =>
        have htakes : m.Takes (rows.getD r []) s := ⟨hc, of_decide_eq_true hdone.symm⟩
        exact .inl ⟨rfl, _, ⟨hk, hlen, .updated hop htakes⟩, by rwa [set_getD]⟩
      | false =>
        have hzero := Nat.le_zero.mp (Nat.le_of_not_lt (of_decide_eq_false hdone.symm))
        exact .inr ⟨rfl, _, alike_updated hzero, hrows, rfl⟩
    · obtain ⟨rfl, hpre⟩ := hpre
      exact .inr ⟨rfl, s, .refl s, hpre⟩
  · rintro w t ⟨-, hrows, rfl⟩
    exact ⟨hrows, (Alike.refl _).stays⟩

/-- A save ends as its update does, or as the insert that follows. -/
theorem ensures_saveAlike (hinsert : op ≠ .insert) (hupdate : op ≠ .update) :
    Ensures d.handle (At rows s) (m.save r) (m.Performed op rows r s)
      (fun w t => w.rows = rows ∧ s.Stays t) := by
  unfold Mapping.save
  split
  · exact ensures_refused.bind fun done => ensures_pure fun _ _ => id
  · split
    · refine (ensures_updateAlike hinsert).bind fun done => ?_
      cases done with
      | true =>
        refine ensures_pure ?_
        rintro w t (hwrote | ⟨⟨⟩, -⟩)
        exact .inl hwrote
      | false =>
        rintro w t (⟨⟨⟩, -⟩ | ⟨-, s₁, halike, hpre⟩)
        exact ensures_insertAlike hupdate halike w t hpre
    · exact ensures_insertAlike hupdate (.refl s)

/-- A write changes the store as it says, or leaves all stored rows where they are. -/
theorem ensures_perform (hread : op ≠ .read) (hdelete : op ≠ .delete) :
    Ensures d.handle (At rows s) (m.perform op r) (m.Performed op rows r s)
      (fun w t => w.rows = rows ∧ s.Stays t) := by
  cases op with
  | read => exact absurd rfl hread
  | delete => exact absurd rfl hdelete
  | insert => exact ensures_insertAlike nofun (.refl s)
  | save => exact ensures_saveAlike nofun nofun
  | update =>
    refine (ensures_updateAlike (show RowOperation.update ≠ .insert from nofun)).imp (fun _ _ => id) ?_ fun _ _ => id
    rintro done w t (hwrote | ⟨hdone, s₁, halike, hrows, rfl⟩)
    · exact .inl hwrote
    · exact .inr ⟨hdone, hrows, halike.stays⟩

end

end Mapping

end Tablewright
