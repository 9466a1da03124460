import Tablewright.Proofs.Schema.ValueType
import Tablewright.Proofs.Store.Saving
import Tablewright.Proofs.Store.Taken

/-! What is written is read back. A row that was inserted or updated is the only stored one of
its identity, so a read of any row with the same keys finds it. What its fields have bound is
of the columns' own types, and comes out of them as it went in. -/

namespace Tablewright

open Work TableStore

namespace Mapping

variable {m : Mapping} {f : Field} {s t : TableStore} {row other base found : Row}
  {stored x y : StoredRow}

/-- A row that holds nothing but null and values of its columns' types. -/
def Fits (m : Mapping) (row : Row) : Prop :=
  ∀ f ∈ m.selectFields, f.valueType.keeps (row.getD f.index .null) = true

instance (m : Mapping) (row : Row) : Decidable (m.Fits row) :=
  inferInstanceAs (Decidable (∀ f ∈ m.selectFields, _))

/-- The keys and the tenant of one row equal those of another. -/
def SameKeys (m : Mapping) (row other : Row) : Prop :=
  ∀ g ∈ m.whereFields, (other.getD g.index .null).same (row.getD g.index .null) = true

instance (m : Mapping) (row other : Row) : Decidable (m.SameKeys row other) :=
  inferInstanceAs (Decidable (∀ g ∈ m.whereFields, _))

/-- A row that was read holds, at the places of some fields, what another row has bound for
them, and at places without a column what it held before. -/
structure HoldsBound (m : Mapping) (fields : List Field) (row base found : Row) : Prop where
  columns : ∀ f ∈ fields, ∃ v, found[f.index]? = some v ∧
    (v = m.boundValue f row ∨ v.same (m.boundValue f row) = true)
  elsewhere : ∀ i, i ∉ places m.selectFields → found[i]? = base[i]?

/-- What a store makes by itself suits a record: generated keys are of the type of the key and
not zero, and stamps can be read as values of the columns that they go to. -/
structure Suits (m : Mapping) (p : Supply) : Prop where
  keys : ∀ g, m.schema.generatedKey = some g → ∀ n,
    g.valueType.keeps (p.key n) = true ∧ isNoKey (p.key n) = false
  stamps : ∀ f ∈ m.selectFields, IsStamp f → ∀ n, ∃ x, f.valueType.fromDatabase (p.stamp n) = .ok x

/-! ## Values -/

theorem extract_of_fromDatabase {t : ValueType} {v : Value} (h : ∃ x, t.fromDatabase v = .ok x) :
    ∃ x, m.extract t v = .ok x := by
  obtain ⟨x, hx⟩ := h
  exact ⟨m.fill t x, by rw [extract, hx]; rfl⟩

theorem keeps_fill {t : ValueType} {v : Value} (h : t.keeps v = true) :
    t.keeps (m.fill t v) = true := by
  unfold fill
  split
  · cases t <;> decide
  · exact h

/-- Null that was not filled in when it was bound is not filled in when it is read. -/
theorem fill_native_fill (m : Mapping) (t : ValueType) (v : Value) :
    m.fill t (t.native (m.fill t v)) = t.native (m.fill t v) := by
  have hnot : ((m.fill t v).isNull && m.nullAsZero && t.isNumeric) = false := by
    unfold fill
    split
    · cases t <;> simp [ValueType.zero, ValueType.isNumeric, Value.isNull]
    · rename_i hc
      simpa using hc
  rw [fill, ValueType.isNull_native, hnot]
  rfl

/-- What a row binds for a field of the type is read as it is, or as its equal. -/
theorem extract_bound (h : f.valueType.keeps (row.getD f.index .null) = true) :
    ∃ v, m.extract f.valueType (m.boundValue f row) = .ok v ∧
      (v = m.boundValue f row ∨ v.same (m.boundValue f row) = true) := by
  refine ⟨f.valueType.native (m.boundValue f row), ?_, ValueType.native_same _ _⟩
  rw [extract, boundValue, ValueType.fromDatabase_of_keeps (keeps_fill h)]
  exact congrArg Except.ok (fill_native_fill m _ _)

/-- Equal values are filled in alike. -/
theorem fill_same {t : ValueType} {v w : Value} (hw : w.isPlain = true) (h : v.same w = true) :
    (m.fill t v).same (m.fill t w) = true := by
  have hzero : t.zero.same t.zero = true := by cases t <;> decide
  unfold fill
  rw [Value.isNull_of_same hw h]
  split
  · exact hzero
  · exact h

theorem agrees_of_same (hsame : ∀ g ∈ m.whereFields,
    (stored.column g.columnName).same (m.boundValue g other) = true) :
    stored.agrees (m.identity other) = true := by
  rw [StoredRow.agrees, List.all_eq_true, identity, zip_boundValues]
  intro e he
  obtain ⟨g, hg, rfl⟩ := List.mem_map.mp he
  exact hsame g hg

/-- What a row holds that shows the columns in which another row's values were bound. -/
theorem holdsBound_of_shows {fields : List Field} (hrow : m.Fits row)
    (hfields : fields ⊆ m.selectFields)
    (hbound : ∀ f ∈ fields, stored.column f.columnName = m.boundValue f row)
    (hshows : m.Shows m.selectFields stored.column base found) :
    m.HoldsBound fields row base found := by
  refine ⟨fun f hf => ?_, hshows.elsewhere⟩
  obtain ⟨v, hv, hplace⟩ := hshows.columns f (hfields hf)
  obtain ⟨v', hv', hsame⟩ := extract_bound (hrow f (hfields hf))
  rw [hbound f hf, hv'] at hv
  obtain rfl := Except.ok.inj hv
  exact ⟨v', hplace, hsame⟩

/-- The key that comes back into a row is the one that the store made. -/
theorem keyed_of_inserted {key : Value} (hok : (m.inserted row s).1 = .ok key) :
    m.keyed key row = m.keyed (s.supply.key s.issued) row := by
  unfold keyed
  cases hg : m.schema.generatedKey with
  | none => rfl
  | some g => rw [key_of_inserted hg hok]

/-! ## Rows of the same keys -/

theorem SameKeys.symm (h : m.SameKeys row other) (hrow : m.PlainKeys row) : m.SameKeys other row :=
  fun g hg => Value.same_comm (hrow g hg) (h g hg)

theorem SameKeys.plain (h : m.SameKeys row other) (hrow : m.PlainKeys row) : m.PlainKeys other :=
  fun g hg => Value.isPlain_of_same (hrow g hg) (h g hg)

/-- A stored row of one identity is of the other, too. -/
theorem SameKeys.agrees (h : m.SameKeys row other) (hrow : m.PlainKeys row)
    (hagrees : stored.agrees (m.identity row) = true) : stored.agrees (m.identity other) = true := by
  refine agrees_of_same fun g hg => ?_
  have hplain := m.isPlain_fill g.valueType (hrow g hg)
  exact Value.same_of_same hplain (same_of_identity hagrees hg) (fill_same (hrow g hg) (h g hg))

theorem Fits.plain (h : m.Keyed) (hrow : m.Fits row) : m.PlainKeys row :=
  fun g hg => ValueType.isPlain_of_keeps (hrow g (h.whereFields_subset hg))

namespace Keyed

variable (h : m.Keyed)
include h

/-! ## Reading a stored row -/

/-- A row of the record's length stands in the workspace, so what is written there is there. -/
theorem row_of_set {w w' : Workspace} {r : RowRef}
    (hlen : (w.row r).length = m.schema.fields.length) (hrows : w'.rows = w.rows.set r row) :
    w'.row r = row := by
  obtain ⟨g, hg⟩ := List.exists_mem_of_ne_nil _ h.whereFields_ne_nil
  have hindex : g.index < (w.row r).length :=
    hlen ▸ h.sound.index_lt (List.mem_filter.mp (h.whereFields_subset hg)).1
  rw [Workspace.row, hrows, List.getD_eq_getElem?_getD,
    List.getElem?_set_self (Workspace.lt_of_row hindex), Option.getD_some]

/-- A read that finds a row whose columns can all be brought into their native form puts them
into the row at hand, and leaves the store as it is. -/
theorem read_of_stored (d : Dialect) [d.Knows m.statements] {w : Workspace}
    {r : RowRef} (hlen : (w.row r).length = m.schema.fields.length)
    (hstored : m.stored? (w.row r) s = some stored)
    (hcolumns : ∀ f ∈ m.selectFields, ∃ x, m.extract f.valueType (stored.column f.columnName) = .ok x) :
    ∃ w', ((m.read r).start w).run d.handle s =
        ((.ok true, w'), s) ∧
      m.Shows m.selectFields stored.column (w.row r) (w'.row r) := by
  have hsub : ∀ f ∈ m.selectFields, f ∈ m.schema.fields := columns_subset fun _ hf => hf
  have hpairs : ∀ e ∈ m.selectFields.map fun f => (stored.column f.columnName, f),
      ∃ x, m.extract e.2.valueType e.1 = .ok x := List.forall_mem_map.mpr hcolumns
  obtain ⟨row, hrow⟩ := copied_of_extracts hpairs (w.row r)
  obtain ⟨⟨⟨result, w'⟩, t⟩, hrun⟩ : ∃ out,
    ((m.read r).start w).run d.handle s = out := ⟨_, rfl⟩
  have hend := (ensures_read h.keys).of_run hrun ⟨rfl, rfl⟩
  cases result with
  | ok found =>
    obtain ⟨-, hend⟩ := hend
    have hstored' : m.stored? (w.rows.getD r []) s = some stored := hstored
    rw [hstored'] at hend
    obtain ⟨rfl, row', hrow', hrows, rfl⟩ := hend
    obtain rfl : row = row' := Except.ok.inj (hrow.symm.trans hrow')
    exact ⟨w', hrun, h.row_of_set hlen hrows ▸ shows_copied h.sound hsub hlen hrow⟩
  | error e =>
    rcases hend with ⟨hne, -⟩ | ⟨-, stored', hstored', hfail, -⟩
    · exact absurd hlen hne
    · obtain rfl : stored = stored' := Option.some.inj (hstored.symm.trans hstored')
      obtain ⟨f, hf, hle⟩ := hfail row hrow
      have hlt := h.sound.index_lt (hsub f hf)
      rw [← hlen] at hlt
      exact absurd hle (Nat.not_le.mpr hlt)

/-! ## After an insert -/

/-- The place of the generated key holds the key, and all other places what they held. -/
theorem keyed_places {key : Value} {row' : Row} (hkey : m.keyed key row = .ok row') :
    (∀ f ∈ m.schema.fields, m.schema.generatedKey ≠ some f →
      row'.getD f.index .null = row.getD f.index .null) ∧
    ∀ g, m.schema.generatedKey = some g → g.valueType.keeps key = true → isNoKey key = false →
      g.index < row.length → row'.getD g.index .null = g.valueType.native key := by
  obtain ⟨rfl, hno⟩ | ⟨g, v, hg, hv, rfl⟩ := keyed_cases hkey
  · refine ⟨fun _ _ _ => rfl, fun g hg _ hkeep => ?_⟩
    rw [hno g hg] at hkeep
    cases hkeep
  · refine ⟨fun f hf hne => getD_set_of_ne _ (fun hindex => ?_) .., fun g' hg' hkeeps _ hlt => ?_⟩
    · have hgf := h.sound.eq_of_index (h.sound.generated_field hg) hf
        hindex.symm
      exact hne (hgf ▸ hg)
    · obtain rfl : g = g' := Option.some.inj (hg.symm.trans hg')
      rw [ValueType.fromDatabase_of_keeps hkeeps] at hv
      obtain rfl := Except.ok.inj hv
      exact getD_set_self hlt ..

/-- A new row has the identity of every row with the keys of the one that it was made of. -/
theorem agrees_insertedRow (hsuits : m.Suits s.supply) (hrow : m.Fits row)
    (hlen : row.length = m.schema.fields.length) {row' : Row}
    (hkey : m.keyed (s.supply.key s.issued) row = .ok row') (hsame : m.SameKeys row' other) :
    m.PlainKeys other ∧ (m.insertedRow row s).agrees (m.identity other) = true := by
  obtain ⟨hkept, hgenerated⟩ := h.keyed_places hkey
  -- What the new row holds equals what the keys of its own row are bound as.
  have hown : ∀ g ∈ m.whereFields, (row'.getD g.index .null).isPlain = true ∧
      ((m.insertedRow row s).column g.columnName).same
        (m.fill g.valueType (row'.getD g.index .null)) = true := by
    intro g hg
    have hsel := h.whereFields_subset hg
    have hfield : g ∈ m.schema.fields := (List.mem_filter.mp hsel).1
    by_cases hgen : m.schema.generatedKey = some g
    · obtain ⟨hkeeps, hno⟩ := hsuits.keys g hgen s.issued
      have hplace := hgenerated g hgen hkeeps hno (hlen ▸ h.sound.index_lt hfield)
      have hplain := ValueType.isPlain_of_keeps hkeeps
      have hnative := ValueType.isPlain_native g.valueType hplain
      have hnull : (s.supply.key s.issued).isNull = false := (Bool.or_eq_false_iff.mp hno).1
      rw [hplace, column_generated hgen,
        fill_of_not_null ((ValueType.isNull_native _ _).trans hnull)]
      refine ⟨hnative, ?_⟩
      rcases ValueType.native_same g.valueType (s.supply.key s.issued) with heq | hsame'
      · have hself := Value.same_self_of_same (hplace ▸ hnative) (hsame g hg)
        rw [hplace] at hself
        rwa [heq] at hself ⊢
      · exact Value.same_comm hplain hsame'
    · have hrole : g.role ≠ some .generatedPrimaryKey :=
        fun hr => hgen (h.sound.generated_of_role hfield hr)
      have hplain : (row'.getD g.index .null).isPlain = true := by
        rw [hkept g hfield hgen]
        exact ValueType.isPlain_of_keeps (hrow g hsel)
      refine ⟨hplain, ?_⟩
      rw [h.column_inserted (h.mem_insertBound hg hrole), boundValue, ← hkept g hfield hgen]
      exact fill_same hplain (Value.same_self_of_same hplain (hsame g hg))
  refine ⟨fun g hg => Value.isPlain_of_same (hown g hg).1 (hsame g hg), agrees_of_same ?_⟩
  intro g hg
  obtain ⟨hplain, hcolumn⟩ := hown g hg
  exact Value.same_of_same (m.isPlain_fill _ hplain) hcolumn (fill_same hplain (hsame g hg))

/-- The new row is the one that a read of its identity finds, as no other has its keys. -/
theorem stored_inserted (hkey : (s.table m.table).key = columns m.whereFields)
    (hclash : m.clashes row s = false) (hother : m.PlainKeys other)
    (hagrees : (m.insertedRow row s).agrees (m.identity other) = true) :
    m.stored? other (m.inserted row s).2 = some (m.insertedRow row s) := by
  have hnone : (m.rowsIn s).find? (·.agrees (m.identity other)) = none := by
    rw [List.find?_eq_none]
    intro stored hm hstored
    have halike := (keyedAlike_of_identity hother hstored hagrees).1
    have hfound : m.clashes row s = true := by
      rw [clashes, hkey, Bool.and_eq_true, List.any_eq_true]
      exact ⟨by simp [columns, h.whereFields_ne_nil], stored, hm, halike⟩
    rw [hclash] at hfound
    cases hfound
  have hrows : m.rowsIn (m.inserted row s).2 = m.rowsIn s ++ [m.insertedRow row s] := by
    rw [rowsIn_inserted, hclash]
    rfl
  rw [stored?, hrows, List.find?_append, hnone]
  simp [hagrees]

/-- Every column of the new row can be brought into its native form. -/
theorem extract_inserted (hsuits : m.Suits s.supply) (hrow : m.Fits row) (hf : f ∈ m.selectFields) :
    ∃ x, m.extract f.valueType ((m.insertedRow row s).column f.columnName) = .ok x := by
  rcases h.column_cases hf with hgen | ⟨hinsert, hstamp⟩ | hbound
  · rw [column_generated hgen]
    exact extract_of_fromDatabase
      ⟨_, ValueType.fromDatabase_of_keeps (hsuits.keys f hgen s.issued).1⟩
  · have hterm : m.insertTerm f ≠ .parameter := by
      rw [insertTerm_eq, if_pos hstamp]
      exact nofun
    obtain ⟨i, -, hcolumn⟩ := h.column_stamped hinsert hterm row s
    rw [hcolumn]
    exact extract_of_fromDatabase (hsuits.stamps f hf hstamp _)
  · rw [h.column_inserted hbound]
    obtain ⟨v, hv, -⟩ := extract_bound (hrow f hf)
    exact ⟨v, hv⟩

/-- A read of the keys of a row that was inserted gives back what the row has bound. -/
theorem read_inserted (d : Dialect) [d.Knows m.statements]
    (hkey : (s.table m.table).key = columns m.whereFields) (hsuits : m.Suits s.supply)
    {w w' w₂ : Workspace} {r r₂ : RowRef} (hrow : m.Fits (w.row r))
    (hrun : ((m.insert r).start w).run d.handle s =
      ((.ok true, w'), t))
    (hlen : (w₂.row r₂).length = m.schema.fields.length)
    (hsame : m.SameKeys (w'.row r) (w₂.row r₂)) :
    ∃ w₃, ((m.read r₂).start w₂).run d.handle t =
        ((.ok true, w₃), t) ∧
      m.HoldsBound m.insertBound (w.row r) (w₂.row r₂) (w₃.row r₂) := by
  obtain ⟨hlen', -, key, row', hok, hkeyed, hrows, rfl⟩ :=
    (ensures_insert h.keys).of_run hrun ⟨rfl, rfl⟩
  rw [h.row_of_set hlen' hrows] at hsame
  rw [keyed_of_inserted hok] at hkeyed
  have hclash : m.clashes (w.row r) s = false := fresh_of_inserted hok
  obtain ⟨hplain, hagrees⟩ := h.agrees_insertedRow hsuits hrow hlen' hkeyed hsame
  obtain ⟨w₃, hread, hshows⟩ := h.read_of_stored d hlen
    (h.stored_inserted hkey hclash hplain hagrees) fun f hf => h.extract_inserted hsuits hrow hf
  refine ⟨w₃, hread, holdsBound_of_shows hrow h.sublist_insertBound.subset ?_ hshows⟩
  exact fun f hf => h.column_inserted hf _ s

/-! ## After an update -/

/-- The row that a read of its identity finds after an update took a row. -/
theorem stored_updated (hunique : (m.rowsIn s).Pairwise fun x y => ¬ m.KeyedAlike x y)
    (hrow : m.PlainKeys row) (htook : 0 < (m.updated row s).1) (hsame : m.SameKeys row other) :
    ∃ n, ∃ old ∈ m.rowsIn s,
      m.stored? other (m.updated row s).2 = some (m.updatedRow row s n old) := by
  rw [updated_count] at htook
  obtain ⟨y, hy⟩ := List.exists_mem_of_length_pos htook
  obtain ⟨hy, hversion⟩ := List.mem_filter.mp hy
  have hidentity := agrees_of_version hversion
  obtain ⟨n, hwritten⟩ := updatedRow_mem hy hversion
  have hagrees : (m.updatedRow row s n y).agrees (m.identity other) = true :=
    (h.agrees_updatedRow row other s n y).trans (hsame.agrees hrow hidentity)
  cases hfound : m.stored? other (m.updated row s).2 with
  | none =>
    have hnone := List.find?_eq_none.mp hfound _ hwritten
    exact absurd hagrees hnone
  | some z =>
    have hz : (m.rowsIn (m.updated row s).2).find? (·.agrees (m.identity other)) = some z := hfound
    have hmatch := List.find?_some hz
    obtain ⟨old, ho, hcase⟩ := mem_updated (List.mem_of_find?_eq_some hz)
    -- The row that is found was, before the update, the only one of its identity.
    have honly : old.agrees (m.identity other) = true → old = y := by
      intro hold
      have hold := (hsame.symm hrow).agrees (hsame.plain hrow) hold
      exact eq_of_keyedAlike hunique ho hy (keyedAlike_of_identity hrow hold hidentity)
    rcases hcase with ⟨rfl, hnot⟩ | ⟨-, n', rfl⟩
    · rw [honly hmatch, hversion] at hnot
      cases hnot
    · exact ⟨n', old, ho, rfl⟩

/-- Every column of a row that was taken can be brought into its native form, if it could be
before. -/
theorem extract_updated (hsuits : m.Suits s.supply) (hrow : m.Fits row) (hf : f ∈ m.selectFields)
    (hstored : ∃ x, f.valueType.fromDatabase (stored.column f.columnName) = .ok x) (n : Nat) :
    ∃ x, m.extract f.valueType ((m.updatedRow row s n stored).column f.columnName) = .ok x := by
  by_cases hu : f ∈ m.updateFields
  · by_cases hterm : m.updateTerm f = .parameter
    · have hset : f ∈ setFields m.schema := by
        rw [← updateBoundFields_eq]
        exact List.mem_filter.mpr ⟨hu, by simp [hterm]⟩
      rw [h.column_changed hset]
      obtain ⟨v, hv, -⟩ := extract_bound (hrow f hf)
      exact ⟨v, hv⟩
    · obtain ⟨k, hcolumn⟩ := h.column_restamped hu hterm row s n stored
      rw [hcolumn]
      refine extract_of_fromDatabase (hsuits.stamps f hf ?_ k)
      unfold updateTerm at hterm
      unfold IsStamp
      cases hr : f.role with
      | none => simp [hr] at hterm
      | some role => cases role <;> simp_all [FieldRole.stampedOnUpdate]
  · rw [h.column_kept hf hu]
    exact extract_of_fromDatabase hstored

/-- A read of the keys of a row that was updated gives back what the row has bound. -/
theorem read_updated (d : Dialect) [d.Knows m.statements]
    (hunique : (m.rowsIn s).Pairwise fun x y => ¬ m.KeyedAlike x y)
    (hstored : ∀ stored ∈ m.rowsIn s, ∀ f ∈ m.selectFields,
      ∃ x, f.valueType.fromDatabase (stored.column f.columnName) = .ok x)
    (hsuits : m.Suits s.supply) {w w' w₂ : Workspace} {r r₂ : RowRef} (hrow : m.Fits (w.row r))
    (hrun : ((m.update r).start w).run d.handle s =
      ((.ok true, w'), t))
    (hlen : (w₂.row r₂).length = m.schema.fields.length)
    (hsame : m.SameKeys (w.row r) (w₂.row r₂)) :
    ∃ w₃, ((m.read r₂).start w₂).run d.handle t =
        ((.ok true, w₃), t) ∧
      m.HoldsBound (setFields m.schema) (w.row r) (w₂.row r₂) (w₃.row r₂) := by
  have hend := ensures_update.of_run hrun ⟨rfl, rfl⟩
  dsimp only [Ends] at hend
  split at hend
  · obtain ⟨-, hdone, -, rfl⟩ := hend
    obtain ⟨n, old, ho, hfound⟩ := h.stored_updated hunique (hrow.plain h)
      (of_decide_eq_true hdone.symm) hsame
    obtain ⟨w₃, hread, hshows⟩ := h.read_of_stored d hlen hfound fun f hf =>
      h.extract_updated hsuits hrow hf (hstored old ho f hf) n
    refine ⟨w₃, hread, holdsBound_of_shows hrow (fun f hf => setFields_columns f hf) ?_ hshows⟩
    exact fun f hf => h.column_changed hf _ s n old
  · cases hend.1

end Keyed

/-- What is written is read back. After an insert that succeeds, a read of any row with the same
keys succeeds; then every column that the store has not made by itself holds what the inserted
row has bound, and what has no column is as before. After an update that succeeds the same is
true of the columns that it sets, if there is one stored row for each key and all that is
stored can be read. -/
theorem read_written (hs : m.schema.Valid) (hk : m.hasKeys = true)
    (hn : (columns m.selectFields).Nodup) (u : Casing) (reads : String → Option Sql.Query)
    (hsuits : m.Suits s.supply) {w : Workspace} {r : RowRef} (hrow : m.Fits (w.row r)) :
    ((s.table m.table).key = columns m.whereFields →
      ∀ w' t, ((m.insert r).start w).run (Dialect.reference m.statements u reads).handle s =
          ((.ok true, w'), t) →
        ∀ (w₂ : Workspace) (r₂ : RowRef), (w₂.row r₂).length = m.schema.fields.length →
          m.SameKeys (w'.row r) (w₂.row r₂) →
          ∃ w₃, ((m.read r₂).start w₂).run (Dialect.reference m.statements u reads).handle t =
              ((.ok true, w₃), t) ∧
            m.HoldsBound ((insertedFields m.schema).filter fun f => ¬ IsStamp f) (w.row r)
              (w₂.row r₂) (w₃.row r₂)) ∧
    (((m.rowsIn s).Pairwise fun x y => ¬ m.KeyedAlike x y) →
      (∀ stored ∈ m.rowsIn s, ∀ f ∈ m.selectFields,
        ∃ x, f.valueType.fromDatabase (stored.column f.columnName) = .ok x) →
      ∀ w' t, ((m.update r).start w).run (Dialect.reference m.statements u reads).handle s =
          ((.ok true, w'), t) →
        ∀ (w₂ : Workspace) (r₂ : RowRef), (w₂.row r₂).length = m.schema.fields.length →
          m.SameKeys (w.row r) (w₂.row r₂) →
          ∃ w₃, ((m.read r₂).start w₂).run (Dialect.reference m.statements u reads).handle t =
              ((.ok true, w₃), t) ∧
            m.HoldsBound (setFields m.schema) (w.row r) (w₂.row r₂) (w₃.row r₂)) := by
  have h : m.Keyed := ⟨hs.sound, hk, hn⟩
  constructor
  · intro hkey w' t hrun w₂ r₂ hlen hsame
    rw [← insertBound_eq hk]
    exact h.read_inserted (.reference m.statements u reads) hkey hsuits hrow hrun hlen hsame
  · intro hunique hstored w' t hrun w₂ r₂ hlen hsame
    exact h.read_updated (.reference m.statements u reads) hunique hstored hsuits hrow hrun hlen hsame

/-! ## Notes that cannot be read back -/

/-- The time at which a note was made is kept as a number. -/
def noteDeclaration : RecordDeclaration where
  name := "note"
  nameInDb := some "note"
  useTimestampCheck := false
  operations := []
  fields := [
    RecordSchema.invoiceColumn "number" "number" .integer .primaryKey,
    RecordSchema.invoiceColumn "createdAt" "created_at" .integer .createdAt]

def notes : Mapping := ⟨RecordSchema.declared noteDeclaration, false, "CURRENT_TIMESTAMP"⟩

def noteStore : TableStore where
  tables := [("note", { key := ["number"] })]

/-- Two rows for the same note. -/
def noteDesk : Workspace where
  rows := [[.int 1, .null], [.int 1, .null]]

/-- A note is inserted, but its stamp is no number, so the read of it fails. -/
theorem read_of_inserted_note_fails : notes.schema.Valid ∧ notes.hasKeys = true ∧
    (columns notes.selectFields).Nodup ∧
    (noteStore.table notes.table).key = columns notes.whereFields ∧
    notes.Fits (noteDesk.row 0) ∧ (noteDesk.row 1).length = notes.schema.fields.length ∧
    (((notes.insert 0).start noteDesk).run
      (Dialect.reference notes.statements .ascii fun _ => none).handle noteStore).1.1.toOption =
        some true ∧
    notes.SameKeys ((((notes.insert 0).start noteDesk).run (Dialect.reference notes.statements .ascii
      fun _ => none).handle noteStore).1.2.row 0) (noteDesk.row 1) ∧
    (((notes.read 1).start noteDesk).run (Dialect.reference notes.statements .ascii
      fun _ => none).handle (((notes.insert 0).start noteDesk).run
        (Dialect.reference notes.statements .ascii fun _ => none).handle noteStore).2).1.1.toOption =
      none := by
  refine ⟨RecordSchema.valid_declared (by decide +kernel), ?_⟩
  decide +kernel

/-! ## Receipts that are read back -/

theorem isNoKey_int {n : Int} (h : n ≠ 0) : isNoKey (.int n) = false := by
  have hne : (Value.int n).same (.int 0) ≠ true := by
    intro hsame
    have hamount := (Decimal.same_iff (.ofInt n) (.ofInt 0)).mp hsame
    simp [Decimal.amount, Decimal.magnitude, Decimal.ofInt, h] at hamount
  simpa [isNoKey, Value.isNull] using hne

/-- Keys that count up and stamps that are points in time suit integer keys and timestamps. -/
theorem suits_standard (hkey : m.schema.generatedKey.all (·.valueType == .integer) = true)
    (hstamps : ∀ f ∈ m.selectFields, IsStamp f → f.valueType = .timestamp) :
    m.Suits Supply.standard where
  keys g hg n := by
    rw [hg, Option.all_some] at hkey
    exact ⟨by rw [beq_iff_eq.mp hkey]; rfl, isNoKey_int (by omega)⟩
  stamps f hf hstamp n := by
    rw [hstamps f hf hstamp]
    exact ⟨_, rfl⟩

theorem receipts_suit : receipts.Suits Supply.standard :=
  suits_standard (by decide +kernel) (by decide +kernel)

/-- A receipt without a key of its own, and a row with the key that it gets. -/
def newReceipt : Workspace where
  rows := [[.null, .null, .int 6], [.int 101, .null, .null]]

/-- The receipt gets the next key, and is read under it. -/
theorem read_written_receipt : ∃ w' t w₃,
    ((receipts.insert 0).start newReceipt).run
      (Dialect.reference receipts.statements .ascii fun _ => none).handle receiptStore =
        ((.ok true, w'), t) ∧
    ((receipts.read 1).start newReceipt).run
      (Dialect.reference receipts.statements .ascii fun _ => none).handle t = ((.ok true, w₃), t) ∧
    ∃ v, (w₃.row 1)[2]? = some v ∧ v.same (.int 6) = true := by
  obtain ⟨⟨⟨result, w'⟩, t⟩, hrun⟩ : ∃ out, ((receipts.insert 0).start newReceipt).run
    (Dialect.reference receipts.statements .ascii fun _ => none).handle receiptStore = out := ⟨_, rfl⟩
  have hresult : (((receipts.insert 0).start newReceipt).run (Dialect.reference receipts.statements
      .ascii fun _ => none).handle receiptStore).1.1.toOption = some true := by decide +kernel
  have hsame : receipts.SameKeys ((((receipts.insert 0).start newReceipt).run
      (Dialect.reference receipts.statements .ascii fun _ => none).handle receiptStore).1.2.row 0)
      (newReceipt.row 1) := by decide +kernel
  rw [hrun] at hresult hsame
  obtain rfl := eq_ok_of_toOption hresult
  obtain ⟨w₃, hread, hcolumns, -⟩ := (read_written receipts_valid receipts_keyed.keys
    receipts_keyed.names .ascii (fun _ => none) receipts_suit (w := newReceipt) (r := 0)
    (by decide +kernel)).1 (by decide +kernel) w' t hrun newReceipt 1 (by decide +kernel) hsame
  have htotal : ∃ f ∈ (insertedFields receipts.schema).filter fun f => ¬ IsStamp f,
      f.index = 2 ∧ f.valueType = .integer := by decide +kernel
  obtain ⟨f, hf, hindex, htype⟩ := htotal
  obtain ⟨v, hv, hvalue⟩ := hcolumns f hf
  have hbound : receipts.boundValue f (newReceipt.row 0) = .int 6 := by
    rw [boundValue, hindex, htype]
    rfl
  rw [hindex] at hv
  rw [hbound] at hvalue
  refine ⟨w', t, w₃, hrun, hread, v, hv, ?_⟩
  rcases hvalue with rfl | hvalue
  · decide +kernel
  · exact hvalue

end Mapping

end Tablewright
