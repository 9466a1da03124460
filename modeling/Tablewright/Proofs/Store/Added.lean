import Tablewright.Proofs.Store.Placement
import Tablewright.Proofs.Store.Shown

/-! Rows that are added to a store. A write that finds no row of its keys adds one behind all others,
and what is shown of it is what the row has bound, its generated key included. -/

namespace Tablewright

open Work TableStore

theorem ValueType.keeps_native {t : ValueType} {v : Value} (h : t.keeps v = true) :
    t.keeps (t.native v) = true := by
  unfold native
  split
  · rfl
  · exact h

namespace Mapping

variable {m : Mapping} {op : RowOperation} {p : Supply} {row row' base : Row} {s t : TableStore}
  {stored : StoredRow}

/-- The columns that a row fills when it is inserted, its generated key among them: all but the
stamps. -/
def ownFields (m : Mapping) : List Field := m.selectFields.filter fun f => ¬ IsStamp f

/-- A stored row that was added for a row, and what the row is since. -/
inductive AddedAs (m : Mapping) (p : Supply) (row row' : Row) : StoredRow → Prop
  | mk {s : TableStore} {key : Value} : s.supply = p → row.length = m.schema.fields.length →
      (m.inserted row s).1 = .ok key → m.keyed key row = .ok row' →
      m.AddedAs p row row' (m.insertedRow row s)

theorem AddedAs.bears (h : m.AddedAs p row row' stored) (hm : m.Keyed) : m.Bears p row' stored := by
  obtain @⟨s, key, rfl, hlen, hok, hkey⟩ := h
  exact hm.bears_insertedRow hlen hok hkey

/-- An update takes no row if none has the keys and the tenant. -/
theorem not_takes (h : ∀ stored ∈ m.rowsIn s, stored.agrees (m.identity row) = false) :
    ¬ m.Takes row s := by
  rintro ⟨-, hcount⟩
  rw [updated_count] at hcount
  obtain ⟨stored, hstored⟩ := List.exists_mem_of_length_pos hcount
  obtain ⟨hm, hversion⟩ := List.mem_filter.mp hstored
  have hagrees := agrees_of_version hversion
  rw [h stored hm] at hagrees
  cases hagrees

/-- A write whose update takes no row adds one. -/
theorem Wrote.added (h : m.Wrote op row s row' t)
    (hnew : op ≠ .insert → row' = row → ¬ m.Takes row s) :
    ∃ stored, m.AddedAs s.supply row row' stored ∧ m.rowsIn t = m.rowsIn s ++ [stored] ∧
      ∀ name, m.table ≠ name → t.table name = s.table name := by
  cases h.change with
  | updated hop htakes => exact absurd htakes (hnew hop rfl)
  | @inserted s₁ key _ _ halike hok hkey =>
    refine ⟨_, ⟨halike.supply, h.fits, hok, hkey⟩, ?_, fun name hname => ?_⟩
    · rw [rowsIn_of_inserted hok, rowsIn, halike.tables]
      rfl
    · rw [table_inserted, if_neg hname, halike.tables]

/-! ## Values of the columns' types -/

/-- A row of values of its columns' types is one with its generated key. -/
theorem Fits.keyed (hs : m.schema.Sound) (hsuits : m.Suits p) (hfits : m.Fits row) {n : Nat}
    (hkey : m.keyed (p.key n) row = .ok row') : m.Fits row' := by
  obtain ⟨rfl, -⟩ | ⟨g, v, hg, hv, rfl⟩ := keyed_cases hkey
  · exact hfits
  · intro f hf
    rcases getD_set row g.index f.index v .null with ⟨hindex, hset⟩ | hset
    · obtain rfl := hs.eq_of_index (List.mem_filter.mp hf).1
        (hs.generated_field hg) hindex
      obtain ⟨hkeeps, -⟩ := hsuits.keys f hg n
      rw [ValueType.fromDatabase_of_keeps hkeeps] at hv
      rw [hset, ← Except.ok.inj hv]
      exact ValueType.keeps_native hkeeps
    · rw [hset]
      exact hfits f hf

theorem Wrote.fits_after (h : m.Wrote op row s row' t) (hs : m.schema.Sound)
    (hsuits : m.Suits s.supply) (hfits : m.Fits row) : m.Fits row' := by
  cases h.change with
  | updated => exact hfits
  | @inserted s₁ key _ _ halike hok hkey =>
    rw [keyed_of_inserted hok, halike.supply] at hkey
    exact hfits.keyed hs hsuits hkey

/-- What an insert has added is found by every row of its keys. -/
theorem Wrote.exists_stored (h : m.Wrote .insert row s row' t) (hm : m.Keyed)
    (hkey : (s.table m.table).key = columns m.whereFields) (hsuits : m.Suits s.supply)
    (hfits : m.Fits row) {other : Row} (hsame : m.SameKeys row' other) :
    ∃ stored, m.AddedAs s.supply row row' stored ∧ m.stored? other t = some stored := by
  cases h.change with
  | updated hop => exact absurd rfl hop
  | @inserted s₁ key _ _ halike hok hkeyed =>
    have hsuits : m.Suits s₁.supply := halike.supply.symm ▸ hsuits
    obtain ⟨hplain, hagrees⟩ :=
      hm.agrees_insertedRow hsuits hfits h.fits (keyed_of_inserted hok ▸ hkeyed) hsame
    refine ⟨_, ⟨halike.supply, h.fits, hok, hkeyed⟩,
      hm.stored_inserted ?_ (fresh_of_inserted hok) hplain hagrees⟩
    rw [halike.tables]
    exact hkey

/-- A generated key that has come back is there. -/
theorem Wrote.isNull_generated (h : m.Wrote .insert row s row' t) (hm : m.Keyed)
    (hsuits : m.Suits s.supply) {g : Field} (hg : m.schema.generatedKey = some g) :
    (row'.getD g.index .null).isNull = false := by
  cases h.change with
  | updated hop => exact absurd rfl hop
  | @inserted s₁ key _ _ halike hok hkeyed =>
    rw [keyed_of_inserted hok, halike.supply] at hkeyed
    obtain ⟨hkeeps, hno⟩ := hsuits.keys g hg s₁.issued
    have hindex : g.index < row.length :=
      h.fits ▸ hm.sound.generated_lt hg
    rw [(hm.keyed_places hkeyed).2 g hg hkeeps hno hindex, ValueType.isNull_native]
    exact (Bool.or_eq_false_iff.mp hno).1

/-- Two rows bind different values for some of their keys. -/
def KeysDiffer (m : Mapping) (row row' : Row) : Prop :=
  ∃ g ∈ m.whereFields, (m.boundValue g row).same (m.boundValue g row') = false

instance (m : Mapping) (row row' : Row) : Decidable (m.KeysDiffer row row') :=
  inferInstanceAs (Decidable (∃ g ∈ m.whereFields, _))

theorem KeysDiffer.apart (h : m.KeysDiffer row row') (hs : m.schema.Sound) (hsuits : m.Suits p)
    (hrow : m.Fits row) (hrow' : m.Fits row') : Apart p m row m row' := by
  obtain ⟨g, hg, hdiffer⟩ := h
  have hcolumn : g ∈ m.selectFields :=
    updateConditions_columns hs g (List.mem_append_left _ hg)
  refine apart_of_key hg (fun stored hbears => hbears.belongsTo hsuits hg) ?_ ?_ hdiffer
  · exact isPlain_fill m _ (ValueType.isPlain_of_keeps (hrow g hcolumn))
  · exact isPlain_fill m _ (ValueType.isPlain_of_keeps (hrow' g hcolumn))

/-! ## What is shown of an added row -/

/-- What an added row shows is what its row has bound. -/
theorem AddedAs.exists_shownIn (h : m.AddedAs p row row' stored) (hm : m.Keyed)
    (hsuits : m.Suits p) (hfits : m.Fits row) (hbase : base.length = m.schema.fields.length) :
    ∃ found, m.shownIn stored base = .ok found ∧ m.HoldsBound m.ownFields row' base found := by
  obtain @⟨s, key, rfl, hlen, hok, hkey⟩ := h
  rw [keyed_of_inserted hok] at hkey
  obtain ⟨hplaces, hgenerated⟩ := hm.keyed_places hkey
  have hextracts : ∀ f ∈ m.selectFields, ∃ x,
      m.extract f.valueType ((m.insertedRow row s).column f.columnName) = .ok x :=
    fun f hf => hm.extract_inserted hsuits hfits hf
  have hpairs : ∀ e ∈ m.selectFields.map fun f => ((m.insertedRow row s).column f.columnName, f),
      ∃ x, m.extract e.2.valueType e.1 = .ok x := List.forall_mem_map.mpr hextracts
  obtain ⟨found, hfound⟩ := copied_of_extracts hpairs base
  have hshows := shows_shownIn hm.sound hbase hfound
  refine ⟨found, hfound, fun f hf => ?_, hshows.elsewhere⟩
  obtain ⟨hcolumn, hstamp⟩ := List.mem_filter.mp hf
  obtain ⟨v, hv, hplace⟩ := hshows.columns f hcolumn
  refine ⟨v, hplace, ?_⟩
  have hfield := (List.mem_filter.mp hcolumn).1
  rcases hm.column_cases hcolumn with hgen | ⟨-, hstamped⟩ | hbound
  · obtain ⟨hkeeps, hno⟩ := hsuits.keys f hgen s.issued
    have hnull := (ValueType.isNull_native f.valueType _).trans (Bool.or_eq_false_iff.mp hno).1
    rw [column_generated hgen, extract, ValueType.fromDatabase_of_keeps hkeeps] at hv
    have hv : m.fill f.valueType (f.valueType.native (s.supply.key s.issued)) = v :=
      Except.ok.inj hv
    left
    rw [boundValue, hgenerated f hgen hkeeps hno (hlen ▸ hm.sound.index_lt hfield), hv]
  · exact absurd hstamped (of_decide_eq_true hstamp)
  · have hne : m.schema.generatedKey ≠ some f := fun hgen => by
      have hrole := (hm.sound.generated_mem hgen).2
      rw [insertBound_eq hm.keys] at hbound
      have hinserted := (List.mem_filter.mp (List.mem_filter.mp hbound).1).2
      exact of_decide_eq_true hinserted hrole
    obtain ⟨v', hv', hsame⟩ := extract_bound (hfits f hcolumn)
    rw [hm.column_inserted hbound, hv'] at hv
    obtain rfl := Except.ok.inj hv
    rw [boundValue, hplaces f hfield hne]
    exact hsame

end Mapping

end Tablewright
