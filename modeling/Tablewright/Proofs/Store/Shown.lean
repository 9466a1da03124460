import Mathlib.Data.List.Forall2
import Mathlib.Data.List.GetD
import Tablewright.Proofs.Store.Invariant
import Tablewright.Proofs.Store.ReadBack

/-! What a row shows of a stored one. It is the same whether the stored row is found by its keys or
by a query, in whatever order its columns are selected; and the keys that are shown find the stored
row again, if they are there, equal themselves and are no other row's. -/

namespace Tablewright.Mapping

open Work TableStore

variable {m : Mapping} {fields others : List Field} {column : String → Value}
  {base base' row row' : Row} {stored : StoredRow} {found : List StoredRow} {rows : List Row}
  {s : TableStore} {r : RowRef} {d : Dialect}

/-- A row with the columns of a stored one at the places of their fields, as a read leaves it. -/
def shownIn (m : Mapping) (stored : StoredRow) (base : Row) : Except Failure Row :=
  m.copied (m.selectFields.map fun f => (stored.column f.columnName, f)) base

/-- A stored row as a read shows it in a row that held nothing. -/
def shown (m : Mapping) (stored : StoredRow) : Except Failure Row :=
  m.shownIn stored (List.replicate m.schema.fields.length .null)

/-- Copying keeps the length of a row. -/
theorem length_copied {pairs : List (Value × Field)}
    (h : m.copied pairs base = .ok row) : row.length = base.length := by
  induction pairs generalizing base with
  | nil => rw [← Except.ok.inj h]
  | cons e pairs ih =>
    rw [copied_cons] at h
    cases hx : m.extract e.2.valueType e.1 with
    | error e =>
      rw [hx] at h
      cases h
    | ok x =>
      rw [hx] at h
      rw [ih h, List.length_set]

theorem length_shown
    (h : m.shown stored = .ok row) : row.length = m.schema.fields.length :=
  (length_copied h).trans List.length_replicate

/-! ## Rows of a query -/

/-- What is made of some columns is a copy of them into a row that holds nothing. -/
theorem rowOf_columns (m : Mapping) (fields : List Field) (column : String → Value) :
    m.rowOf fields ((columns fields).map column) =
      m.copied (fields.map fun f => (column f.columnName, f))
        (List.replicate m.schema.fields.length .null) := by
  rw [rowOf, zip_columns]
  rfl

/-- The stored row is shown by the row at a reference. -/
def ShownAt (m : Mapping) (rows : List Row) (stored : StoredRow) (r : RowRef) : Prop :=
  r < rows.length ∧ m.shown stored = .ok (rows.getD r [])

theorem ShownAt.append (h : m.ShownAt rows stored r) (more : List Row) :
    m.ShownAt (rows ++ more) stored r :=
  ⟨Nat.lt_of_lt_of_le h.1 (by simp), by rw [List.getD_append _ _ _ _ h.1, h.2]⟩

/-- Results with these fields make the rows that show the stored ones. -/
def Suffices (m : Mapping) (fields : List Field) : Prop := ∀ (stored : StoredRow) (row : Row),
  m.rowOf fields ((columns fields).map stored.column) = .ok row ↔ m.shown stored = .ok row

theorem suffices_selectFields : m.Suffices m.selectFields := fun stored row => by
  rw [rowOf_columns]
  rfl

/-- Rows that were made of such columns of stored ones show these. -/
theorem Suffices.shownAt (hfields : m.Suffices fields) (found : List StoredRow) {rs : List RowRef}
    {w : Workspace}
    (hk : m.Kept fields rows (found.map fun stored => (columns fields).map stored.column) rs w) :
    ∃ made, List.Forall₂ (m.ShownAt (rows ++ made)) found rs ∧ w.rows = rows ++ made := by
  have hmade := List.forall₂_map_left_iff.mp hk.made
  obtain ⟨made, -, hrows, -⟩ := hk
  refine ⟨made, hmade.imp fun stored r hr => ?_, hrows⟩
  obtain ⟨-, hlt, hrow⟩ := hr
  exact ⟨hrows ▸ hlt, ((hfields ..).mp hrow).trans (by rw [Workspace.row, hrows])⟩

theorem Suffices.not_shown (hfields : m.Suffices fields) {e : Failure}
    (he : m.rowOf fields ((columns fields).map stored.column) = .error e) (row : Row) :
    m.shown stored ≠ .ok row := fun hrow => by
  rw [(hfields ..).mpr hrow] at he
  cases he

variable {values : List Value}

/-- All rows of a query, where it finds these stored ones. -/
theorem Suffices.ensures_collectRows (hfields : m.Suffices fields) {sql : String}
    {types : List ValueType} (hquery : d.query s sql values =
      .ok (found.map fun stored => (columns fields).map stored.column)) :
    Ensures d.handle (At rows s) (m.collectRows fields sql values types)
      (fun rs w t => ∃ made, List.Forall₂ (m.ShownAt (rows ++ made)) found rs ∧
        At (rows ++ made) s w t)
      (fun _ t => (∃ stored ∈ found, ∀ row, m.shown stored ≠ .ok row) ∧ t = s) := by
  refine (Dialect.ensures_collectRows rows).imp (fun _ _ => id) ?_ ?_
  · rintro rs w t ⟨⟨results, hresults, hrs⟩, ht⟩
    obtain rfl := Except.ok.inj (hquery.symm.trans hresults)
    obtain ⟨made, hmade, hrows⟩ := hfields.shownAt _ hrs
    exact ⟨made, hmade, hrows, ht⟩
  · rintro w t ⟨hfail, ht⟩
    obtain ⟨result, hm, e, he⟩ := hfail _ hquery
    obtain ⟨stored, hstored, rfl⟩ := List.mem_map.mp hm
    exact ⟨⟨stored, hstored, hfields.not_shown he⟩, ht⟩

/-- The first row of a clause shows the first stored row that the query finds. -/
theorem ensures_filterFirst {clause : Option String} {types : Option (List ValueType)}
    (hquery : d.query s (clauseSql m.selectText clause) values =
      .ok (found.map fun stored => (columns m.selectFields).map stored.column)) :
    Ensures d.handle (At rows s) (m.filterFirst clause values types)
      (fun r w t => ∃ made, List.Forall₂ (m.ShownAt (rows ++ made)) (found.take 1) r.toList ∧
        At (rows ++ made) s w t)
      (fun _ t => (∃ stored ∈ found.take 1, ∀ row, m.shown stored ≠ .ok row) ∧ t = s) := by
  unfold filterFirst
  refine (Dialect.ensures_queryFirst (J := (·.rows = rows)).imp (fun _ _ => id)
    (fun _ _ _ => id) ?_).bind fun first => ensures_of fun hfirst => ?_
  · rintro w t ⟨⟨e, he⟩, -⟩
    rw [hquery] at he
    cases he
  obtain ⟨results, hresults, rfl⟩ := hfirst
  obtain rfl := Except.ok.inj (hquery.symm.trans hresults)
  cases found with
  | nil =>
    refine ensures_pure fun w t hpre => ⟨[], .nil, ?_, hpre.2⟩
    rw [List.append_nil, hpre.1]
  | cons stored rest =>
    refine ((ensures_keepRow (K := (· = s)) []).imp
      (fun w t hpre => ⟨kept_nil hpre.1, hpre.2⟩) (fun _ _ _ => id) ?_).bind
      fun r => ensures_pure ?_
    · rintro w t ⟨⟨e, he⟩, ht⟩
      exact ⟨⟨stored, List.mem_singleton_self _, suffices_selectFields.not_shown he⟩, ht⟩
    · rintro w t ⟨hr, ht⟩
      obtain ⟨made, hmade, hrows⟩ := suffices_selectFields.shownAt [stored] hr
      exact ⟨made, hmade, hrows, ht⟩

/-! ## One stored row, shown twice -/

/-- What is shown of the same columns is the same, whatever the order of the columns and whatever
was at their places. -/
theorem Shows.eq (h : m.Shows fields column base row) (h' : m.Shows others column base' row')
    (hfields : ∀ f, f ∈ fields ↔ f ∈ others)
    (hbase : ∀ i, i ∉ places fields → base[i]? = base'[i]?) : row = row' := by
  refine List.ext_getElem? fun i => ?_
  by_cases hi : i ∈ places fields
  · obtain ⟨f, hf, rfl⟩ := List.mem_map.mp hi
    obtain ⟨v, hv, hplace⟩ := h.columns f hf
    obtain ⟨v', hv', hplace'⟩ := h'.columns f ((hfields f).mp hf)
    obtain rfl := Except.ok.inj (hv.symm.trans hv')
    rw [hplace, hplace']
  · have hi' : i ∉ places others := fun hm => by
      obtain ⟨f, hf, rfl⟩ := List.mem_map.mp hm
      exact hi (List.mem_map_of_mem ((hfields f).mpr hf))
    rw [h.elsewhere i hi, h'.elsewhere i hi', hbase i hi]

/-- Columns that are shown once can be copied into any row. -/
theorem Shows.copied (h : m.Shows fields column base row) (hothers : others ⊆ fields)
    (other : Row) :
    ∃ row', m.copied (others.map fun f => (column f.columnName, f)) other = .ok row' := by
  have hextracts : ∀ f ∈ others, ∃ x, m.extract f.valueType (column f.columnName) = .ok x :=
    fun f hf =>
      have ⟨v, hv, _⟩ := h.columns f (hothers hf)
      ⟨v, hv⟩
  exact copied_of_extracts (List.forall_mem_map.mpr hextracts) other

theorem shows_shownIn (hs : m.schema.Sound) (hlen : base.length = m.schema.fields.length)
    (h : m.shownIn stored base = .ok row) : m.Shows m.selectFields stored.column base row :=
  shows_copied hs (columns_subset fun _ hf => hf) hlen h

/-- All columns are enough to show a stored row, in whatever order. -/
theorem suffices_of_columns (hs : m.schema.Sound)
    (hfields : ∀ f, f ∈ fields ↔ f ∈ m.selectFields) : m.Suffices fields := by
  intro stored row
  have hsub : m.selectFields ⊆ m.schema.fields := columns_subset fun _ hf => hf
  have hlen : (List.replicate m.schema.fields.length Value.null).length = m.schema.fields.length :=
    List.length_replicate
  have hone : ∀ {fs gs : List Field}, fs ⊆ m.schema.fields → (∀ f, f ∈ fs ↔ f ∈ gs) →
      m.copied (fs.map fun f => (stored.column f.columnName, f))
        (List.replicate m.schema.fields.length .null) = .ok row →
      m.copied (gs.map fun f => (stored.column f.columnName, f))
        (List.replicate m.schema.fields.length .null) = .ok row := by
    intro fs gs hfs hfields hrow
    have hgs : gs ⊆ fs := fun f hf => (hfields f).mpr hf
    have hshows := shows_copied hs hfs hlen hrow
    obtain ⟨row', hrow'⟩ := hshows.copied hgs (List.replicate m.schema.fields.length .null)
    have hshows' := shows_copied hs (List.Subset.trans hgs hfs) hlen hrow'
    rw [hrow', hshows.eq hshows' hfields fun _ _ => rfl]
  rw [rowOf_columns]
  exact ⟨hone (fun f hf => hsub ((hfields f).mp hf)) hfields, hone hsub fun f => (hfields f).symm⟩

/-- A row that holds nothing. -/
def nullRow (m : Mapping) : Row := List.replicate m.schema.fields.length .null

/-- A filter that selects all columns, in whatever order, finds these stored rows. -/
structure FindsAll (m : Mapping) (d : Dialect) (s : TableStore) (c : CompiledFilter)
    (found : List StoredRow) : Prop where
  stored : found ⊆ m.rowsIn s
  columns : ∀ f, f ∈ m.filterFields c ↔ f ∈ m.selectFields
  query : d.query s (m.filterText c) c.values =
    .ok (found.map fun stored => (Mapping.columns (m.filterFields c)).map stored.column)

theorem FindsAll.output {d : Dialect} {c : CompiledFilter} {found : List StoredRow}
    (h : m.FindsAll d s c found) : ∀ f ∈ c.outputFields, f ∈ m.schema.columnFields := by
  intro f hf
  have hne : c.outputFields.isEmpty = false := by
    rw [List.isEmpty_eq_false_iff]
    exact List.ne_nil_of_mem hf
  have hfields : m.filterFields c = c.outputFields := by
    rw [filterFields, hne]
    rfl
  exact (h.columns f).mp (hfields ▸ hf)

/-- All that is stored for a record are nulls and values of the columns' types. -/
def Readable (m : Mapping) (s : TableStore) : Prop :=
  ∀ stored ∈ m.rowsIn s, ∀ f ∈ m.selectFields, f.valueType.keeps (stored.column f.columnName) = true

instance (m : Mapping) (s : TableStore) : Decidable (m.Readable s) :=
  inferInstanceAs (Decidable (∀ stored ∈ m.rowsIn s, ∀ f ∈ m.selectFields, _))

theorem Readable.exists_shownIn (h : m.Readable s) (hm : stored ∈ m.rowsIn s) (base : Row) :
    ∃ row, m.shownIn stored base = .ok row := by
  have hextracts : ∀ f ∈ m.selectFields, ∃ x,
      m.extract f.valueType (stored.column f.columnName) = .ok x := fun f hf =>
    extract_of_fromDatabase ⟨_, ValueType.fromDatabase_of_keeps (h stored hm f hf)⟩
  exact copied_of_extracts (List.forall_mem_map.mpr hextracts) base

/-- The keys and the tenant of a stored row are values of their columns' types that equal
themselves, and no other row has the same. -/
structure Identified (m : Mapping) (s : TableStore) (stored : StoredRow) : Prop where
  stores : ∀ g ∈ m.whereFields, g.valueType.stores (stored.column g.columnName) = true
  present : ∀ g ∈ m.whereFields, (stored.column g.columnName).isNull = false
  same : ∀ g ∈ m.whereFields,
    (stored.column g.columnName).same (stored.column g.columnName) = true
  unique : ∀ other ∈ m.rowsIn s, m.KeyedAlike other stored → other = stored

/-- A row that has the keys and the tenant of another one, and nothing that has no column. -/
structure AsksFor (m : Mapping) (row base : Row) : Prop where
  fits : base.length = m.schema.fields.length
  keys : ∀ g ∈ m.whereFields, base.getD g.index .null = row.getD g.index .null
  elsewhere : ∀ i, i ∉ places m.selectFields → base.getD i .null = .null

/-- A row that holds the keys and the tenant as they were shown finds the stored row. -/
theorem Identified.stored? (hs : m.schema.Sound) (h : m.Identified s stored)
    (hm : stored ∈ m.rowsIn s) (hshown : m.shown stored = .ok row) (hbase : m.AsksFor row base) :
    m.stored? base s = some stored := by
  have hshows := shows_shownIn hs List.length_replicate hshown
  have hkeys : ∀ g ∈ m.whereFields, g ∈ m.selectFields := fun g hg =>
    updateConditions_columns hs g (List.mem_append_left _ hg)
  -- What the row holds for a key is the stored value in its native form.
  have hnative : ∀ g ∈ m.whereFields, base.getD g.index .null =
      g.valueType.native (stored.column g.columnName) := by
    intro g hg
    obtain ⟨v, hv, hplace⟩ := hshows.columns g (hkeys g hg)
    obtain ⟨x, hx, rfl⟩ := ValueType.map_eq_ok hv
    have hnull := (ValueType.isNull_native g.valueType _).trans (h.present g hg)
    rw [hbase.keys g hg, List.getD_eq_getElem?_getD, hplace, Option.getD_some,
      ValueType.eq_native_of_stores (h.stores g hg) hx, fill_of_not_null hnull]
  have hplain : ∀ g ∈ m.whereFields, (stored.column g.columnName).isPlain = true := fun g hg =>
    ValueType.isPlain_of_stores (h.stores g hg)
  have hagrees : stored.agrees (m.identity base) = true := by
    refine agrees_of_same fun g hg => ?_
    have hnull := (ValueType.isNull_native g.valueType _).trans (h.present g hg)
    rw [boundValue, hnative g hg, fill_of_not_null hnull]
    rcases ValueType.native_same g.valueType (stored.column g.columnName) with heq | hsame
    · rw [heq]
      exact h.same g hg
    · exact Value.same_comm (hplain g hg) hsame
  have hbasePlain : m.PlainKeys base := fun g hg => by
    rw [hnative g hg]
    exact ValueType.isPlain_native _ (hplain g hg)
  cases hfound : m.stored? base s with
  | none => exact absurd hagrees (List.find?_eq_none.mp hfound _ hm)
  | some other =>
    have hother : (m.rowsIn s).find? (·.agrees (m.identity base)) = some other := hfound
    have hmatch := List.find?_some hother
    rw [h.unique other (List.mem_of_find?_eq_some hother)
      (keyedAlike_of_identity hbasePlain hmatch hagrees)]

/-- Such a row shows the stored row as one that held nothing does. -/
theorem AsksFor.shownIn (hs : m.schema.Sound) (hbase : m.AsksFor row base)
    (hshown : m.shown stored = .ok row) : m.shownIn stored base = .ok row := by
  have hshows := shows_shownIn hs List.length_replicate hshown
  obtain ⟨row', hrow'⟩ := hshows.copied (List.Subset.refl _) base
  have hnull : ∀ i, i ∉ places m.selectFields → m.nullRow[i]? = base[i]? := by
    intro i hi
    by_cases hlt : i < m.schema.fields.length
    · have hplace : i < base.length := hbase.fits ▸ hlt
      have helse := hbase.elsewhere i hi
      rw [← List.getElem_eq_getD (h := hplace)] at helse
      rw [nullRow, List.getElem?_replicate, if_pos hlt, List.getElem?_eq_getElem hplace, helse]
    · rw [List.getElem?_eq_none (by simpa [nullRow] using hlt),
        List.getElem?_eq_none (by simpa [hbase.fits] using hlt)]
  rw [hshows.eq (shows_shownIn hs hbase.fits hrow') (fun _ => Iff.rfl) hnull]
  exact hrow'

/-- A row that fits a record with keys stands in the workspace. -/
theorem lt_of_fits (hs : m.schema.Sound) (hk : m.hasKeys = true)
    (hlen : (rows.getD r []).length = m.schema.fields.length) : r < rows.length := by
  have hne : m.schema.keyFields ≠ [] := by simpa [hasKeys] using hk
  obtain ⟨g, hg⟩ := List.exists_mem_of_ne_nil _ hne
  have hindex : g.index < (rows.getD r []).length :=
    hlen ▸ hs.index_lt (hs.key_mem hg).1
  exact Workspace.lt_of_row (w := ⟨rows, {}⟩) hindex

end Tablewright.Mapping
