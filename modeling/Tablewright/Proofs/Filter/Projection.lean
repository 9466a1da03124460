import Tablewright.Proofs.Filter.Disclosure

/-! Selecting some fields against selecting all. The columns of a narrowed query, the types by
which its results are read and the places where these go are found anew from the fields that a
filter names, in the order in which it names them. So it has to be shown that what comes out is
what the full rows hold for these fields. -/

namespace Tablewright.Mapping

open Work

variable {m : Mapping} {c : CompiledFilter} {fields : List Field} {column : String → Value}
  {row full : Row} {σ : Type} {h : Handle σ} {s s₁ : σ} {found : List (String → Value)}

/-- A row with what it has for some fields, and null everywhere else. -/
def narrowed (fields : List Field) (row : Row) : Row :=
  row.mapIdx fun i v => if i ∈ places fields then v else .null

theorem getElem?_narrowed (i : Nat) :
    (narrowed fields row)[i]? =
      if i ∈ places fields then row[i]? else row[i]?.map fun _ => .null := by
  rw [narrowed, List.getElem?_mapIdx]
  split <;> cases row[i]? <;> rfl

/-- A handle answers a filter's query for the columns of some fields with these columns of some
rows. -/
def Answers (m : Mapping) (h : Handle σ) (s : σ) (c : CompiledFilter)
    (found : List (String → Value)) (fields : List Field) : Prop :=
  (h.answer (.readMany (Statement.withClause (Statement.select m.table (columns fields) []).toText
    c.clauseText) c.values c.types (types fields)) s).1.outcome =
      .ok (found.map fun column => .ok ((columns fields).map column))

/-! ## One row -/

/-- A place belongs to one field only, so no column goes to that of a field without one. -/
theorem notMem_places_of_inMemory {f : Field} (hs : m.schema.Sound) (hf : f ∈ m.schema.fields)
    (hmemory : f.isColumn ≠ true) {others : List Field}
    (hothers : ∀ g ∈ others, g ∈ m.schema.fields ∧ g.isColumn = true) :
    f.index ∉ places others := by
  intro hplace
  obtain ⟨g, hg, hindex⟩ := List.mem_map.mp hplace
  obtain ⟨hmem, hcolumn⟩ := hothers g hg
  exact hmemory (hs.eq_of_index hmem hf hindex ▸ hcolumn)

/-- The row that is made of some fields' columns is the one that is made of all, narrowed to these
fields. -/
theorem eq_narrowed (hs : m.schema.Sound) (hfields : ∀ f ∈ fields, f ∈ m.schema.fields)
    (hfull : m.rowOf m.selectFields ((columns m.selectFields).map column) = .ok full)
    (hrow : m.rowOf (fields.filter Field.isColumn)
      ((columns (fields.filter Field.isColumn)).map column) = .ok row) :
    row = narrowed fields full := by
  have hnull : (List.replicate m.schema.fields.length Value.null).length = m.schema.fields.length :=
    List.length_replicate
  rw [rowOf_columns] at hfull hrow
  have hall := shows_copied hs (columns_subset fun _ hf => hf) hnull hfull
  have hsome := shows_copied hs (fun f hf => hfields f (List.mem_filter.mp hf).1) hnull hrow
  refine List.ext_getElem? fun i => ?_
  rw [getElem?_narrowed]
  by_cases hi : i ∈ places fields
  · obtain ⟨f, hf, rfl⟩ := List.mem_map.mp hi
    rw [if_pos hi]
    by_cases hcolumn : f.isColumn = true
    · obtain ⟨v, hv, hplace⟩ := hsome.columns f (List.mem_filter.mpr ⟨hf, hcolumn⟩)
      obtain ⟨v', hv', hplace'⟩ := hall.columns f (List.mem_filter.mpr ⟨hfields f hf, hcolumn⟩)
      obtain rfl := Except.ok.inj (hv.symm.trans hv')
      rw [hplace, hplace']
    · rw [hsome.elsewhere _ (notMem_places_of_inMemory hs (hfields f hf) hcolumn fun g hg =>
          (List.mem_filter.mp hg).imp_left (hfields g)),
        hall.elsewhere _ (notMem_places_of_inMemory hs (hfields f hf) hcolumn fun g hg =>
          List.mem_filter.mp hg)]
  · have hnot : i ∉ places (fields.filter Field.isColumn) := fun hm => by
      obtain ⟨f, hf, rfl⟩ := List.mem_map.mp hm
      exact hi (List.mem_map_of_mem (List.mem_filter.mp hf).1)
    rw [if_neg hi, hsome.elsewhere i hnot, ← hnull, ← length_copied hfull, ← List.map_const',
      List.getElem?_map]

/-- Where all columns can be brought into their native form, those of some fields can be. -/
theorem exists_rowOf_named (hs : m.schema.Sound) (hfields : ∀ f ∈ fields, f ∈ m.schema.fields)
    (hfull : m.rowOf m.selectFields ((columns m.selectFields).map column) = .ok full) :
    ∃ row, m.rowOf (fields.filter Field.isColumn)
      ((columns (fields.filter Field.isColumn)).map column) = .ok row := by
  rw [rowOf_columns] at hfull ⊢
  refine (shows_copied hs (columns_subset fun _ hf => hf) List.length_replicate hfull).copied ?_ _
  intro f hf
  obtain ⟨hf, hcolumn⟩ := List.mem_filter.mp hf
  exact List.mem_filter.mpr ⟨hfields f hf, hcolumn⟩

/-! ## All rows -/

/-- Every row that is found is kept, unless one of them cannot be brought into its native form. -/
theorem ensures_answered {rows : List Row} :
    Ensures h (fun w t => w.rows = rows ∧ m.Answers h t c found fields)
      (m.collectRows fields (clauseSql (Statement.select m.table (columns fields) []).toText
        (some c.clauseText)) c.values c.types)
      (fun rs w _ =>
        m.Kept fields rows (found.map fun column => (columns fields).map column) rs w)
      (fun _ _ => ∃ column ∈ found, ∃ e,
        m.rowOf fields ((columns fields).map column) = .error e) := by
  rw [clauseSql_clauseText]
  let results := found.map fun column => (columns fields).map column
  refine Ensures.bind (Q := fun reply w _ => reply = results.map .ok ∧ w.rows = rows) ?_ ?_
  · refine ensures_ask ?_
    rintro w t ⟨hrows, hanswer⟩
    rw [hanswer]
    exact ⟨List.map_map.symm, hrows⟩
  · intro reply
    refine ensures_of fun hreply => ?_
    subst hreply
    refine Ensures.bind ((ensures_keepRows (K := fun _ => True) []).imp
      (fun w _ hrows => ⟨kept_nil hrows, trivial⟩) (fun _ _ _ => id) fun _ _ hfail => ?_) fun out =>
        ensures_pure fun _ _ hpre => hpre.1
    obtain ⟨⟨result, hresult, hfail⟩, -⟩ := hfail
    obtain ⟨column, hcolumn, rfl⟩ := List.mem_map.mp hresult
    exact ⟨column, hcolumn, hfail⟩

/-- Rows that are made of columns of the same stored rows: those of the filter's fields are the full
ones, narrowed. -/
theorem Kept.narrowed (hs : m.schema.Sound) (hfields : ∀ f ∈ fields, f ∈ m.schema.fields)
    {rows : List Row} {rs rs' : List RowRef} {w w' : Workspace}
    (hfull : m.Kept m.selectFields rows
      (found.map fun column => (columns m.selectFields).map column) rs w)
    (hnamed : m.Kept (fields.filter Field.isColumn) rows
      (found.map fun column => (columns (fields.filter Field.isColumn)).map column) rs' w') :
    rs'.map w'.row = rs.map fun r => narrowed fields (w.row r) := by
  have hall := List.forall₂_map_left_iff.mp hfull.made
  have hsome := List.forall₂_map_left_iff.mp hnamed.made
  clear hfull hnamed
  induction hall generalizing rs' with
  | nil =>
    cases hsome
    rfl
  | cons hmade _ ih =>
    obtain _ | ⟨hmade', hsome⟩ := hsome
    rw [List.map_cons, List.map_cons, ih hsome, eq_narrowed hs hfields hmade.2.2 hmade'.2.2]

/-- A filter that names fields finds what the same filter for all fields finds, row by row and in
the same order: each of its rows is the full row, narrowed to the fields that are named. A field may
be named again, and one that has no column may be named as well. -/
theorem filterCompiled_narrows (hm : m.schema.Valid) (hne : c.outputFields ≠ [])
    (hc : ∀ f ∈ c.outputFields, f ∈ m.schema.fields) (hfull : m.Answers h s c found m.selectFields)
    (hnamed : m.Answers h s c found (c.outputFields.filter Field.isColumn)) {w w₁ : Workspace}
    {rs : List RowRef}
    (hrun : ((m.filter (some c.clauseText) c.values (some c.types)).start w).run h s =
      ((.ok rs, w₁), s₁)) :
    ∃ rs' w₂ s₂, ((m.filterCompiled c).start w).run h s = ((.ok rs', w₂), s₂) ∧
      rs'.map w₂.row = rs.map fun r => narrowed c.outputFields (w₁.row r) := by
  have hkept := (ensures_answered (m := m) (c := c)).of_run hrun ⟨rfl, hfull⟩
  have hreads := ((List.forall₂_and_left found rs).mp
    ((List.forall₂_map_left_iff.mp hkept.made).imp fun column r hmade =>
      ⟨exists_rowOf_named hm.sound hc hmade.2.2, hmade⟩)).1
  obtain ⟨⟨⟨r, w₂⟩, s₂⟩, hnarrow⟩ : ∃ out, ((m.filterCompiled c).start w).run h s = out := ⟨_, rfl⟩
  have hcollect := hnarrow
  rw [filterCompiled_of_named hm.sound hne hc] at hcollect
  have hend := ensures_answered.of_run hcollect ⟨rfl, hnamed⟩
  cases r with
  | error e =>
    obtain ⟨column, hcolumn, e, he⟩ := hend
    obtain ⟨row, hrow⟩ := hreads column hcolumn
    cases he.symm.trans hrow
  | ok rs' => exact ⟨rs', w₂, s₂, hnarrow, hkept.narrowed hm.sound hc hend⟩

/-- The filter that a request for salaries is compiled to, which names them twice. -/
def salaryFilter : CompiledFilter :=
  ((((personRequest ["salary", "salary"]).compile persons.schema .null 10).result? {}).bind
    id).getD default

/-- Two persons, the first without a salary. -/
def personColumns : List (String → Value) :=
  [fun name => if name = "number" then .int 1 else .null,
    fun name => if name = "number" then .int 2 else .int 5000]

/-- Finds both persons by every query that it can read. -/
def personHandle : Handle Unit where
  answer
    | .readMany sql _ _ _, s => (⟨match Sql.Query.ofText? sql with
      | some q => .ok (personColumns.map fun column => .ok (q.columns.map column))
      | none => .error (.database "unsupported select"), []⟩, s)
    | _, s => (⟨.error (.database "unsupported statement"), []⟩, s)

/-- The full rows of what the filter finds. -/
def salaryRun :=
  ((persons.filter (some salaryFilter.clauseText) salaryFilter.values
    (some salaryFilter.types)).start {}).run personHandle ()

/-- A missing salary is zero in either row, and a number that was not asked for is null. -/
theorem filterCompiled_narrows_salaries : ∃ rs w₁ rs' w₂, salaryRun = ((.ok rs, w₁), ()) ∧
    ((persons.filterCompiled salaryFilter).start {}).run personHandle () = ((.ok rs', w₂), ()) ∧
    rs.map w₁.row = [[.int 1, .int 0, .null], [.int 2, .int 5000, .null]] ∧
    rs'.map w₂.row = [[.null, .int 0, .null], [.null, .int 5000, .null]] := by
  have hne : salaryFilter.outputFields ≠ [] := List.ne_nil_of_length_pos (by decide +kernel)
  obtain ⟨c, k, hc, hfound⟩ := Check.returns_of_found (c := (personRequest
    ["salary", "salary"]).compile persons.schema .null 10) (j := {}) (by decide +kernel)
  obtain rfl : salaryFilter = c := congrArg (Option.getD · default) hfound
  have houtput := columns_subset (FilterRequest.mem_outputFields hc)
  have hall : persons.Answers personHandle () salaryFilter personColumns persons.selectFields := rfl
  have hnamed : persons.Answers personHandle () salaryFilter personColumns
    (salaryFilter.outputFields.filter Field.isColumn) := rfl
  have hresult : salaryRun.1.1.toOption = some [0, 1] := rfl
  have hshown : [0, 1].map salaryRun.1.2.row =
      [[.int 1, .int 0, .null], [.int 2, .int 5000, .null]] := rfl
  obtain ⟨⟨⟨r, w₁⟩, s₁⟩, hrun⟩ : ∃ out, salaryRun = out := ⟨_, rfl⟩
  rw [hrun] at hresult hshown
  obtain rfl := eq_ok_of_toOption hresult
  obtain ⟨rs', w₂, s₂, hnarrow, hrows⟩ := filterCompiled_narrows persons_valid hne houtput
    hall hnamed hrun
  have hfull : [0, 1].map (fun r => narrowed salaryFilter.outputFields (w₁.row r)) =
      ([0, 1].map w₁.row).map (narrowed salaryFilter.outputFields) := rfl
  refine ⟨[0, 1], w₁, rs', w₂, hrun, hnarrow, hshown, ?_⟩
  rw [hrows, hfull, hshown]
  rfl

end Tablewright.Mapping
