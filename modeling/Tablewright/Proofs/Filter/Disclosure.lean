import Tablewright.Handle.Scripted
import Tablewright.Proofs.Asking
import Tablewright.Proofs.Filter.Meaning
import Tablewright.Proofs.Mapping.Sentences
import Tablewright.Proofs.Overhearing
import Tablewright.Proofs.Store.Shown
import Tablewright.Value.Access

/-! What a filter gives away. A request may name the fields that it wants to see. The names of
columns are kept and all others dropped; the query then names the columns of the fields that are
left, and a row that comes out is null everywhere else. Where nothing is left the filter is as one
that was never restricted, and shows every column. -/

namespace Tablewright

namespace Work

variable {α σ τ : Type} {h : Handle σ} {E : Fact σ}

/-- A call after which nothing more is asked for is all that a handle hears. -/
theorem asked_ask {c : Call} {f : c.Reply → Work α} (hf : ∀ a, Asks (fun _ => False) (f a))
    (h : Handle σ) (w : Workspace) (s : σ) : ((ask c >>= f).start w).asked h s = [c] := by
  rw [start_bind]
  refine congrArg (c :: ·) (List.map_eq_nil_iff.mpr (List.eq_nil_iff_forall_not_mem.mpr ?_))
  refine Task.Asks.heard (p := fun _ => False) ?_ h _
  obtain ⟨outcome, log⟩ := (h.answer c s).1
  cases outcome with
  | ok b => exact hf b _
  | error e => trivial

/-- What every round keeps is kept by all of them, however many rows there are and wherever one of
them cannot be looked at. -/
theorem ensures_throughRows {I : τ → Fact σ} {process : τ → List Value → Work (τ × Bool)}
    (hprocess : ∀ a result, Ensures h (I a) (process a result) (fun out => I out.1) E)
    (he : ∀ a w s, I a w s → E w s) {found : List (Except Failure (List Value))} {n : Int} {a : τ} :
    Ensures h (I a) (throughRows process found n a) (fun out => I out.2) E := by
  induction found generalizing n a with
  | nil => exact ensures_pure fun _ _ hpre => hpre
  | cons r found ih =>
    refine (ensures_lift (he a)).bind fun result => ensures_of fun _ => ?_
    refine (hprocess a result).bind fun out => ?_
    obtain ⟨a', goesOn⟩ := out
    dsimp only
    split
    · exact ih
    · exact ensures_pure fun _ _ hpre => hpre

end Work

theorem RecordSchema.Sound.field?_of_mem {s : RecordSchema} {f : Field} (hs : s.Sound)
    (hf : f ∈ s.fields) : s.field? f.name = some f := by
  cases hfound : s.field? f.name with
  | none =>
    have hnone := List.find?_eq_none.mp hfound f (List.mem_reverse.mpr hf)
    exact absurd (beq_self_eq_true f.name) hnone
  | some g =>
    rw [List.inj_on_of_nodup_map hs.names (s.field_mem hfound) hf (name_of_field hfound)]

namespace Mapping

open Work FilterRequest

variable {m : Mapping} {c : CompiledFilter} {fields : List Field} {names : List String} {f : Field}
  {row : Row}

/-- A row shows some fields and nothing else of the record. -/
def Hides (m : Mapping) (fields : List Field) (row : Row) : Prop :=
  ∀ f ∈ m.schema.fields, f ∉ fields → row[f.index]? = some .null

/-- Whatever the handle is, a filter asks it for the columns of some fields in one query, and every
row that comes out hides all others. -/
structure Discloses (m : Mapping) (c : CompiledFilter) (fields : List Field) : Prop where
  asks : ∀ {σ : Type} (h : Handle σ) (w : Workspace) (s : σ),
    ((m.filterCompiled c).start w).asked h s = [.readMany (Statement.withClause
      (Statement.select m.table (columns fields) []).toText c.clauseText) c.values c.types
      (types fields)]
  hides : ∀ {σ : Type} (h : Handle σ) (w w' : Workspace) (s s' : σ) (rs : List RowRef),
    ((m.filterCompiled c).start w).run h s = ((.ok rs, w'), s') → ∀ r ∈ rs, m.Hides fields (w'.row r)

/-! ## Rows of a query -/

/-- What is made of a result stands at the places of the selected fields, and nothing elsewhere. -/
theorem hides_rowOf (hs : m.schema.Sound) (hfields : ∀ f ∈ fields, f ∈ m.schema.fields)
    {result : List Value} (h : m.rowOf fields result = .ok row) : m.Hides fields row := by
  intro f hf hnot
  have hcopied : m.copied (result.zip fields) (List.replicate m.schema.fields.length .null) =
    .ok row := h
  have hlt : f.index < row.length := by
    rw [length_copied hcopied, List.length_replicate]
    exact hs.index_lt hf
  rw [List.getElem?_eq_getElem hlt, List.getElem_eq_getD Value.null]
  rcases copied_place hcopied f.index with hplace | ⟨v, g, hg, hindex, -⟩
  · rw [hplace, List.getD_replicate _ (hs.index_lt hf)]
  · have hg : g ∈ fields := (List.of_mem_zip hg).2
    exact absurd (hs.eq_of_index (hfields g hg) hf hindex ▸ hg) hnot

theorem ensures_hides (hs : m.schema.Sound) (hfields : ∀ f ∈ fields, f ∈ m.schema.fields)
    {σ : Type} {h : Handle σ} {sql : String} {values : List Value} {valueTypes : List ValueType} :
    Ensures h (fun _ _ => True) (m.collectRows fields sql values valueTypes)
      (fun rs w _ => ∀ r ∈ rs, m.Hides fields (w.row r)) (fun _ _ => True) := by
  let kept (rs : List RowRef) : Fact σ := fun w _ =>
    ∀ r ∈ rs, r < w.rows.length ∧ m.Hides fields (w.row r)
  have hround (rs : List RowRef) (result : List Value) : Ensures h (kept rs)
      (do return (rs ++ [← m.keepRow fields result], true)) (fun out => kept out.1)
      (fun _ _ => True) := by
    refine Ensures.bind (Q := fun r => kept (rs ++ [r])) ?_ fun r => ensures_pure fun _ _ => id
    refine (ensures_lift fun _ _ _ => trivial).bind fun row => ensures_of fun hrow => ?_
    refine ensures_addRow fun w s hpre r hr => ?_
    rw [Workspace.row, List.length_append, List.length_singleton]
    rcases List.mem_append.mp hr with hr | hr
    · obtain ⟨hlt, hhides⟩ := hpre r hr
      refine ⟨Nat.lt_succ_of_lt hlt, ?_⟩
      rwa [List.getD_append _ _ _ _ hlt]
    · obtain rfl := List.mem_singleton.mp hr
      refine ⟨Nat.lt_succ_self _, ?_⟩
      rw [List.getD_append_right _ _ _ _ (Nat.le_refl _), Nat.sub_self]
      exact hides_rowOf hs hfields hrow
  refine Ensures.bind (Q := fun _ _ _ => True) (fun w s _ => ?_) fun found => ?_
  · obtain ⟨⟨r, w'⟩, s'⟩ := ((Work.readMany sql values valueTypes (types fields)).start w).run h s
    cases r <;> trivial
  · refine Ensures.bind (Q := fun out => kept out.2) ?_ fun out =>
      ensures_pure fun w s hpre r hr => (hpre r hr).2
    exact (ensures_throughRows hround fun _ _ _ _ => trivial).imp
      (fun _ _ _ r hr => absurd hr List.not_mem_nil) (fun _ _ _ => id) fun _ _ => id

/-- A filter discloses the fields that it selects. -/
theorem discloses_filterFields (hs : m.schema.Sound)
    (hc : ∀ f ∈ c.outputFields, f ∈ m.schema.columnFields) : m.Discloses c (m.filterFields c) where
  asks := by
    intro σ h w s
    rw [filterCompiled_eq hs hc, filterText_eq]
    exact asked_ask (fun found => (asks_throughRows fun rs result =>
      asks_keepRow.bind fun _ => asks_pure).bind fun _ => asks_pure) h w s
  hides := by
    intro σ h w w' s s' rs hrun
    have hfields : ∀ f ∈ m.filterFields c, f ∈ m.schema.fields := by
      unfold filterFields
      split
      · exact columns_subset fun f hf => hf
      · exact columns_subset hc
    rw [filterCompiled_eq hs hc] at hrun
    exact (ensures_hides hs hfields).of_run hrun trivial

/-! ## Requests that name fields -/

/-- The fields with a column that are asked for by name, in the order of the names. -/
def requestedFields (s : RecordSchema) (names : List String) : List Field :=
  names.filterMap (columnField? s)

theorem mem_requestedFields {s : RecordSchema} (hs : s.Sound) :
    f ∈ requestedFields s names ↔ f ∈ s.columnFields ∧ f.name ∈ names := by
  rw [requestedFields, List.mem_filterMap]
  constructor
  · rintro ⟨name, hname, hfound⟩
    obtain ⟨hfield, hcolumn⟩ := Option.filter_eq_some_iff.mp hfound
    refine ⟨List.mem_filter.mpr ⟨s.field_mem hfield, hcolumn⟩, ?_⟩
    rwa [RecordSchema.name_of_field hfield]
  · rintro ⟨hf, hname⟩
    obtain ⟨hf, hcolumn⟩ := List.mem_filter.mp hf
    exact ⟨f.name, hname, Option.filter_eq_some_iff.mpr ⟨hs.field?_of_mem hf, hcolumn⟩⟩

/-- A column that belongs to one field is selected only if this field is. -/
theorem notMem_columns_of_unshared (hfields : fields ⊆ m.selectFields) (hf : f ∈ m.selectFields)
    (hnot : f ∉ fields) (hs : m.schema.Sound) (hown : ¬ Shares m.selectFields f.columnName) :
    f.columnName ∉ columns fields := by
  intro h
  obtain ⟨g, hg, hcolumn⟩ := List.mem_map.mp h
  refine hown ⟨f, hf, g, hfields hg, fun hindex => hnot ?_, rfl, hcolumn⟩
  have hmem {f : Field} (hf : f ∈ m.selectFields) : f ∈ m.schema.fields := (List.mem_filter.mp hf).1
  rwa [hs.eq_of_index (hmem hf) (hmem (hfields hg)) hindex]

/-- A filter that was compiled from a request for some fields selects exactly those of them that
have a column, and its rows show no other field; a column is then selected only if one of its fields
was asked for. But if none of the names is that of a column, it shows all columns as if no field had
been named. -/
theorem filterCompiled_discloses {request : FilterRequest} {tenant : Value} {bound : Int}
    {j k : Journal} (hs : m.schema.Valid) (hnames : request.outputFields = some names)
    (hc : (request.compile m.schema tenant bound).Returns j (some c) k) :
    (∀ f, f ∈ requestedFields m.schema names ↔ f ∈ m.schema.columnFields ∧ f.name ∈ names) ∧
    (requestedFields m.schema names ≠ [] → m.Discloses c (requestedFields m.schema names) ∧
      ∀ f ∈ m.schema.columnFields, f.name ∉ names → ¬ Shares m.selectFields f.columnName →
        f.columnName ∉ columns (requestedFields m.schema names)) ∧
    (requestedFields m.schema names = [] → m.Discloses c m.selectFields ∧
      m.filterCompiled c = m.filter (some c.clauseText) c.values (some c.types)) := by
  have hoffered := mem_outputFields hc
  have houtput : c.outputFields = requestedFields m.schema names := by
    obtain ⟨-, parts, -, rfl⟩ := returns_compile hc
    rw [filterOf, hnames]
    rfl
  have hdiscloses : m.Discloses c (m.filterFields c) :=
    discloses_filterFields hs.sound hoffered
  refine ⟨fun f => mem_requestedFields hs.sound, fun hsome => ⟨?_, fun f hf hname hown => ?_⟩,
    fun hnone => ⟨?_, ?_⟩⟩
  · rwa [filterFields, houtput, if_neg (by simpa using hsome)] at hdiscloses
  · refine notMem_columns_of_unshared (fun g hg => ?_) hf (fun hmem => ?_) hs.sound hown
    · exact ((mem_requestedFields hs.sound).mp hg).1
    · exact hname ((mem_requestedFields hs.sound).mp hmem).2
  · rwa [filterFields, houtput, if_pos (by simpa using hnone)] at hdiscloses
  · rw [filterCompiled, houtput, if_pos (by simpa using hnone)]

/-! ## Names of columns, and names of none -/

/-- Persons with a salary, and with a nickname that is not stored. -/
def personDeclaration : RecordDeclaration where
  name := "person"
  nameInDb := some "persons"
  useTimestampCheck := false
  operations := []
  fields := [
    RecordSchema.invoiceColumn "number" "number" .integer .primaryKey,
    RecordSchema.invoiceColumn "salary" "salary" .integer .requiredData,
    { (default : FieldDeclaration) with name := "nickname" }]

def persons : Mapping := mapped personDeclaration

theorem persons_valid : persons.schema.Valid := RecordSchema.valid_declared (by decide +kernel)

/-- All persons, but only some fields of them. -/
def personRequest (names : List String) : FilterRequest := ⟨[], [], none, some names⟩

/-- A name may be repeated, and may be one of no column or of no field at all. -/
theorem filterCompiled_discloses_person : ∃ c k, let names := ["nickname", "number", "shoe", "number"]
    ((personRequest names).compile persons.schema .null 10).Returns {} (some c) k ∧
    columns (requestedFields persons.schema names) = ["number", "number"] ∧
    persons.Discloses c (requestedFields persons.schema names) ∧
    "salary" ∉ columns (requestedFields persons.schema names) := by
  obtain ⟨c, k, hc, -⟩ := Check.returns_of_found (c := (personRequest
    ["nickname", "number", "shoe", "number"]).compile persons.schema .null 10) (j := {})
    (by decide +kernel)
  obtain ⟨-, hsome, -⟩ := filterCompiled_discloses persons_valid rfl hc
  have hcolumns : columns (requestedFields persons.schema ["nickname", "number", "shoe", "number"]) =
    ["number", "number"] := by decide +kernel
  refine ⟨c, k, hc, hcolumns, (hsome fun hnone => ?_).1, ?_⟩
  · rw [hnone] at hcolumns
    cases hcolumns
  · rw [hcolumns]
    decide

/-- The filter that a request for nicknames is compiled to. -/
def nicknameFilter : CompiledFilter :=
  ((((personRequest ["nickname"]).compile persons.schema .null 10).result? {}).bind id).getD default

/-- What comes of it for a person with a number and a salary. -/
def nicknameRun :=
  ((persons.filterCompiled nicknameFilter).start {}).run Handle.scripted
    ({ items := [{ rows := [[.int 1, .int 5000]] }] }, ())

/-- Who asks for nicknames alone, which no column holds, is shown numbers and salaries. -/
theorem nicknames_show_salaries : (∃ k, ((personRequest ["nickname"]).compile persons.schema .null
      10).Returns {} (some nicknameFilter) k) ∧
    ∃ rs w t, nicknameRun = ((.ok rs, w), t) ∧
      t.1.asked = [.readMany "SELECT number, salary FROM persons FETCH FIRST 10 ROWS ONLY" [] []
        [.integer, .integer]] ∧
      ∃ r ∈ rs, ∃ f ∈ persons.schema.fields, f.name ∉ ["nickname"] ∧
        ((w.row r)[f.index]?.bind Value.int?) = some 5000 := by
  refine ⟨?_, ?_⟩
  · obtain ⟨c, k, hc, hfound⟩ := Check.returns_of_found (c := (personRequest
      ["nickname"]).compile persons.schema .null 10) (j := {}) (by decide +kernel)
    obtain rfl : nicknameFilter = c := congrArg (Option.getD · default) hfound
    exact ⟨k, hc⟩
  · have hresult : nicknameRun.1.1.toOption = some [0] := by decide +kernel
    have hshown : ∃ f ∈ persons.schema.fields, f.name ∉ ["nickname"] ∧
        ((nicknameRun.1.2.row 0)[f.index]?.bind Value.int?) = some 5000 := by decide +kernel
    have hasked : nicknameRun.2.1.asked = [.readMany
      "SELECT number, salary FROM persons FETCH FIRST 10 ROWS ONLY" [] [] [.integer, .integer]] := by
      rfl
    obtain ⟨⟨⟨result, w⟩, t⟩, hrun⟩ : ∃ out, nicknameRun = out := ⟨_, rfl⟩
    rw [hrun] at hresult hshown hasked
    obtain rfl := eq_ok_of_toOption hresult
    exact ⟨[0], w, t, hrun, hasked, 0, List.mem_singleton_self 0, hshown⟩

end Mapping

end Tablewright
