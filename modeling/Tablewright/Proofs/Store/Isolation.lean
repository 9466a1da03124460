import Tablewright.Proofs.Store.Tenancy

/-! Tenants apart. Callers of a tenant read, write and search one after the other, each with
rows of its own that carry the tenant. Whatever they ask for and whatever fails, the rows of
all other tenants stay as they are, and every row that comes out was read from a row of the
tenant. -/

namespace Tablewright

open Work TableStore

/-- What a caller can ask for. -/
inductive TenantCall where
  | row (op : Mapping.RowOperation) (r : RowRef)
  | insertAll (rs : List RowRef)
  | updateAll (rs : List RowRef)
  | saveAll (rs : List RowRef)
  | filter (request : FilterRequest) (bound : Int)
  deriving Repr

/-- A row that comes out of a call, and the fields that were read into it. -/
structure RowOut where
  ref : RowRef
  fields : List Field
  deriving Repr

/-- One call of a run: the rows that were at hand, the store that it met, its result, and the
rows after it. -/
structure Exchange where
  call : TenantCall
  before : Workspace
  store : TableStore
  result : Except Failure (List RowOut)
  after : Workspace

namespace TenantCall

/-- The rows that are handed in. -/
def rowsIn : TenantCall → List RowRef
  | row _ r => [r]
  | insertAll rs | updateAll rs | saveAll rs => rs
  | filter .. => []

/-- The work of a call for a tenant, with the rows that come out of it. -/
def work (m : Mapping) (tenant : Value) : TenantCall → Work (List RowOut)
  | row op r => do
    let done ← m.perform op r
    return if done && op == .read then [⟨r, m.selectFields⟩] else []
  | insertAll rs => do
    let _ ← m.insertAll rs
    return []
  | updateAll rs => do
    let _ ← m.updateAll rs
    return []
  | saveAll rs => do
    let _ ← m.saveAll rs
    return []
  | filter request bound => do
    match ← check (request.compile m.schema tenant bound) with
    | none => return []
    | some c => return (← m.filterCompiled c).map (⟨·, m.filterFields c⟩)

/-- Calls one after the other, each with its own rows, and the store after all of them. -/
def run (m : Mapping) (tenant : Value) (h : Handle TableStore) :
    List (TenantCall × Workspace) → TableStore → List Exchange × TableStore
  | [], s => ([], s)
  | (c, w) :: calls, s =>
    let ((result, after), s') := ((c.work m tenant).start w).run h s
    let (exchanges, s') := run m tenant h calls s'
    (⟨c, w, s, result, after⟩ :: exchanges, s')

end TenantCall

namespace Mapping

/-- What a row was before a call: the row that was handed in, or one without values. -/
def startRow (m : Mapping) (w : Workspace) (r : RowRef) : Row :=
  w.rows.getD r (List.replicate m.schema.fields.length .null)

/-- A row that was read from a stored row of a tenant. -/
def ComesFrom (m : Mapping) (t : Field) (tenant : Value) (s : TableStore) (fields : List Field)
    (start row : Row) : Prop :=
  ∃ stored ∈ (s.table m.table).rows, stored.BelongsTo t.columnName tenant ∧
    m.Shows fields stored.column start row

/-- How a call ends for the tenant: what comes out was read from rows of the tenant, and the
rows of others are those that were there before. -/
def Isolated (m : Mapping) (t : Field) (tenant : Value) (w₀ : Workspace) (s₀ : TableStore)
    (outs : List RowOut) : Fact TableStore := fun w s =>
  (∀ o ∈ outs, m.ComesFrom t tenant s₀ o.fields (m.startRow w₀ o.ref) (w.row o.ref)) ∧
    m.SameOthers t tenant s₀ s

variable {m : Mapping} {t : Field} {tenant : Value} {w₀ : Workspace} {s₀ : TableStore} {d : Dialect}
  {rs : List RowRef}

/-- Work that keeps the rows of others, and lets nothing out. -/
theorem ensures_silent {x : Work Bool} {outs : Bool → List RowOut}
    (hx : Keeps d.handle (Holding (m.SameOthers t tenant s₀) (Carries t tenant) rs) x)
    (hrows : ∀ r ∈ rs, Carries t tenant (w₀.row r)) (houts : ∀ b, outs b = []) :
    Ensures d.handle (fun w s => w = w₀ ∧ s = s₀) (do return outs (← x))
      (Isolated m t tenant w₀ s₀) (fun _ => m.SameOthers t tenant s₀) := by
  refine (hx.bind fun b => ensures_pure (Q := Isolated m t tenant w₀ s₀) ?_).imp ?_
    (fun _ _ _ => id) fun _ _ hpost => hpost.2
  · intro w s hpost
    rw [houts]
    exact ⟨by simp, hpost.2⟩
  · rintro w s ⟨rfl, rfl⟩
    exact ⟨hrows, rfl⟩

theorem startRow_of_carries {r : RowRef} (hrow : Carries t tenant (w₀.row r)) :
    m.startRow w₀ r = w₀.row r := by
  have hlt : r < w₀.rows.length :=
    Workspace.lt_of_row (List.getElem?_eq_some_iff.mp hrow).1
  simp [startRow, Workspace.row, List.getD_eq_getElem?_getD, hlt]

theorem startRow_of_le {r : RowRef} (hr : w₀.rows.length ≤ r) :
    m.startRow w₀ r = List.replicate m.schema.fields.length .null := by
  rw [startRow, List.getD_eq_getElem?_getD, List.getElem?_eq_none hr]
  rfl

namespace Scoped

variable (h : m.Scoped t tenant) {u : Casing} {reads : String → Option Sql.Query}
include h

theorem ensures_read {r : RowRef} {start : Row} (hstart : Carries t tenant start)
    (s₀ : TableStore) :
    Ensures (Dialect.reference m.statements u reads).handle (fun w s => w.row r = start ∧ s = s₀)
      (m.read r)
      (fun found w s => (found = true →
        m.ComesFrom t tenant s₀ m.selectFields start (w.row r)) ∧ s = s₀)
      (fun _ s => s = s₀) := by
  unfold Mapping.read
  rw [h.keys]
  refine (ensures_row (p := (· = start)) fun w s hpre => hpre.1).bind fun row =>
    ensures_of fun hrow => ?_
  subst hrow
  refine (ensures_lift fun _ _ hpre => hpre.2).bind fun values => ensures_of fun hvalues => ?_
  obtain ⟨hlen, rfl⟩ := bindRow_eq hvalues
  refine ((Dialect.ensures_queryFirst (J := fun w => w.row r = row)).imp (fun _ _ => id)
    (fun _ _ _ => id) fun _ _ => And.right).bind fun found => ensures_of fun hfound => ?_
  obtain ⟨results, hquery, rfl⟩ := hfound
  cases hhead : results.head? with
  | none => exact ensures_pure fun _ _ hpre => ⟨fun hfalse => (nomatch hfalse), hpre.2⟩
  | some result =>
    rw [Dialect.query_known (find_statement (by simp [statements]))] at hquery
    obtain ⟨stored, hm, hbelongs, rfl⟩ :=
      h.find_read hstart hquery (List.mem_of_head? hhead)
    have hselect : ∀ f ∈ m.selectFields, f ∈ m.schema.fields := fun f hf => (List.mem_filter.mp hf).1
    refine (ensures_copy (K := (· = s₀))).bind fun _ =>
      ensures_pure fun w s hpre => ⟨fun _ => ?_, hpre.2⟩
    rw [zip_columns] at hpre
    exact ⟨stored, hm, hbelongs, shows_copied h.sound hselect hlen hpre.1⟩

/-- The text of a filter can be read, if every name in it is a word. -/
theorem ofText?_filterText {request : FilterRequest} {bound : Int} {c : CompiledFilter}
    {j k : Journal} (hw : FilterCondition.HasWords m.schema)
    (htable : StoreStatement.isWord m.table = true) (hbound : 0 < bound)
    (hc : (request.compile m.schema tenant bound).Returns j (some c) k) :
    Sql.Query.ofText? (m.filterText c) = some (m.filterQuery c) := by
  have hfields : ∀ f ∈ m.filterFields c, f ∈ m.schema.columnFields := by
    unfold filterFields
    split
    · exact fun _ hf => hf
    · exact FilterRequest.mem_outputFields hc
  have hne : columns (m.filterFields c) ≠ [] := by
    unfold filterFields columns
    rw [ne_eq, List.map_eq_nil_iff]
    split
    · exact List.ne_nil_of_mem h.mem_selectFields
    · rename_i hempty
      simpa using hempty
  have hcolumns : ∀ name ∈ columns (m.filterFields c), StoreStatement.isWord name = true := by
    intro name hm
    obtain ⟨f, hf, rfl⟩ := List.mem_map.mp hm
    exact hw f (hfields f hf)
  obtain ⟨_, parts, hparts, rfl⟩ := FilterRequest.returns_compile hc
  have hreadable := FilterRequest.isReadable_filter h.sound hw hbound hparts tenant
  rw [filterText_eq]
  exact Sql.ofText?_select hne hcolumns htable hreadable

theorem ensures_filter (n : Nat) {request : FilterRequest} {bound : Int}
    (hreads : ∀ c j k, (request.compile m.schema tenant bound).Returns j (some c) k →
      reads (m.filterText c) = some (m.filterQuery c)) (s₀ : TableStore) :
    Ensures (Dialect.reference m.statements u reads).handle
      (fun w s => w.rows.length = n ∧ s = s₀) ((TenantCall.filter request bound).work m tenant)
      (fun outs w s => (∀ o ∈ outs, n ≤ o.ref ∧ m.ComesFrom t tenant s₀ o.fields
        (List.replicate m.schema.fields.length .null) (w.row o.ref)) ∧ s = s₀)
      (fun _ s => s = s₀) := by
  refine (ensures_check (fun _ _ _ hpre => hpre) fun _ _ hpre => hpre.2).bind fun r =>
    ensures_of fun hr => ?_
  obtain ⟨j, k, hr⟩ := hr
  cases r with
  | none => exact ensures_pure fun _ _ hpre => ⟨by simp, hpre.2⟩
  | some c =>
    have houtput := FilterRequest.mem_outputFields hr
    have hfields : ∀ f ∈ m.filterFields c, f ∈ m.schema.fields := by
      unfold filterFields
      split
      · exact fun f hf => (List.mem_filter.mp hf).1
      · exact fun f hf => (List.mem_filter.mp (houtput f hf)).1
    dsimp only
    rw [filterCompiled_eq h.sound houtput]
    rintro w₁ s₁ ⟨rfl, rfl⟩
    refine ((Dialect.ensures_collectRows w₁.rows).imp (fun _ _ => id) (fun _ _ _ => id)
      fun _ _ => And.right).bind (fun rs => ensures_pure ?_) w₁ s₁ ⟨rfl, rfl⟩
    rintro w s ⟨⟨results, hquery, hkept⟩, rfl⟩
    refine ⟨?_, rfl⟩
    rw [Dialect.query_read (find_filterText h.keys c) (hreads c j k hr), Except.ok.injEq] at hquery
    subst hquery
    intro o ho
    obtain ⟨r, hrm, rfl⟩ := List.mem_map.mp ho
    obtain ⟨i, hi, rfl⟩ := List.getElem_of_mem hrm
    have hi' := hkept.made.length_eq ▸ hi
    obtain ⟨hn, -, hrow⟩ := hkept.made.get hi' hi
    refine ⟨hn, ?_⟩
    obtain ⟨stored, hm, hbelongs, hresult⟩ := h.answer_filter hr u s (List.getElem_mem hi')
    refine ⟨stored, hm, hbelongs, shows_copied h.sound hfields List.length_replicate ?_⟩
    rw [← zip_columns, ← hresult]
    exact hrow

/-- Every call is isolated, whatever it finds. -/
theorem ensures_call (u : Casing) (s₀ : TableStore) {c : TenantCall}
    (hrows : ∀ r ∈ c.rowsIn, Carries t tenant (w₀.row r))
    (hreads : ∀ request bound, c = .filter request bound → ∀ c j k,
      (request.compile m.schema tenant bound).Returns j (some c) k →
      reads (m.filterText c) = some (m.filterQuery c)) :
    Ensures (Dialect.reference m.statements u reads).handle (fun w s => w = w₀ ∧ s = s₀)
      (c.work m tenant) (Isolated m t tenant w₀ s₀) (fun _ => m.SameOthers t tenant s₀) := by
  have hrespects := h.respects u reads s₀
  cases c with
  | row op r =>
    have hrow := hrows r List.mem_cons_self
    cases op with
    | read =>
      refine ((h.ensures_read hrow s₀).bind (R := Isolated m t tenant w₀ s₀) fun found =>
        ensures_pure ?_).imp ?_ (fun _ _ _ => id) ?_
      · rintro w s ⟨hfound, rfl⟩
        refine ⟨fun o ho => ?_, rfl⟩
        cases found with
        | false => cases ho
        | true =>
          obtain rfl := List.mem_singleton.mp ho
          rw [startRow_of_carries hrow]
          exact hfound rfl
      · rintro w s ⟨rfl, rfl⟩
        exact ⟨rfl, rfl⟩
      · rintro w s rfl
        rfl
    | insert =>
      exact ensures_silent (hrespects.keeps_insert List.mem_cons_self) hrows fun b => by simp
    | update =>
      exact ensures_silent (hrespects.keeps_update List.mem_cons_self) hrows fun b => by simp
    | delete =>
      exact ensures_silent (hrespects.keeps_delete List.mem_cons_self) hrows fun b => by simp
    | save =>
      exact ensures_silent (hrespects.keeps_save List.mem_cons_self) hrows fun b => by simp
  | insertAll rs => exact ensures_silent hrespects.keeps_insertAll hrows fun _ => rfl
  | updateAll rs => exact ensures_silent hrespects.keeps_updateAll hrows fun _ => rfl
  | saveAll rs => exact ensures_silent hrespects.keeps_saveAll hrows fun _ => rfl
  | filter request bound =>
    refine (h.ensures_filter w₀.rows.length (hreads request bound rfl) s₀).imp ?_ ?_ ?_
    · rintro w s ⟨rfl, rfl⟩
      exact ⟨rfl, rfl⟩
    · rintro outs w s ⟨houts, rfl⟩
      refine ⟨fun o ho => ?_, rfl⟩
      obtain ⟨hn, hfrom⟩ := houts o ho
      rw [startRow_of_le hn]
      exact hfrom
    · rintro w s rfl
      rfl

end Scoped

end Mapping

namespace TenantCall

open Mapping

/-- Whatever a tenant's callers ask for one after the other, the rows of other tenants are in
the end the rows that they were, and what came out of any call was read from a row of the
tenant that was stored at that time. -/
theorem run_isolated {m : Mapping} {t : Field} {tenant : Value} (hs : m.schema.Valid)
    (hk : m.hasKeys = true) (ht : m.schema.tenantField = some t)
    (hn : (columns m.selectFields).Nodup) (hT : tenant.isNull = false) (u : Casing)
    (reads : String → Option Sql.Query) {calls : List (TenantCall × Workspace)}
    (hrows : ∀ e ∈ calls, ∀ r ∈ e.1.rowsIn, Carries t tenant (e.2.row r))
    (hreads : ∀ e ∈ calls, ∀ request bound, e.1 = .filter request bound → ∀ c j k,
      (request.compile m.schema tenant bound).Returns j (some c) k →
      reads (m.filterText c) = some (m.filterQuery c)) (s : TableStore) :
    m.SameOthers t tenant s
        (run m tenant (Dialect.reference m.statements u reads).handle calls s).2 ∧
      ∀ e ∈ (run m tenant (Dialect.reference m.statements u reads).handle calls s).1,
        ∀ outs, e.result = .ok outs → ∀ o ∈ outs,
          m.ComesFrom t tenant e.store o.fields (m.startRow e.before o.ref) (e.after.row o.ref) := by
  have hscoped : m.Scoped t tenant := ⟨hs.sound, hk, ht, hn, hT⟩
  induction calls generalizing s with
  | nil => exact ⟨rfl, by simp [run]⟩
  | cons e calls ih =>
    obtain ⟨c, w⟩ := e
    obtain ⟨hrow, hrows⟩ := List.forall_mem_cons.mp hrows
    obtain ⟨hread, hreads⟩ := List.forall_mem_cons.mp hreads
    have hcall := hscoped.ensures_call u s hrow hread w s ⟨rfl, rfl⟩
    have hrest := ih hrows hreads
    simp only [run]
    revert hcall
    obtain ⟨⟨result, after⟩, s'⟩ :=
      ((c.work m tenant).start w).run (Dialect.reference m.statements u reads).handle s
    obtain ⟨hsame, hfrom⟩ := hrest s'
    intro hcall
    cases result with
    | ok outs =>
      refine ⟨hsame.trans hcall.2, List.forall_mem_cons.mpr ⟨?_, hfrom⟩⟩
      rintro _ ⟨⟩ o ho
      exact hcall.1 o ho
    | error f =>
      refine ⟨hsame.trans hcall, List.forall_mem_cons.mpr ⟨?_, hfrom⟩⟩
      rintro _ ⟨⟩

/-! ## A run among invoices -/

/-- The mapping of invoices. -/
def invoices : Mapping := ⟨RecordSchema.invoice, false, "CURRENT_TIMESTAMP"⟩

/-- The rows of a caller of the first company. -/
def invoiceRows : Workspace where
  rows := [[.int 7, .int 1, .text "Ada", .null, .int 12, .null, .null, .text "me", .null, .text "me",
    .null]]

/-- An invoice is saved, read back, searched for and taken away. -/
def invoiceCalls : List (TenantCall × Workspace) :=
  [(.row .save 0, invoiceRows), (.row .read 0, invoiceRows),
    (.filter FilterRequest.hostileRequest 50, {}), (.updateAll [0, 0], invoiceRows),
    (.row .delete 0, invoiceRows)]

theorem run_isolated_invoices : ∃ t, RecordSchema.invoice.tenantField = some t ∧
    ∀ s : TableStore, invoices.SameOthers t (.int 1) s
      (run invoices (.int 1) (Dialect.reference invoices.statements .ascii Sql.Query.ofText?).handle
        invoiceCalls s).2 := by
  have hsome : RecordSchema.invoice.tenantField.isSome = true := by decide +kernel
  have hindex : (RecordSchema.invoice.tenantField.map (·.index)) = some 1 := by decide +kernel
  obtain ⟨t, ht⟩ := Option.isSome_iff_exists.mp hsome
  have hindex : t.index = 1 := by
    rw [ht] at hindex
    exact Option.some.inj hindex
  have hcarries : Carries t (.int 1) (invoiceRows.row 0) := by
    rw [Carries, hindex]
    rfl
  have hkeys : invoices.hasKeys = true := by decide +kernel
  have hnames : (columns invoices.selectFields).Nodup := by decide +kernel
  have hwords : FilterCondition.HasWords invoices.schema := by
    unfold FilterCondition.HasWords
    decide +kernel
  have hscoped : invoices.Scoped t (.int 1) :=
    ⟨RecordSchema.invoice_valid.sound, hkeys, ht, hnames, rfl⟩
  refine ⟨t, ht, fun s => ?_⟩
  refine (run_isolated (m := invoices) RecordSchema.invoice_valid hkeys ht hnames rfl .ascii
    Sql.Query.ofText? ?_ ?_ s).1
  · simp only [invoiceCalls, List.forall_mem_cons, List.not_mem_nil, rowsIn]
    simp [hcarries]
  · intro e he request bound hfilter c j k hc
    have hbound : 0 < bound := by
      simp only [invoiceCalls, List.mem_cons, List.not_mem_nil, or_false] at he
      obtain rfl | rfl | rfl | rfl | rfl := he <;> cases hfilter
      decide
    exact hscoped.ofText?_filterText hwords (by decide +kernel) hbound hc

end TenantCall

end Tablewright
