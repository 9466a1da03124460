import Tablewright.Mapping.Batch
import Tablewright.Proofs.Mapping.Marshal
import Tablewright.Store.Handle

/-! Invariants of a store. If the statements of a mapping keep something that is known of
the store, whatever rows of some kind they bind, then so does every operation that is handed
such rows, whether it ends with a result or with a failure. -/

namespace Tablewright

open Work

namespace Dialect

variable {d : Dialect} {s₀ : TableStore} {I : TableStore → Prop} {J : Workspace → Prop}
  {sql column : String} {values : List Value} {rows : List (List Value)}
  {types output : List ValueType} {generated : Option String}

/-- What is known of a store is known of it after a text was executed, too. -/
def Preserves (d : Dialect) (I : TableStore → Prop) (sql : String) (values : List Value)
    (generated : Option String) : Prop := ∀ s, I s → I (d.execute s sql values generated).2

theorem preserves_all (h : ∀ values ∈ rows, d.Preserves I sql values generated) {s : TableStore}
    (hs : I s) : I (d.executeAll sql generated rows s).2 := by
  induction rows generalizing s with
  | nil => exact hs
  | cons values rows ih =>
    have hfirst := h values List.mem_cons_self s hs
    unfold executeAll
    split
    · rename_i heq
      rwa [heq] at hfirst
    · rename_i heq
      rw [heq] at hfirst
      exact ih (fun v hv => h v (List.mem_cons_of_mem values hv)) hfirst

/-- A query leaves the store as it is. -/
theorem ensures_query : Ensures d.handle (fun w s => J w ∧ s = s₀)
    (readMany sql values types output)
    (fun found w s => (∃ results, d.query s₀ sql values = .ok results ∧ found = results.map .ok) ∧
      J w ∧ s = s₀) (fun _ s => (∃ e, d.query s₀ sql values = .error e) ∧ s = s₀) := by
  refine ensures_ask ?_
  rintro w s ⟨hJ, rfl⟩
  show Ends _ _ (((d.query s sql values).map (·.map Except.ok), w), s)
  cases hq : d.query s sql values with
  | error e => exact ⟨⟨e, rfl⟩, rfl⟩
  | ok results => exact ⟨⟨results, rfl, rfl⟩, hJ, rfl⟩

theorem ensures_queryFirst : Ensures d.handle (fun w s => J w ∧ s = s₀)
    (Work.read sql values types output)
    (fun found w s => (∃ results, d.query s₀ sql values = .ok results ∧ found = results.head?) ∧
      J w ∧ s = s₀) (fun _ s => (∃ e, d.query s₀ sql values = .error e) ∧ s = s₀) := by
  refine ensures_ask ?_
  rintro w s ⟨hJ, rfl⟩
  show Ends _ _ (((d.query s sql values).map (·.head?), w), s)
  cases hq : d.query s sql values with
  | error e => exact ⟨⟨e, rfl⟩, rfl⟩
  | ok results => exact ⟨⟨results, rfl, rfl⟩, hJ, rfl⟩

/-- The rows that are made of what a query finds, unless the query fails or a result cannot be
brought into its native form. -/
theorem ensures_collectRows {m : Mapping} {fields : List Field} (present : List Row) :
    Ensures d.handle (fun w s => w.rows = present ∧ s = s₀)
      (m.collectRows fields sql values types)
      (fun rs w s => (∃ results, d.query s₀ sql values = .ok results ∧
        m.Kept fields present results rs w) ∧ s = s₀)
      (fun _ s => (∀ results, d.query s₀ sql values = .ok results →
        ∃ result ∈ results, ∃ e, m.rowOf fields result = .error e) ∧ s = s₀) := by
  refine (ensures_query.imp (fun _ _ => id) (fun _ _ _ => id) ?_).bind fun found =>
    ensures_of fun hfound => ?_
  · rintro w s ⟨⟨e, he⟩, hs⟩
    refine ⟨fun results hresults => ?_, hs⟩
    rw [he] at hresults
    cases hresults
  obtain ⟨results, hquery, rfl⟩ := hfound
  refine Ensures.bind (Q := fun out w s => m.Kept fields present results out.2 w ∧ s = s₀) ?_ ?_
  · refine (Mapping.ensures_keepRows []).imp
      (fun w s hpre => ⟨Mapping.kept_nil hpre.1, hpre.2⟩) (fun _ _ _ => id) ?_
    · rintro w s ⟨hfail, hs⟩
      refine ⟨fun results' hresults' => ?_, hs⟩
      obtain rfl : results = results' := Except.ok.inj (hquery.symm.trans hresults')
      exact hfail
  · rintro ⟨count, rs⟩
    exact ensures_pure fun w s hpre => ⟨⟨results, hquery, hpre.1⟩, hpre.2⟩

/-- What is known before a call that changes the store, if its texts keep it. -/
theorem keeps_ask {c : Call} (hc : ∀ s, I s → I (d.reply s c).2) :
    Keeps d.handle (fun w s => J w ∧ I s) (ask c) := by
  refine ensures_ask ?_
  rintro w s ⟨hJ, hI⟩
  have hafter := hc s hI
  show Ends _ _ (((d.reply s c).1, w), (d.reply s c).2)
  cases (d.reply s c).1 with
  | error e => exact ⟨hJ, hafter⟩
  | ok a => exact ⟨hJ, hafter⟩

theorem keeps_write (h : d.Preserves I sql values none) :
    Keeps d.handle (fun w s => J w ∧ I s) (write sql values types) :=
  keeps_ask (c := .write sql values types) h

theorem keeps_insertKey (h : d.Preserves I sql values (some column)) :
    Keeps d.handle (fun w s => J w ∧ I s) (insertKey sql values types column) :=
  keeps_ask (c := .insertKey sql values types column) h

theorem keeps_writeMany (h : ∀ values ∈ rows, d.Preserves I sql values none) :
    Keeps d.handle (fun w s => J w ∧ I s) (writeMany sql rows types) :=
  keeps_ask (c := .writeMany sql rows types) fun _ hs => preserves_all h hs

theorem keeps_insertManyKey (h : ∀ values ∈ rows, d.Preserves I sql values (some column)) :
    Keeps d.handle (fun w s => J w ∧ I s) (insertManyKey sql rows types column) :=
  keeps_ask (c := .insertManyKey sql rows types column) fun _ hs => preserves_all h hs

end Dialect

namespace Mapping

variable {m : Mapping} {d : Dialect} {I : TableStore → Prop} {p : Row → Prop}
  {rs : List RowRef} {r : RowRef}

/-- The statements of a mapping keep what is known of a store, if they bind rows of some
kind; and a row with a generated key is still of this kind. -/
structure Respects (m : Mapping) (d : Dialect) (I : TableStore → Prop) (p : Row → Prop) : Prop where
  insert : m.hasKeys = true → ∀ row, p row → d.Preserves I m.insertStatement.toText
    (m.boundValues m.insertBound row) (m.schema.generatedKey.map (·.columnName))
  update : m.canUpdate = true → ∀ row, p row → d.Preserves I m.updateStatement.toText
    (m.boundValues m.updateBound row) none
  delete : m.hasKeys = true → ∀ row, p row → d.Preserves I m.deleteStatement.toText
    (m.boundValues m.whereFields row) none
  key : ∀ g v, m.schema.generatedKey = some g → ∀ row, p row → p (row.set g.index v)

/-- Some rows are of a kind, and something is known of the store. -/
def Holding (I : TableStore → Prop) (p : Row → Prop) (rs : List RowRef) : Fact TableStore :=
  fun w s => (∀ r ∈ rs, p (w.row r)) ∧ I s

theorem unlogged_holding : Unlogged (Holding I p rs) := fun _ _ _ h => h

theorem keeps_refuse {operation : String} :
    Keeps d.handle (Holding I p rs) (m.refuse operation) :=
  (keeps_note unlogged_holding).bind fun _ => ensures_pure fun _ _ => id

/-- What a row of the kind binds. -/
theorem ensures_bindRow {fields : List Field} (hr : r ∈ rs) :
    Ensures d.handle (Holding I p rs) (do lift (m.bindRow fields (← Work.row r)))
      (fun values w s => (∃ row, p row ∧ values = m.boundValues fields row) ∧ Holding I p rs w s)
      (Holding I p rs) := by
  refine (ensures_row (p := p) fun w s hpre => hpre.1 r hr).bind fun row =>
    ensures_of fun hrow => ?_
  refine (ensures_lift fun _ _ => id).imp (fun _ _ => id) ?_ fun _ _ => id
  rintro values w s ⟨hvalues, hpre⟩
  exact ⟨⟨row, hrow, (bindRow_eq hvalues).2⟩, hpre⟩

/-- What is done with the values that a row binds is done with those of a row of the kind. -/
theorem ensures_bound {α : Type} {fields : List Field} {f : List Value → Work α}
    {Q : α → Fact TableStore} (hr : r ∈ rs)
    (hf : ∀ row, p row → Ensures d.handle (Holding I p rs) (f (m.boundValues fields row)) Q
      (Holding I p rs)) :
    Ensures d.handle (Holding I p rs) (do f (← lift (m.bindRow fields (← Work.row r)))) Q
      (Holding I p rs) := by
  rw [← bind_assoc]
  refine (ensures_bindRow hr).bind fun values => ensures_of fun hvalues => ?_
  obtain ⟨row, hrow, rfl⟩ := hvalues
  exact hf row hrow

/-- What several rows of the kind bind. -/
theorem ensures_bindRows {fields : List Field} : Ensures d.handle (Holding I p rs)
    (m.bindRows fields rs)
    (fun rows w s => (∀ values ∈ rows, ∃ row, p row ∧ values = m.boundValues fields row) ∧
      Holding I p rs w s) (Holding I p rs) := by
  refine (ensures_mapM fun r hr => ensures_bindRow hr).imp (fun _ _ => id) ?_ fun _ _ => id
  rintro rows w s ⟨hrows, hpre⟩
  refine ⟨fun values hvalues => ?_, hpre⟩
  obtain ⟨n, hn, rfl⟩ := List.getElem_of_mem hvalues
  exact hrows.get (hrows.length_eq ▸ hn) hn

namespace Respects

variable (h : m.Respects d I p)
include h

theorem keeps_setKey {g : Field} {v : Value} (hg : m.schema.generatedKey = some g) :
    Keeps d.handle (Holding I p rs) (setAt r g.index v) := by
  refine ensures_setAt ?_ fun _ _ => id
  rintro w s ⟨hrows, hI⟩ hlt
  refine ⟨fun o ho => ?_, hI⟩
  by_cases hro : r = o
  · subst hro
    rw [Workspace.row_setRow_self (Workspace.lt_of_row hlt)]
    exact h.key g v hg _ (hrows r ho)
  · rw [Workspace.row_setRow_of_ne hro]
    exact hrows o ho

theorem keeps_assignKey {g : Field} {key : Value} (hg : m.schema.generatedKey = some g) :
    Keeps d.handle (Holding I p rs) (m.assignKey r g key) := by
  have hnote : ∀ level text, Keeps d.handle (Holding I p rs) (note level .synthesizer text) :=
    fun _ _ => keeps_note unlogged_holding
  unfold assignKey
  split
  · exact hnote _ _
  · refine (ensures_lift fun _ _ => id).bind fun v => ensures_of fun _ => ?_
    exact (h.keeps_setKey hg).bind fun _ => hnote _ _

theorem keeps_insert (hr : r ∈ rs) : Keeps d.handle (Holding I p rs) (m.insert r) := by
  unfold Mapping.insert
  split
  · exact keeps_refuse.bind fun b => ensures_pure fun _ _ => id
  · rename_i hk
    have hk : m.hasKeys = true := by simpa using hk
    refine ensures_bound hr fun row hrow => ?_
    have hkeep := h.insert hk row hrow
    cases hg : m.schema.generatedKey with
    | none =>
      rw [hg] at hkeep
      exact (Dialect.keeps_write hkeep).bind fun n => ensures_pure fun _ _ => id
    | some g =>
      rw [hg] at hkeep
      refine (Dialect.keeps_insertKey hkeep).bind ?_
      rintro ⟨n, key⟩
      dsimp only
      split
      · exact ensures_pure fun _ _ => id
      · exact (h.keeps_assignKey hg).bind fun _ => ensures_pure fun _ _ => id

theorem keeps_update (hr : r ∈ rs) : Keeps d.handle (Holding I p rs) (m.update r) := by
  unfold Mapping.update
  split
  · exact keeps_refuse.bind fun b => ensures_pure fun _ _ => id
  · rename_i hc
    have hc : m.canUpdate = true := by simpa using hc
    refine ensures_bound hr fun row hrow => ?_
    exact (Dialect.keeps_write (h.update hc row hrow)).bind fun n => ensures_pure fun _ _ => id

theorem keeps_delete (hr : r ∈ rs) : Keeps d.handle (Holding I p rs) (m.delete r) := by
  unfold Mapping.delete
  split
  · exact keeps_refuse.bind fun b => ensures_pure fun _ _ => id
  · rename_i hk
    have hk : m.hasKeys = true := by simpa using hk
    refine ensures_bound hr fun row hrow => ?_
    exact (Dialect.keeps_write (h.delete hk row hrow)).bind fun n => ensures_pure fun _ _ => id

theorem keeps_save (hr : r ∈ rs) : Keeps d.handle (Holding I p rs) (m.save r) := by
  unfold Mapping.save
  split
  · exact keeps_refuse.bind fun b => ensures_pure fun _ _ => id
  · split
    · refine (h.keeps_update hr).bind fun updated => ?_
      split
      · exact ensures_pure fun _ _ => id
      · exact h.keeps_insert hr
    · exact h.keeps_insert hr

theorem keeps_saveAll : Keeps d.handle (Holding I p rs) (m.saveAll rs) := by
  unfold Mapping.saveAll
  split
  · exact keeps_refuse.bind fun b => ensures_pure fun _ _ => id
  · have hsave : ∀ r ∈ rs, Ensures d.handle (Holding I p rs) (m.save r)
        (fun _ w s => True ∧ Holding I p rs w s) (Holding I p rs) := fun r hr =>
      (h.keeps_save hr).imp (fun _ _ => id) (fun _ _ _ hpost => ⟨trivial, hpost⟩) fun _ _ => id
    refine (ensures_mapM (R := fun _ _ => True) hsave).bind fun saved => ensures_of fun _ => ?_
    exact ensures_pure fun _ _ => id

theorem keeps_assignKeys {g : Field} (hg : m.schema.generatedKey = some g)
    (pairs : List (RowRef × Value)) : Keeps d.handle (Holding I p rs) (assignKeys g pairs) := by
  refine keeps_forM ?_
  rintro ⟨r, key⟩ _
  dsimp only
  split
  · refine (ensures_lift fun _ _ => id).bind fun v => ensures_of fun _ => ?_
    exact h.keeps_setKey hg
  · exact ensures_pure fun _ _ => id

theorem keeps_sendInserts (hk : m.hasKeys = true) :
    Keeps d.handle (Holding I p rs) (m.sendInserts rs) := by
  unfold sendInserts
  refine ensures_bindRows.bind fun rows => ensures_of fun hrows => ?_
  have hkeep : ∀ values ∈ rows, d.Preserves I m.insertStatement.toText values
      (m.schema.generatedKey.map (·.columnName)) := by
    intro values hv
    obtain ⟨row, hrow, rfl⟩ := hrows values hv
    exact h.insert hk row hrow
  cases hg : m.schema.generatedKey with
  | none =>
    rw [hg] at hkeep
    exact Dialect.keeps_writeMany hkeep
  | some g =>
    rw [hg] at hkeep
    refine (Dialect.keeps_insertManyKey hkeep).bind ?_
    rintro ⟨n, keys⟩
    exact (h.keeps_assignKeys hg _).bind fun _ => ensures_pure fun _ _ => id

theorem keeps_insertAll : Keeps d.handle (Holding I p rs) (m.insertAll rs) := by
  unfold insertAll
  split
  · exact keeps_refuse.bind fun b => ensures_pure fun _ _ => id
  · rename_i hk
    have hk : m.hasKeys = true := by simpa using hk
    split
    · exact ensures_pure fun _ _ => id
    · refine (h.keeps_sendInserts hk).bind fun n => ?_
      split
      · exact ensures_pure fun _ _ => id
      · exact (keeps_note unlogged_holding).bind fun _ => ensures_pure fun _ _ => id

theorem keeps_updateAll : Keeps d.handle (Holding I p rs) (m.updateAll rs) := by
  unfold updateAll
  split
  · exact keeps_refuse.bind fun b => ensures_pure fun _ _ => id
  · rename_i hc
    have hc : m.canUpdate = true := by simpa using hc
    split
    · exact ensures_pure fun _ _ => id
    · refine ensures_bindRows.bind fun rows => ensures_of fun hrows => ?_
      have hkeep : ∀ values ∈ rows, d.Preserves I m.updateStatement.toText values none := by
        intro values hv
        obtain ⟨row, hrow, rfl⟩ := hrows values hv
        exact h.update hc row hrow
      refine (Dialect.keeps_writeMany hkeep).bind fun n => ?_
      split
      · exact ensures_pure fun _ _ => id
      · exact (keeps_note unlogged_holding).bind fun _ => ensures_pure fun _ _ => id

end Respects

end Mapping

end Tablewright
