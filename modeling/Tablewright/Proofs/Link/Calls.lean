import Tablewright.Proofs.Link.Joining
import Tablewright.Proofs.Link.Saved
import Tablewright.Proofs.Overhearing

/-! The calls that are made for a row and its child rows, and the values that they bind. Saving,
reading and deleting child rows each execute statements of their own on the child's table, whose
marks stand for fields of the child. Against any handle, also one that fails, these calls are made
from the values that the parent row has. -/

namespace Tablewright

open Work

/-! ## What calls bind -/

namespace Call

/-- The text of the call's statement. -/
def sql : Call → String
  | read sql .. | readMany sql .. | write sql .. | insertKey sql .. | writeMany sql ..
  | insertManyKey sql .. => sql

/-- The lists of values for which the statement is executed. -/
def rows : Call → List (List Value)
  | read _ values .. | readMany _ values .. | write _ values _ | insertKey _ values .. => [values]
  | writeMany _ rows _ | insertManyKey _ rows .. => rows

/-- The call executes one of some statements, each with the fields that its marks stand for, and
binds a value for one of these fields. -/
def Binds (c : Call) (marked : List (Statement × List Field)) (f : Field) (v : Value) : Prop :=
  ∃ e ∈ marked, c.sql = e.1.toText ∧ ∃ values ∈ c.rows, (f, v) ∈ e.2.zip values

/-- Statements of different kinds are told apart by their texts. -/
theorem binds_iff {c : Call} {marked : List (Statement × List Field)}
    (hkinds : (marked.map (·.1.initial)).Nodup) {e : Statement × List Field} (he : e ∈ marked)
    (hsql : c.sql = e.1.toText) {values : List Value} (hrows : c.rows = [values]) {f : Field}
    {v : Value} : c.Binds marked f v ↔ (f, v) ∈ e.2.zip values := by
  constructor
  · intro hbinds
    obtain ⟨o, ho, htext, values', hvalues', hzip⟩ := hbinds
    have hinitial : some o.1.initial = some e.1.initial := by
      rw [← o.1.head?_toText, ← e.1.head?_toText, ← htext, hsql]
    obtain rfl := List.inj_on_of_nodup_map hkinds ho he (Option.some.inj hinitial)
    rw [hrows, List.mem_singleton] at hvalues'
    exact hvalues' ▸ hzip
  · intro hzip
    exact ⟨e, he, hsql, values, by simp [hrows], hzip⟩

end Call

/-- A list next to what a function makes of it. -/
theorem mem_zip_map {α β : Type} {l : List α} {g : α → β} {a : α} {b : β} :
    (a, b) ∈ l.zip (l.map g) ↔ a ∈ l ∧ b = g a := by
  have hzip : l.zip (l.map g) = l.map fun a => (a, g a) := by
    simpa using List.zip_map' (f := id) (g := g) (l := l)
  rw [hzip, List.mem_map]
  constructor
  · intro h
    obtain ⟨a', ha', heq⟩ := h
    obtain ⟨rfl, rfl⟩ := Prod.mk.inj heq
    exact ⟨ha', rfl⟩
  · intro h
    obtain ⟨ha, rfl⟩ := h
    exact ⟨a, ha, rfl⟩

namespace Mapping

variable {m : Mapping} {row : Row} {f : Field} {v : Value}

/-- The statements on a mapping's table, each with the fields that its marks stand for. -/
def marked (m : Mapping) : List (Statement × List Field) :=
  [(m.readStatement, m.whereFields), (m.insertStatement, m.insertBound),
    (m.updateStatement, m.updateBound), (m.deleteStatement, m.whereFields)]

/-- The call by which a row is deleted. -/
def deleteCall (m : Mapping) (row : Row) : Call :=
  .write m.deleteStatement.toText (m.boundValues m.whereFields row) (types m.whereFields)

theorem insertCall_cases (m : Mapping) (row : Row) : (m.insertCall row).sql = m.insertStatement.toText ∧
    (m.insertCall row).rows = [m.boundValues m.insertBound row] := by
  unfold insertCall
  split <;> exact ⟨rfl, rfl⟩

theorem marked_kinds (m : Mapping) : (m.marked.map (·.1.initial)).Nodup := by
  show List.Nodup ['S', 'I', 'U', 'D']
  decide

theorem binds_deleteCall : (m.deleteCall row).Binds m.marked f v ↔
    f ∈ m.whereFields ∧ v = m.boundValue f row := by
  have hmem : (m.deleteStatement, m.whereFields) ∈ m.marked := by simp [marked]
  exact (Call.binds_iff m.marked_kinds hmem rfl rfl).trans mem_zip_map

end Mapping

namespace Link

variable {l : Link} {parent row : Row} {f : Field} {v : Value}

/-- The statement by which child rows are deleted. -/
def deletion (l : Link) : Statement := .delete l.child.table (Mapping.columns l.childFields)

/-- The statements on the child's table by which child rows are read, saved and deleted, each with
the fields of the child that its marks stand for. -/
def marked (l : Link) : List (Statement × List Field) :=
  [(l.query, l.childFields), (l.child.insertStatement, l.child.insertBound),
    (l.child.updateStatement, l.child.updateBound), (l.deletion, l.childFields)]

/-- The call by which the child rows of a parent row are read. -/
def readCall (l : Link) (parent : Row) : Call :=
  let sql := Mapping.clauseSql l.child.selectText (some l.whereText)
  let output := Mapping.types l.child.selectFields
  if l.isMultiRow then .readMany sql (l.values parent) l.whereTypes output
  else .read sql (l.values parent) l.whereTypes output

/-- The call by which the child rows of a parent row are deleted. -/
def deleteCall (l : Link) (parent : Row) : Call :=
  .write l.deleteText (l.values parent) l.whereTypes

/-- A call that updates or inserts a child row with a parent row's values in it, which the child's
record has to support. -/
def SaveCall (l : Link) (parent : Row) (c : Call) : Prop :=
  ∃ child : Row, child.length = l.child.schema.fields.length ∧
    (l.child.canUpdate = true ∧ c = l.child.updateCall (l.carried parent child) ∨
      l.child.hasKeys = true ∧ c = l.child.insertCall (l.carried parent child))

theorem marked_kinds (l : Link) : (l.marked.map (·.1.initial)).Nodup := by
  show List.Nodup ['S', 'I', 'U', 'D']
  decide

theorem mem_zip_values :
    (f, v) ∈ l.childFields.zip (l.values parent) ↔
      ∃ e ∈ l.pairs, e.2 = f ∧ v = parent.getD e.1.index .null := by
  have hzip : l.childFields.zip (l.values parent) =
      l.pairs.map fun e => (e.2, parent.getD e.1.index .null) := by
    rw [childFields, values, parentFields, List.map_map, List.zip_map']
    rfl
  rw [hzip, List.mem_map]
  simp only [Prod.mk.injEq, eq_comm (a := v)]

theorem binds_updateCall : (l.child.updateCall row).Binds l.marked f v ↔
    f ∈ l.child.updateBound ∧ v = l.child.boundValue f row := by
  have hmem : (l.child.updateStatement, l.child.updateBound) ∈ l.marked := by simp [marked]
  exact (Call.binds_iff l.marked_kinds hmem rfl rfl).trans mem_zip_map

theorem binds_insertCall : (l.child.insertCall row).Binds l.marked f v ↔
    f ∈ l.child.insertBound ∧ v = l.child.boundValue f row := by
  have hmem : (l.child.insertStatement, l.child.insertBound) ∈ l.marked := by simp [marked]
  obtain ⟨hsql, hrows⟩ := l.child.insertCall_cases row
  exact (Call.binds_iff l.marked_kinds hmem hsql hrows).trans mem_zip_map

theorem binds_readCall (hl : l.isLinked = true) : (l.readCall parent).Binds l.marked f v ↔
    ∃ e ∈ l.pairs, e.2 = f ∧ v = parent.getD e.1.index .null := by
  have hmem : (l.query, l.childFields) ∈ l.marked := by simp [marked]
  have hcall : (l.readCall parent).sql = l.query.toText ∧
      (l.readCall parent).rows = [l.values parent] := by
    rw [← query_toText hl, readCall]
    split <;> exact ⟨rfl, rfl⟩
  exact (Call.binds_iff l.marked_kinds hmem hcall.1 hcall.2).trans mem_zip_values

theorem binds_deleteCall : (l.deleteCall parent).Binds l.marked f v ↔
    ∃ e ∈ l.pairs, e.2 = f ∧ v = parent.getD e.1.index .null := by
  have hmem : (l.deletion, l.childFields) ∈ l.marked := by simp [marked]
  exact (Call.binds_iff l.marked_kinds hmem rfl rfl).trans mem_zip_values

end Link

/-! ## The calls that are made -/

section

variable {σ : Type} {h : Handle σ} {rows : List Row} {r : RowRef}

/-- All calls are of one kind. -/
abbrev Every (p : Call → Prop) (calls : List Call) : Prop := ∀ c ∈ calls, p c

theorem every_nil {p : Call → Prop} : Every p [] := fun _ hc => nomatch hc

theorem every_concat {p : Call → Prop} {c : Call} (hc : p c) (calls : List Call)
    (hcalls : Every p calls) : Every p (calls ++ [c]) := by
  intro o ho
  rcases List.mem_append.mp ho with ho | ho
  · exact hcalls o ho
  · rw [List.mem_singleton.mp ho]
    exact hc

namespace Mapping

variable {m : Mapping} {p : Call → Prop}

theorem asked_update (hp : m.canUpdate = true →
      (rows.getD r []).length = m.schema.fields.length → p (m.updateCall (rows.getD r []))) :
    Ensures h.listening (Overheard rows (Every p)) (m.update r)
      (fun done w s => (done = true → (rows.getD r []).length = m.schema.fields.length) ∧
        Overheard rows (Every p) w s)
      (Overheard rows (Every p)) := by
  unfold update
  split
  · refine ensures_refuse.imp (fun _ _ => id) ?_ fun _ _ => id
    intro done w s hpre
    obtain ⟨rfl, hpre⟩ := hpre
    exact ⟨nofun, hpre⟩
  · rename_i hc
    have hcall := hp (by simpa using hc)
    rw [← bind_assoc]
    refine (ensures_values.imp (fun _ _ => id) (fun _ _ _ => id) fun _ _ hpre => hpre.2).bind
      fun values => ensures_of fun hvalues => ?_
    obtain ⟨hlen, rfl⟩ := hvalues
    refine (ensures_asked (every_concat (hcall hlen))).bind fun n => ensures_pure ?_
    exact fun w s hpre => ⟨fun _ => hlen, hpre⟩

theorem asked_delete (hp : p (m.deleteCall (rows.getD r []))) :
    Keeps h.listening (Overheard rows (Every p)) (m.delete r) := by
  unfold delete
  split
  · exact ensures_refuse.imp (fun _ _ => id) (fun _ _ _ hpre => hpre.2) fun _ _ => id
  · rw [← bind_assoc]
    refine (ensures_values.imp (fun _ _ => id) (fun _ _ _ => id) fun _ _ hpre => hpre.2).bind
      fun values => ensures_of fun hvalues => ?_
    obtain ⟨hlen, rfl⟩ := hvalues
    exact (ensures_asked (every_concat hp)).bind fun n => ensures_pure fun _ _ => id

/-- A key may have come back into the row. -/
theorem asked_assignKey {g : Field} (hg : m.schema.generatedKey = some g) {key : Value} :
    Ensures h.listening (Overheard rows (Every p)) (m.assignKey r g key)
      (fun _ w s => ∃ row, m.SameButKey (rows.getD r []) row ∧ Overheard (rows.set r row) (Every p) w s)
      (Overheard rows (Every p)) := by
  unfold assignKey
  split
  · refine (ensures_note unlogged_standing).imp (fun _ _ => id) ?_ fun _ _ => id
    exact fun _ w s hpre => ⟨_, .inl rfl, by rwa [set_getD]⟩
  · refine (ensures_lift fun _ _ => id).bind fun v => ensures_of fun _ => ?_
    refine ensures_place.bind fun _ => ?_
    refine (ensures_note unlogged_standing).imp (fun _ _ => id) ?_ fun _ _ => id
    exact fun _ w s hpre => ⟨_, .inr ⟨g, v, hg, rfl⟩, hpre⟩

theorem asked_insert (hp : m.hasKeys = true →
      (rows.getD r []).length = m.schema.fields.length → p (m.insertCall (rows.getD r []))) :
    Ensures h.listening (Overheard rows (Every p)) (m.insert r)
      (fun done w s => (done = true → (rows.getD r []).length = m.schema.fields.length) ∧
        ∃ row, m.SameButKey (rows.getD r []) row ∧ Overheard (rows.set r row) (Every p) w s)
      (Overheard rows (Every p)) := by
  unfold insert
  split
  · refine ensures_refuse.imp (fun _ _ => id) ?_ fun _ _ => id
    intro done w s hpre
    obtain ⟨rfl, hpre⟩ := hpre
    exact ⟨nofun, _, .inl rfl, by rwa [set_getD]⟩
  · rename_i hk
    have hcall := hp (by simpa using hk)
    dsimp only
    rw [← bind_assoc]
    refine (ensures_values.imp (fun _ _ => id) (fun _ _ _ => id) fun _ _ hpre => hpre.2).bind
      fun values => ensures_of fun hvalues => ?_
    obtain ⟨hlen, rfl⟩ := hvalues
    replace hcall := hcall hlen
    unfold insertCall at hcall
    split
    · rename_i hg
      rw [hg] at hcall
      refine (ensures_asked (every_concat hcall)).bind fun n => ensures_pure ?_
      exact fun w s hpre => ⟨fun _ => hlen, _, .inl rfl, by rwa [set_getD]⟩
    · rename_i g hg
      rw [hg] at hcall
      refine (ensures_asked (every_concat hcall)).bind fun reply => ?_
      split
      · exact ensures_pure fun w s hpre => ⟨nofun, _, .inl rfl, by rwa [set_getD]⟩
      · refine (asked_assignKey hg).bind fun _ => ensures_pure ?_
        exact fun w s hpre => ⟨fun _ => hlen, hpre⟩

theorem asked_save (hp : (rows.getD r []).length = m.schema.fields.length →
      (m.canUpdate = true → p (m.updateCall (rows.getD r []))) ∧
        (m.hasKeys = true → p (m.insertCall (rows.getD r [])))) :
    Ensures h.listening (Overheard rows (Every p)) (m.save r)
      (fun done w s => (done = true → (rows.getD r []).length = m.schema.fields.length) ∧
        ∃ row, m.SameButKey (rows.getD r []) row ∧ Overheard (rows.set r row) (Every p) w s)
      (Overheard rows (Every p)) := by
  unfold save
  split
  · refine ensures_refuse.imp (fun _ _ => id) ?_ fun _ _ => id
    intro done w s hpre
    obtain ⟨rfl, hpre⟩ := hpre
    exact ⟨nofun, _, .inl rfl, by rwa [set_getD]⟩
  · split
    · refine (asked_update fun hc hlen => (hp hlen).1 hc).bind fun done => ensures_of fun hdone => ?_
      cases done with
      | true => exact ensures_pure fun w s hpre => ⟨hdone, _, .inl rfl, by rwa [set_getD]⟩
      | false => exact asked_insert fun hk hlen => (hp hlen).2 hk
    · exact asked_insert fun hk hlen => (hp hlen).2 hk

end Mapping

namespace Link

variable {l : Link} {parent : RowRef} {base : Row}

/-- A row as it is after it was saved with a parent row's values in it. -/
def SavedAs (l : Link) (base row : Row) : Prop :=
  ∃ child : Row, child.length = l.child.schema.fields.length ∧
    l.child.SameButKey (l.carried base child) row

/-- What is known after child rows were to be saved: all calls bind the parent row's values, and if
all is done, all rows hold them. -/
def AskedToSave (l : Link) (base : Row) (rs : List RowRef) (rows : List Row) (done : Bool) :
    Fact (List AnsweredCall × σ) :=
  fun w s => (done = true → ∀ r ∈ rs, l.SavedAs base (w.row r)) ∧
    (∀ o ∉ rs, w.row o = rows.getD o []) ∧ Every (l.SaveCall base) (s.1.map (·.call))

theorem asked_saveRow (hne : parent ≠ r) (hbase : rows.getD parent [] = base) :
    Ensures h.listening (Overheard rows (Every (l.SaveCall base)))
      (do l.copyValues parent r; l.child.save r)
      (fun done w s => ∃ row, row.length = (rows.getD r []).length ∧
        (done = true → l.SavedAs base row) ∧ Overheard (rows.set r row) (Every (l.SaveCall base)) w s)
      (fun _ s => Every (l.SaveCall base) (s.1.map (·.call))) := by
  subst hbase
  have hrow : (copied parent r l.pairs rows).getD r [] = _ := getD_copied l hne
  have hlength : (l.carried (rows.getD parent []) (rows.getD r [])).length = _ := length_carry ..
  refine (ensures_copies.imp (fun _ _ => id) (fun _ _ _ => id) fun _ _ hpre => hpre.2).bind fun _ => ?_
  refine (Mapping.asked_save ?_).imp (fun _ _ => id) ?_ fun _ _ hpre => hpre.2
  · rw [hrow, hlength]
    intro hlen
    exact ⟨fun hc => ⟨_, hlen, .inl ⟨hc, rfl⟩⟩, fun hk => ⟨_, hlen, .inr ⟨hk, rfl⟩⟩⟩
  · rw [hrow, hlength]
    intro done w s hpre
    obtain ⟨hdone, row, hsame, hrows, hcalls⟩ := hpre
    refine ⟨row, hsame.length_eq.trans hlength, fun htrue => ⟨_, hdone htrue, hsame⟩, ?_, hcalls⟩
    rw [hrows, copied_eq _ hne, List.set_set]

theorem asked_saveRows {rs : List RowRef} {i : Nat} (hne : parent ∉ rs)
    (hbase : rows.getD parent [] = base) :
    Ensures h.listening (Overheard rows (Every (l.SaveCall base))) (l.saveRows parent rs i)
      (l.AskedToSave base rs rows) (fun _ s => Every (l.SaveCall base) (s.1.map (·.call))) := by
  induction rs generalizing rows i with
  | nil =>
    refine ensures_pure ?_
    intro w s hpre
    obtain ⟨rfl, hcalls⟩ := hpre
    exact ⟨by simp, fun _ _ => rfl, hcalls⟩
  | cons r rs ih =>
    obtain ⟨hr, hrs⟩ := not_or.mp fun hor => hne (List.mem_cons.mpr hor)
    unfold saveRows
    rw [← bind_assoc]
    refine (asked_saveRow hr hbase).bind fun done => ensures_exists fun row => ?_
    refine ensures_of fun hlen => ensures_of fun hsaved => ?_
    have hothers : ∀ o, o ≠ r → (rows.set r row).getD o [] = rows.getD o [] :=
      fun o ho => getD_set_of_ne _ ho ..
    cases done with
    | true =>
      refine (ih hrs ((hothers parent hr).trans hbase)).imp (fun _ _ => id) ?_ fun _ _ => id
      intro done w s hpre
      obtain ⟨hall, hrest, hcalls⟩ := hpre
      refine ⟨fun htrue => ?_, fun o ho => ?_, hcalls⟩
      · refine List.forall_mem_cons.mpr ⟨?_, hall htrue⟩
        by_cases hm : r ∈ rs
        · exact hall htrue r hm
        · rw [hrest r hm, getD_set_row hlen]
          exact hsaved rfl
      · obtain ⟨ho, hors⟩ := not_or.mp fun hor => ho (List.mem_cons.mpr hor)
        rw [hrest o hors, hothers o ho]
    | false =>
      refine (LinkedRecord.keeps_noteKeys unlogged_standing).imp (fun _ _ => id) ?_
        fun _ _ hpre => hpre.2
      intro done w s hpre
      obtain ⟨rfl, hrows, hcalls⟩ := hpre
      refine ⟨fun htrue => ?_, fun o ho => ?_, hcalls⟩
      · cases htrue
      · rw [Workspace.row, hrows]
        exact hothers o fun heq => ho (by simp [heq])

theorem asked_saveChecked {rs : List RowRef} (hne : parent ∉ rs)
    (hbase : rows.getD parent [] = base) :
    Ensures h.listening (Overheard rows (Every (l.SaveCall base))) (l.saveChecked parent rs)
      (l.AskedToSave base rs rows) (fun _ s => Every (l.SaveCall base) (s.1.map (·.call))) := by
  have hsaved := asked_saveRows (h := h) (l := l) (i := 0) hne hbase
  unfold saveChecked
  refine (ensures_check unlogged_standing fun _ _ hpre => hpre.2).bind fun ok =>
    ensures_of fun _ => ?_
  split
  · refine ensures_pure ?_
    intro w s hpre
    obtain ⟨rfl, hcalls⟩ := hpre
    exact ⟨nofun, fun _ _ => rfl, hcalls⟩
  · split
    · exact (ensures_note unlogged_standing).bind fun _ => hsaved
    · exact hsaved

/-- The child rows of a row are asked for, if it has all the places of the link. -/
theorem asked_childRows (hp : ∀ p ∈ l.parentFields, p.index < (rows.getD parent []).length) :
    Ensures h.listening (Overheard rows (· = [])) (l.childRows parent)
      (fun _ _ s => (s.1.map (·.call)).head? = some (l.readCall (rows.getD parent [])))
      (fun _ s => (s.1.map (·.call)).head? = some (l.readCall (rows.getD parent []))) := by
  unfold childRows
  refine (ensures_knownValues hp).bind fun values => ensures_of fun hvalues => ?_
  subst hvalues
  unfold readCall
  split
  · exact ensures_first
  · exact Ensures.bind ensures_first fun found => keeps_first _

/-- The child rows of a row are deleted by one call, if it has all the places of the link. -/
theorem asked_deleteRows {L M : List Call → Prop}
    (hL : ∀ calls, L calls → M (calls ++ [l.deleteCall (rows.getD parent [])])) :
    Ensures h.listening (Overheard rows L) (l.deleteRows parent) (fun _ => Overheard rows M)
      (fun w s => Overheard rows M w s ∨
        (∃ p ∈ l.parentFields, (rows.getD parent []).length ≤ p.index) ∧ Overheard rows L w s) := by
  unfold deleteRows
  refine (ensures_valuesFor.imp (fun _ _ => id) (fun _ _ _ => id) fun _ _ => Or.inr).bind
    fun values => ensures_of fun hvalues => ?_
  subst hvalues
  refine ((ensures_asked hL).imp (fun _ _ => id) (fun _ _ _ => id) fun _ _ => Or.inl).bind fun n => ?_
  exact ensures_note unlogged_standing

end Link

namespace LinkTree

variable {t : LinkTree} {parent : RowRef} {base : Row}

/-- Whatever is asked for to save child rows binds the parent row's values. -/
theorem asked_save {rs : List RowRef} (hne : parent ∉ rs) (hbase : rows.getD parent [] = base) :
    Ensures h.listening (Overheard rows (Every (t.link.SaveCall base))) (t.save parent rs)
      (t.link.AskedToSave base rs rows)
      (fun _ s => Every (t.link.SaveCall base) (s.1.map (·.call))) := by
  unfold save
  refine (LinkedRecord.ensures_checkLink (fun _ _ _ => ensures_note unlogged_standing) t "save").bind
    fun ok => ensures_of fun _ => ?_
  split
  · exact Link.asked_saveChecked hne hbase
  · refine ensures_pure ?_
    intro w s hpre
    obtain ⟨rfl, hcalls⟩ := hpre
    exact ⟨nofun, fun _ _ => rfl, hcalls⟩

/-- Reading begins with the call for the child rows. -/
theorem asked_read (hl : t.link.isLinked = true)
    (hp : ∀ p ∈ t.link.parentFields, p.index < (rows.getD parent []).length) :
    Ensures h.listening (Overheard rows (· = [])) (t.read parent)
      (fun _ _ s => (s.1.map (·.call)).head? = some (t.link.readCall (rows.getD parent [])))
      (fun _ s => (s.1.map (·.call)).head? = some (t.link.readCall (rows.getD parent []))) := by
  obtain ⟨l, below⟩ := t
  have hl : l.isLinked = true := hl
  rw [read, hl]
  refine (Link.asked_childRows hp).bind fun found => ?_
  exact keeps_first _

/-- The link has one call to make to delete child rows. -/
theorem asked_deleteAny {p : Call → Prop} (hp : p (t.link.deleteCall (rows.getD parent []))) :
    Keeps h.listening (Overheard rows (Every p)) (t.delete parent) := by
  unfold delete
  refine (LinkedRecord.ensures_checkLink (fun _ _ _ => ensures_note unlogged_standing) t "delete").bind
    fun ok => ensures_of fun _ => ?_
  split
  · exact ensures_pure fun _ _ => id
  · refine ((Link.asked_deleteRows (every_concat hp)).imp (fun _ _ => id) (fun _ _ _ => id) ?_).bind
      fun _ => ensures_pure fun _ _ => id
    exact fun w s hpre => hpre.elim id And.right

theorem asked_delete {L M : List Call → Prop} (ht : t.isWritable = true)
    (hp : ∀ p ∈ t.link.parentFields, p.index < (rows.getD parent []).length)
    (hL : ∀ calls, L calls → M (calls ++ [t.link.deleteCall (rows.getD parent [])])) :
    Ensures h.listening (Overheard rows L) (t.delete parent) (fun _ => Overheard rows M)
      (Overheard rows M) := by
  refine LinkedRecord.ensures_deleteLink unlogged_standing ht ?_
  refine (Link.asked_deleteRows hL).imp (fun _ _ => id) (fun _ _ _ => id) ?_
  intro w s hpre
  rcases hpre with hpre | ⟨⟨p, hm, hle⟩, -⟩
  · exact hpre
  · exact absurd (hp p hm) (Nat.not_lt.mpr hle)

section

variable {w : Workspace} {rs : List RowRef}

theorem saveCall_of_asked (hne : parent ∉ rs) (h : Handle σ) (s : σ) :
    ∀ call ∈ ((t.save parent rs).start w).asked h s, t.link.SaveCall (w.row parent) call := by
  have hsave := asked_save (h := h) (t := t) hne (rfl : w.rows.getD parent [] = _)
  exact hsave.asked (M := Every (t.link.SaveCall (w.row parent))) every_nil
    (fun _ _ _ hpost => hpost.2.2) (fun _ _ hpost => hpost) s

/-- If all child rows were saved, each holds the parent row's values. -/
theorem savedAs_of_run (hne : parent ∉ rs) {h : Handle σ} {s : σ} {w' : Workspace}
    (hrun : (((t.save parent rs).start w).run h s).1 = (.ok true, w')) :
    ∀ r ∈ rs, t.link.SavedAs (w.row parent) (w'.row r) := by
  have hend := asked_save (h := h) (t := t) hne (rfl : w.rows.getD parent [] = _) w ([], s)
    ⟨rfl, every_nil⟩
  rw [Task.run_listening, hrun] at hend
  exact hend.1 rfl

theorem readCall_of_asked (hl : t.link.isLinked = true)
    (hp : ∀ p ∈ t.link.parentFields, p.index < (w.row parent).length) (h : Handle σ) (s : σ) :
    (((t.read parent).start w).asked h s).head? = some (t.link.readCall (w.row parent)) :=
  (asked_read hl hp).asked (M := fun calls => calls.head? = some (t.link.readCall (w.row parent)))
    rfl (fun _ _ _ hpost => hpost) (fun _ _ hpost => hpost) s

theorem deleteCall_of_asked (ht : t.isWritable = true)
    (hp : ∀ p ∈ t.link.parentFields, p.index < (w.row parent).length) (h : Handle σ) (s : σ) :
    ((t.delete parent).start w).asked h s = [t.link.deleteCall (w.row parent)] := by
  have hcall (calls : List Call) (hnone : calls = []) :
      calls ++ [t.link.deleteCall (w.row parent)] = [t.link.deleteCall (w.row parent)] := by
    simp [hnone]
  exact (asked_delete (L := (· = [])) (M := (· = [t.link.deleteCall (w.row parent)])) ht hp hcall).asked
    (M := (· = [t.link.deleteCall (w.row parent)])) rfl (fun _ _ _ hpost => hpost.2)
    (fun _ _ hpost => hpost.2) s

end

end LinkTree

namespace LinkedRecord

/-- To delete a row with its children, a call is made for the child rows of some link, or for the
row itself. -/
theorem asked_delete {lr : LinkedRecord} {p : Call → Prop}
    (hchildren : ∀ t ∈ lr.links, p (t.link.deleteCall (rows.getD r [])))
    (hrow : p (lr.mapping.deleteCall (rows.getD r []))) :
    Keeps h.listening (Overheard rows (Every p)) (lr.delete r) := by
  unfold delete
  refine (ensures_checkWritable (fun _ _ _ => ensures_note unlogged_standing) "delete" lr.links).bind
    fun ok => ensures_of fun _ => ?_
  split
  · exact ensures_pure fun _ _ => id
  · refine Ensures.bind (Q := fun _ => Overheard rows (Every p)) (keeps_forM fun t ht => ?_) fun _ => ?_
    · exact (LinkTree.asked_deleteAny (hchildren t ht)).bind fun _ => ensures_pure fun _ _ => id
    · exact Mapping.asked_delete hrow

theorem deleteCall_of_asked (lr : LinkedRecord) (w : Workspace) (r : RowRef) (h : Handle σ) (s : σ) :
    ∀ call ∈ ((lr.delete r).start w).asked h s,
      (∃ t ∈ lr.links, call = t.link.deleteCall (w.row r)) ∨
        call = lr.mapping.deleteCall (w.row r) := by
  have hdelete : Keeps h.listening (Overheard w.rows (Every fun call =>
      (∃ t ∈ lr.links, call = t.link.deleteCall (w.row r)) ∨
        call = lr.mapping.deleteCall (w.row r))) (lr.delete r) :=
    asked_delete (fun t ht => .inl ⟨t, ht, rfl⟩) (.inr rfl)
  exact hdelete.asked (M := Every _) every_nil (fun _ _ _ hpost => hpost.2)
    (fun _ _ hpost => hpost.2) s

end LinkedRecord

end

end Tablewright
