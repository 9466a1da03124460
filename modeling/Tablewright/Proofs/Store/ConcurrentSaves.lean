import Tablewright.Proofs.Interleaving
import Tablewright.Proofs.Store.LostUpdates
import Tablewright.Proofs.Store.Saving

/-! Saves of one new key by many clients. A save is two calls, an update and then an insert if the
update took nothing, and calls of others may come between the two. -/

namespace Tablewright

open Work TableStore

/-- A task goes on with what the store replies to its call. -/
theorem Dialect.step_of_reply {α : Type} {d : Dialect} {s t : TableStore} {q : Call}
    {reply : Except Failure q.Reply} (h : d.reply s q = (reply, t)) (resume : Answer q → Task α) :
    (Task.ask q resume).step d.handle s = (resume ⟨reply, []⟩, t) := by
  show (resume ⟨(d.reply s q).1, []⟩, (d.reply s q).2) = _
  rw [h]

namespace Mapping

variable {m : Mapping} {d : Dialect} {w : Workspace} {r : RowRef} {s : TableStore}

/-! ## The calls of a save -/

/-- A row that fits its record is bound, and one call is made with what it binds. -/
theorem start_write {fields : List Field} {text : String}
    (hlength : (w.row r).length = m.schema.fields.length) :
    (do
      let values ← lift (m.bindRow fields (← row r))
      return 0 < (← write text values (types fields)) : Work Bool).start w =
      .ask (.write text (m.boundValues fields (w.row r)) (types fields)) fun a =>
        .done (a.outcome.map fun n : Int => decide (0 < n), w.noteAll a.log) := by
  have hbind : m.bindRow fields (w.row r) = .ok (m.boundValues fields (w.row r)) := if_pos hlength
  rw [start_bind]
  show (lift (m.bindRow fields (w.row r)) >>= _ : Work Bool).start w = _
  rw [hbind]
  refine congrArg (Task.ask _) (funext fun a => ?_)
  obtain ⟨outcome, log⟩ := a
  cases outcome <;> rfl

theorem start_insert (hk : m.hasKeys = true) (hg : m.schema.generatedKey = none)
    (hlength : (w.row r).length = m.schema.fields.length) :
    (m.insert r).start w = .ask (.write m.insertStatement.toText
      (m.boundValues m.insertBound (w.row r)) (types m.insertBound)) fun a =>
        .done (a.outcome.map fun n : Int => decide (0 < n), w.noteAll a.log) := by
  unfold insert
  rw [hk, Bool.not_true, if_neg Bool.false_ne_true, hg]
  exact start_write hlength

theorem start_update (hc : m.canUpdate = true)
    (hlength : (w.row r).length = m.schema.fields.length) :
    (m.update r).start w = .ask (.write m.updateStatement.toText
      (m.boundValues m.updateBound (w.row r)) (types m.updateBound)) fun a =>
        .done (a.outcome.map fun n : Int => decide (0 < n), w.noteAll a.log) := by
  unfold update
  rw [hc, Bool.not_true, if_neg Bool.false_ne_true]
  exact start_write hlength

theorem hasKeys_of_canUpdate (hc : m.canUpdate = true) : m.hasKeys = true :=
  (Bool.and_eq_true_iff.mp hc).1

/-- How a save goes on after its update. -/
def afterUpdate (m : Mapping) (r : RowRef) :
    Except Failure Bool × Workspace → Task (Except Failure Bool × Workspace)
  | (.ok true, w) => .done (.ok true, w)
  | (.ok false, w) => (m.insert r).start w
  | (.error e, w) => .done (.error e, w)

/-- A save is an update, and an insert if the update took nothing. -/
theorem start_save (hc : m.canUpdate = true) :
    (m.save r).start w = ((m.update r).start w).bind (m.afterUpdate r) := by
  unfold save
  rw [hasKeys_of_canUpdate hc, hc, Bool.not_true, if_neg Bool.false_ne_true, if_pos rfl]
  dsimp only
  rw [start_bind]
  refine congrArg (Task.bind _) (funext fun a => ?_)
  obtain ⟨outcome, w'⟩ := a
  cases outcome with
  | error e => rfl
  | ok done => cases done <;> rfl

theorem within_afterUpdate (hk : m.hasKeys = true) (hg : m.schema.generatedKey = none)
    (hlength : (w.row r).length = m.schema.fields.length) (result : Except Failure Bool) :
    Task.Within 1 (m.afterUpdate r (result, w)) := by
  cases result with
  | error e => exact .done
  | ok done =>
    cases done with
    | true => exact .done
    | false =>
      show Task.Within 1 ((m.insert r).start w)
      rw [start_insert hk hg hlength]
      exact .ask fun _ => .done

/-- A save is done after two calls at the most. -/
theorem within_save (hc : m.canUpdate = true) (hg : m.schema.generatedKey = none)
    (hlength : (w.row r).length = m.schema.fields.length) : Task.Within 2 ((m.save r).start w) := by
  rw [start_save hc, start_update hc hlength]
  exact .ask fun a =>
    within_afterUpdate (w := w.noteAll a.log) (hasKeys_of_canUpdate hc) hg hlength _

/-! ## Updates of a new key -/

variable {row : Row}

/-- A row of another identity is no version of a row. -/
theorem not_version_of_fresh {rows : List StoredRow}
    (hfresh : ∀ stored ∈ rows, stored.agrees (m.identity row) = false) :
    ∀ stored ∈ rows, stored.agrees (m.version row) = false := by
  intro stored hm
  refine Bool.eq_false_of_not_eq_true fun hversion => ?_
  have hnot := hfresh stored hm
  rw [agrees_of_version hversion] at hnot
  cases hnot

/-- An update whose version is not stored takes nothing. -/
theorem updated_of_none (hnone : ∀ stored ∈ m.rowsIn s, stored.agrees (m.version row) = false) :
    ¬ 0 < (m.updated row s).1 ∧ m.rowsIn (m.updated row s).2 = m.rowsIn s := by
  have hfilter : (m.rowsIn s).filter (·.agrees (m.version row)) = [] :=
    List.filter_eq_nil_iff.mpr fun stored hm => ne_true_of_eq_false (hnone stored hm)
  constructor
  · rw [updated_count, hfilter]
    exact Nat.lt_irrefl 0
  · rw [rowsIn_updated, updateRows_of_none hnone]

/-- An update whose version is only that of the last row writes over this row. -/
theorem updated_of_last {rows : List StoredRow} {x : StoredRow} (hrows : m.rowsIn s = rows ++ [x])
    (hnone : ∀ stored ∈ rows, stored.agrees (m.version row) = false)
    (hversion : x.agrees (m.version row) = true) : 0 < (m.updated row s).1 ∧
      m.rowsIn (m.updated row s).2 = rows ++ [m.updatedRow row s s.ticks x] := by
  constructor
  · have hx : x ∈ m.rowsIn s := hrows ▸ List.mem_append_right _ (List.mem_singleton_self x)
    exact List.length_pos_of_mem (List.mem_filter.mpr ⟨hx, hversion⟩)
  · rw [rowsIn_updated, hrows, updateRows_append_of_none hnone, updateRows, if_pos hversion]
    rfl

end Mapping

/-- Somebody who saves a row of a workspace of their own. -/
structure Saver where
  desk : Workspace
  ref : RowRef

namespace Saver

variable {m : Mapping} {d : Dialect} {c : Saver} {s : TableStore}

def row (c : Saver) : Row := c.desk.row c.ref

/-- All that a saver does. -/
def save (c : Saver) (m : Mapping) : Task (Except Failure Bool × Workspace) :=
  (m.save c.ref).start c.desk

/-- What is left after an update that took nothing. -/
def insert (c : Saver) (m : Mapping) : Task (Except Failure Bool × Workspace) :=
  (m.insert c.ref).start c.desk

theorem isDone_save (hc : m.canUpdate = true) (hlength : c.row.length = m.schema.fields.length) :
    (c.save m).isDone = false := by
  rw [save, Mapping.start_save hc, Mapping.start_update hc hlength]
  rfl

theorem isDone_insert (hk : m.hasKeys = true) (hg : m.schema.generatedKey = none)
    (hlength : c.row.length = m.schema.fields.length) : (c.insert m).isDone = false := by
  rw [insert, Mapping.start_insert hk hg hlength]
  rfl

variable [d.Knows m.statements]

/-- The turn in which a saver asks for the update. -/
theorem step_save (hc : m.canUpdate = true) (hlength : c.row.length = m.schema.fields.length) :
    (c.save m).step d.handle s =
      (if 0 < (m.updated c.row s).1 then .done (.ok true, c.desk) else c.insert m,
        (m.updated c.row s).2) := by
  have hknown : m.updateStatement ∈ m.statements := by simp [Mapping.statements]
  rw [save, Mapping.start_save hc, Mapping.start_update hc hlength, Task.bind]
  refine (Dialect.step_of_reply (Mapping.reply_write hknown (Mapping.perform_update hc)) _).trans ?_
  refine Prod.ext ?_ rfl
  show m.afterUpdate c.ref (.ok (decide (0 < ((m.updated c.row s).1 : Int))), c.desk) = _
  by_cases hpos : 0 < (m.updated c.row s).1
  · rw [if_pos hpos, decide_eq_true (Int.natCast_pos.mpr hpos)]
    rfl
  · rw [if_neg hpos, decide_eq_false fun h => hpos (Int.natCast_pos.mp h)]
    rfl

/-- The turn in which a saver asks for the insert. -/
theorem step_insert (hk : m.hasKeys = true) (hg : m.schema.generatedKey = none)
    (hlength : c.row.length = m.schema.fields.length) :
    (c.insert m).step d.handle s =
      (.done ((m.inserted c.row s).1.map fun _ => true, c.desk), (m.inserted c.row s).2) := by
  have hknown : m.insertStatement ∈ m.statements := by simp [Mapping.statements]
  have hperform := Mapping.perform_insert m c.row s
  rw [hg] at hperform
  rw [insert, Mapping.start_insert hk hg hlength]
  refine (Dialect.step_of_reply (Mapping.reply_write hknown hperform) _).trans ?_
  cases (m.inserted c.row s).1 <;> rfl

end Saver

namespace Mapping

/-- The savers have rows for one and the same key and tenant, and no row of these is stored yet. -/
structure OneNewKey (m : Mapping) (savers : List Saver) (s : TableStore) : Prop where
  fits : ∀ c ∈ savers, c.row.length = m.schema.fields.length
  same : ∀ c ∈ savers, ∀ c' ∈ savers, ∀ f ∈ m.whereFields,
    (m.boundValue f c.row).same (m.boundValue f c'.row) = true
  fresh : ∀ c ∈ savers, ∀ stored ∈ m.rowsIn s, stored.agrees (m.identity c.row) = false

/-- How far a saver has got, and how the save ended: well, or with the store's refusal of a second
row. It can end only if the row is stored. -/
inductive Stands (m : Mapping) (c : Saver) (stored : Prop) :
    Task (Except Failure Bool × Workspace) → Prop
  | begun : m.Stands c stored (c.save m)
  | missed : m.Stands c stored (c.insert m)
  | saved : stored → m.Stands c stored (.done (.ok true, c.desk))
  | refused : stored →
      m.Stands c stored (.done (.error (.database ("duplicate key in " ++ m.table)), c.desk))

/-- The tasks are those of the savers, each at some point of its save. -/
structure AllStand (m : Mapping) (savers : List Saver) (stored : Prop)
    (tasks : List (Task (Except Failure Bool × Workspace))) : Prop where
  length : tasks.length = savers.length
  stands : ∀ (i : Nat) (c : Saver) (t : Task (Except Failure Bool × Workspace)),
    savers[i]? = some c → tasks[i]? = some t → m.Stands c stored t

/-- All savers before their first turn, at a store. -/
def saves (m : Mapping) (savers : List Saver) (s : TableStore) :
    Crowd (Except Failure Bool × Workspace) TableStore where
  tasks := savers.map (·.save m)
  state := s

/-- A turn that changed the rows of the table. -/
def Alters (m : Mapping) (e : TaskTurn TableStore) : Prop := m.rowsIn e.before ≠ m.rowsIn e.after

/-- The last turn that changed the rows of the table was one of this saver. -/
def LastAltered (m : Mapping) (savers : List Saver) (turns : List (TaskTurn TableStore))
    (c : Saver) : Prop :=
  ∃ earlier e later, turns = earlier ++ e :: later ∧ m.Alters e ∧ (∀ e' ∈ later, ¬ m.Alters e') ∧
    savers[e.place]? = some c

/-- The columns that updates set hold what a row binds for them. -/
def HoldsChanges (m : Mapping) (x : StoredRow) (row : Row) : Prop :=
  ∀ f ∈ setFields m.schema, x.column f.columnName = m.boundValue f row

/-- What there is before the first turn: a store that has no row of the key yet and refuses a second
one, and savers whose rows can be updated and have keys of their own. -/
structure Contest (m : Mapping) (savers : List Saver) (s : TableStore) : Prop where
  keyed : m.Keyed
  updatable : m.canUpdate = true
  own : m.schema.generatedKey = none
  key : (s.table m.table).key = columns m.whereFields
  one : m.OneNewKey savers s

/-- Savers and store as long as nobody has saved. -/
structure Unsaved (m : Mapping) (savers : List Saver) (s : TableStore)
    (p : Crowd (Except Failure Bool × Workspace) TableStore) : Prop where
  key : (p.state.table m.table).key = columns m.whereFields
  rows : m.rowsIn p.state = m.rowsIn s
  tasks : m.AllStand savers False p.tasks

/-- Savers and store from the first save on. There is one more row; the saver who changed it last is
named. -/
structure Saved (m : Mapping) (savers : List Saver) (s : TableStore)
    (p : Crowd (Except Failure Bool × Workspace) TableStore) (x : StoredRow) (c : Saver) :
    Prop where
  key : (p.state.table m.table).key = columns m.whereFields
  rows : m.rowsIn p.state = m.rowsIn s ++ [x]
  found : ∀ c ∈ savers, x.agrees (m.identity c.row) = true
  tasks : m.AllStand savers True p.tasks
  done : ∃ (i : Nat) (c : Saver),
    savers[i]? = some c ∧ p.tasks[i]? = some (.done (.ok true, c.desk))
  last : m.LastAltered savers p.turns c
  holds : m.HoldsChanges x c.row

section

variable {m : Mapping} {d : Dialect} {s : TableStore} {savers : List Saver} {c : Saver}
  {x : StoredRow} {stored : Prop} {i : Nat} {t : Task (Except Failure Bool × Workspace)}
  {tasks : List (Task (Except Failure Bool × Workspace))}
  {p : Crowd (Except Failure Bool × Workspace) TableStore}

theorem AllStand.saver (h : m.AllStand savers stored tasks) (ht : tasks[i]? = some t) :
    ∃ c, savers[i]? = some c ∧ m.Stands c stored t := by
  have hi : i < savers.length := h.length ▸ (List.getElem?_eq_some_iff.mp ht).1
  exact ⟨_, List.getElem?_eq_getElem hi, h.stands i _ t (List.getElem?_eq_getElem hi) ht⟩

theorem AllStand.task (h : m.AllStand savers stored tasks) (hc : savers[i]? = some c) :
    ∃ t, tasks[i]? = some t ∧ m.Stands c stored t := by
  have hi : i < tasks.length := h.length ▸ (List.getElem?_eq_some_iff.mp hc).1
  exact ⟨_, List.getElem?_eq_getElem hi, h.stands i c _ hc (List.getElem?_eq_getElem hi)⟩

theorem AllStand.set (h : m.AllStand savers stored tasks) {later : Prop} (hlater : stored → later)
    (hc : savers[i]? = some c) (ht : m.Stands c later t) :
    m.AllStand savers later (tasks.set i t) := by
  refine ⟨List.length_set.trans h.length, fun j c' t' hc' ht' => ?_⟩
  by_cases hij : i = j
  · subst hij
    have hi : i < tasks.length := h.length ▸ (List.getElem?_eq_some_iff.mp hc).1
    rw [List.getElem?_set_self hi] at ht'
    obtain rfl := Option.some.inj ht'
    obtain rfl := Option.some.inj (hc.symm.trans hc')
    exact ht
  · rw [List.getElem?_set_ne hij] at ht'
    cases h.stands j c' t' hc' ht' with
    | begun => exact .begun
    | missed => exact .missed
    | saved hstored => exact .saved (hlater hstored)
    | refused hstored => exact .refused (hlater hstored)

theorem LastAltered.later (h : m.LastAltered savers p.turns c) {e : TaskTurn TableStore}
    (he : ¬ m.Alters e) : m.LastAltered savers (p.turns ++ [e]) c := by
  obtain ⟨earlier, last, later, hturns, halters, hlater, hc⟩ := h
  refine ⟨earlier, last, later ++ [e], ?_, halters, ?_, hc⟩
  · rw [hturns, List.append_assoc, List.cons_append]
  · exact List.forall_mem_append.mpr ⟨hlater, List.forall_mem_singleton.mpr he⟩

theorem LastAltered.of_alters {e : TaskTurn TableStore} (he : m.Alters e)
    (hc : savers[e.place]? = some c) (turns : List (TaskTurn TableStore)) :
    m.LastAltered savers (turns ++ [e]) c :=
  ⟨turns, e, [], rfl, he, List.forall_mem_nil _, hc⟩

/-- The row is one after a turn as well, if the turn does no more than to write over it. -/
theorem Saved.turned {h : Handle TableStore} (hp : m.Saved savers s p x c)
    (ht : p.tasks[i]? = some t) {b c' : Saver} {t' : Task (Except Failure Bool × Workspace)}
    {s' : TableStore} {x' : StoredRow} (hb : savers[i]? = some b)
    (hstep : t.step h p.state = (t', s')) (hstands : m.Stands b True t')
    (hkey : (s'.table m.table).key = columns m.whereFields)
    (hrows : m.rowsIn s' = m.rowsIn s ++ [x'])
    (hfound : ∀ c ∈ savers, x'.agrees (m.identity c.row) = true)
    (hlast : m.LastAltered savers (p.turns ++ [⟨i, p.state, s'⟩]) c')
    (hholds : m.HoldsChanges x' c'.row) : m.Saved savers s (p.turn h i) x' c' := by
  obtain ⟨j, a, ha, hdone⟩ := hp.done
  have hstays := Crowd.turn_of_done (h := h) hdone i
  rw [Crowd.turn_of_step ht hstep] at hstays ⊢
  exact ⟨hkey, hrows, hfound, hp.tasks.set id hb hstands, ⟨j, a, ha, hstays⟩, hlast, hholds⟩

/-- A turn that leaves the rows as they are changes nothing. -/
theorem Saved.kept {h : Handle TableStore} (hp : m.Saved savers s p x c)
    (ht : p.tasks[i]? = some t) {b : Saver} {t' : Task (Except Failure Bool × Workspace)}
    {s' : TableStore} (hb : savers[i]? = some b) (hstep : t.step h p.state = (t', s'))
    (hstands : m.Stands b True t') (hkey : (s'.table m.table).key = columns m.whereFields)
    (hrows : m.rowsIn s' = m.rowsIn p.state) : m.Saved savers s (p.turn h i) x c :=
  hp.turned ht hb hstep hstands hkey (hrows.trans hp.rows) hp.found
    (hp.last.later fun halters => halters hrows.symm) hp.holds

namespace Contest

variable (h : m.Contest savers s)
include h

/-- A row that was inserted by one saver is found by all. -/
theorem found_of_inserted (hc : c ∈ savers) (t : TableStore) :
    ∀ c' ∈ savers, (m.insertedRow c.row t).agrees (m.identity c'.row) = true := by
  intro c' hc'
  rw [StoredRow.agrees, identity, zip_boundValues, List.all_map, List.all_eq_true]
  intro f hf
  show ((m.insertedRow c.row t).column f.columnName).same (m.boundValue f c'.row) = true
  rw [h.keyed.column_inserted (h.keyed.whereFields_bound h.own hf)]
  exact h.one.same c hc c' hc' f hf

variable [d.Knows m.statements]

/-- A turn while nobody has saved. An update takes no row, and the first insert is a save. -/
theorem turn_unsaved (hp : m.Unsaved savers s p) (ht : p.tasks[i]? = some t) :
    m.Unsaved savers s (p.turn d.handle i) ∨
      ∃ x c, m.Saved savers s (p.turn d.handle i) x c := by
  obtain ⟨c, hc, hstands⟩ := hp.tasks.saver ht
  have hmem := List.mem_of_getElem? hc
  have hfresh : ∀ stored ∈ m.rowsIn p.state, stored.agrees (m.identity c.row) = false :=
    hp.rows ▸ h.one.fresh c hmem
  cases hstands with
  | begun =>
    obtain ⟨hcount, hrows⟩ := updated_of_none (not_version_of_fresh hfresh)
    have hstep := c.step_save (d := d) (s := p.state) h.updatable (h.one.fits c hmem)
    rw [if_neg hcount] at hstep
    rw [Crowd.turn_of_step ht hstep]
    exact .inl ⟨(key_of_writes (.updated _)).trans hp.key, hrows.trans hp.rows,
      hp.tasks.set id hc .missed⟩
  | missed =>
    have hroom := h.keyed.fresh_of_unstored h.own hp.key hfresh
    have hrows : m.rowsIn (m.inserted c.row p.state).2 =
        m.rowsIn s ++ [m.insertedRow c.row p.state] := by
      rw [rowsIn_inserted, if_neg (ne_true_of_eq_false hroom), hp.rows]
    have hkey : ((m.inserted c.row p.state).2.table m.table).key = columns m.whereFields :=
      (key_of_writes (.inserted _)).trans hp.key
    have hstep := c.step_insert (d := d) (s := p.state) h.keyed.keys h.own (h.one.fits c hmem)
    have hanswer : (m.inserted c.row p.state).1.map (fun _ => true) = .ok true := by
      rw [inserted_of_fresh hroom]
      rfl
    rw [hanswer] at hstep
    rw [Crowd.turn_of_step ht hstep]
    have hi : i < p.tasks.length := (List.getElem?_eq_some_iff.mp ht).1
    refine .inr ⟨m.insertedRow c.row p.state, c, hkey, hrows, h.found_of_inserted hmem _,
      hp.tasks.set False.elim hc (.saved trivial), ⟨i, c, hc, List.getElem?_set_self hi⟩,
      .of_alters ?_ hc _, ?_⟩
    · show m.rowsIn p.state ≠ m.rowsIn (m.inserted c.row p.state).2
      rw [hrows, hp.rows]
      simp
    · exact fun f hf => h.keyed.column_inserted (h.keyed.mem_insertBound_of_set hf) _ _
  | saved hsaved | refused hsaved => exact hsaved.elim

/-- A turn after the first save. Updates may take the one row, and inserts are refused. -/
theorem turn_saved (hp : m.Saved savers s p x c) (ht : p.tasks[i]? = some t) :
    ∃ x' c', m.Saved savers s (p.turn d.handle i) x' c' := by
  obtain ⟨b, hb, hstands⟩ := hp.tasks.saver ht
  have hmem := List.mem_of_getElem? hb
  have hx : x ∈ m.rowsIn p.state := hp.rows ▸ List.mem_append_right _ (List.mem_singleton_self x)
  cases hstands with
  | begun =>
    have hnone := not_version_of_fresh (h.one.fresh b hmem)
    have hkey := (key_of_writes (.updated b.row)).trans hp.key
    have hstep := b.step_save (d := d) (s := p.state) h.updatable (h.one.fits b hmem)
    cases hversion : x.agrees (m.version b.row) with
    | true =>
      obtain ⟨hcount, hrows⟩ := updated_of_last hp.rows hnone hversion
      rw [if_pos hcount] at hstep
      by_cases hsame : m.rowsIn p.state = m.rowsIn (m.updated b.row p.state).2
      · exact ⟨x, c, hp.kept ht hb hstep (.saved trivial) hkey hsame.symm⟩
      · refine ⟨_, b, hp.turned ht hb hstep (.saved trivial) hkey hrows ?_
          (.of_alters (e := ⟨i, p.state, _⟩) hsame hb _) ?_⟩
        · exact fun c' hc' => (h.keyed.agrees_updatedRow ..).trans (hp.found c' hc')
        · exact fun f hf => h.keyed.column_changed hf ..
    | false =>
      have hnone' : ∀ stored ∈ m.rowsIn p.state, stored.agrees (m.version b.row) = false := by
        rw [hp.rows]
        exact List.forall_mem_append.mpr ⟨hnone, List.forall_mem_singleton.mpr hversion⟩
      obtain ⟨hcount, hrows⟩ := updated_of_none hnone'
      rw [if_neg hcount] at hstep
      exact ⟨x, c, hp.kept ht hb hstep .missed hkey hrows⟩
  | missed =>
    have hclash := h.keyed.clashes_of_stored h.own hp.key hx (hp.found b hmem)
    have hstep := b.step_insert (d := d) (s := p.state) h.keyed.keys h.own (h.one.fits b hmem)
    rw [inserted_of_clash hclash] at hstep
    exact ⟨x, c, hp.kept ht hb hstep (.refused trivial) hp.key rfl⟩
  | saved => exact ⟨x, c, hp.kept ht hb rfl (.saved trivial) hp.key rfl⟩
  | refused => exact ⟨x, c, hp.kept ht hb rfl (.refused trivial) hp.key rfl⟩

theorem unsaved_start : m.Unsaved savers s (m.saves savers s) := by
  refine ⟨h.key, rfl, List.length_map _, fun i c t hc ht => ?_⟩
  rw [saves, List.getElem?_map, hc] at ht
  obtain rfl := Option.some.inj ht
  exact .begun

/-- Whatever the order of the turns is, nobody has saved yet or there is the one row. -/
theorem play (schedule : List Nat) :
    m.Unsaved savers s ((m.saves savers s).play d.handle schedule) ∨
      ∃ x c, m.Saved savers s ((m.saves savers s).play d.handle schedule) x c := by
  refine Crowd.play_induction (P := fun p => m.Unsaved savers s p ∨ ∃ x c, m.Saved savers s p x c)
    (.inl h.unsaved_start) (fun p i t hp ht => ?_) schedule
  rcases hp with hp | ⟨x, c, hp⟩
  · exact h.turn_unsaved hp ht
  · exact .inr (h.turn_saved hp ht)

omit [d.Knows m.statements] in
/-- A saver who has come to an end has saved, or was refused. -/
theorem ended (htasks : m.AllStand savers stored p.tasks) (hend : p.isFinished = true)
    (hc : savers[i]? = some c) :
    stored ∧ (p.tasks[i]? = some (.done (.ok true, c.desk)) ∨ p.tasks[i]? =
      some (.done (.error (.database ("duplicate key in " ++ m.table)), c.desk))) := by
  have hfits := h.one.fits c (List.mem_of_getElem? hc)
  obtain ⟨t, ht, hstands⟩ := htasks.task hc
  have hdone : t.isDone = true := List.all_eq_true.mp hend t (List.mem_of_getElem? ht)
  cases hstands with
  | begun =>
    rw [c.isDone_save h.updatable hfits] at hdone
    cases hdone
  | missed =>
    rw [c.isDone_insert h.keyed.keys h.own hfits] at hdone
    cases hdone
  | saved hstored => exact ⟨hstored, .inl ht⟩
  | refused hstored => exact ⟨hstored, .inr ht⟩

end Contest

end

/-- Saves of one new key by several savers, in turns of any order. Once all of them have come to an
end, exactly one row of the key is stored, beside the rows from before. One saver at least has
saved, every other one has saved too or was refused as a second row, and the columns that updates
set hold what the saver who changed the row last has bound for them. -/
theorem concurrent_saves {m : Mapping} (hs : m.schema.Valid) (hc : m.canUpdate = true)
    (hg : m.schema.generatedKey = none) (hn : (columns m.selectFields).Nodup) (d : Dialect)
    [d.Knows m.statements] {savers : List Saver} {s : TableStore} (hne : savers ≠ [])
    (hkey : (s.table m.table).key = columns m.whereFields) (hone : m.OneNewKey savers s)
    {schedule : List Nat} {p : Crowd (Except Failure Bool × Workspace) TableStore}
    (hplay : (m.saves savers s).play d.handle schedule = p) (hend : p.isFinished = true) :
    ∃ x, m.rowsIn p.state = m.rowsIn s ++ [x] ∧
      (∀ c ∈ savers, (m.rowsIn p.state).filter (·.agrees (m.identity c.row)) = [x]) ∧
      (∃ (i : Nat) (c : Saver),
        savers[i]? = some c ∧ p.tasks[i]? = some (.done (.ok true, c.desk))) ∧
      (∀ (i : Nat) (c : Saver), savers[i]? = some c →
        p.tasks[i]? = some (.done (.ok true, c.desk)) ∨ p.tasks[i]? =
          some (.done (.error (.database ("duplicate key in " ++ m.table)), c.desk))) ∧
      ∃ c, m.LastAltered savers p.turns c ∧ m.HoldsChanges x c.row := by
  have h : m.Contest savers s := ⟨⟨hs.sound, hasKeys_of_canUpdate hc, hn⟩, hc, hg, hkey, hone⟩
  have hstate := h.play (d := d) schedule
  rw [hplay] at hstate
  rcases hstate with hp | ⟨x, c, hp⟩
  · -- Somebody has come to an end, which cannot be without a row of the key.
    obtain ⟨b, hb⟩ := List.exists_mem_of_ne_nil savers hne
    obtain ⟨i, hi⟩ := List.getElem?_of_mem hb
    exact (h.ended hp.tasks hend hi).1.elim
  · refine ⟨x, hp.rows, fun b hb => ?_, hp.done, fun i b hi => (h.ended hp.tasks hend hi).2,
      c, hp.last, hp.holds⟩
    have hnone : (m.rowsIn s).filter (·.agrees (m.identity b.row)) = [] :=
      List.filter_eq_nil_iff.mpr fun stored hm => ne_true_of_eq_false (hone.fresh b hb stored hm)
    rw [hp.rows, List.filter_append, hnone, List.nil_append]
    exact List.filter_eq_self.mpr (List.forall_mem_singleton.mpr (hp.found b hb))

/-- All savers come to an end if each of them has two turns. -/
theorem saves_finish {m : Mapping} (hc : m.canUpdate = true) (hg : m.schema.generatedKey = none)
    {savers : List Saver} (hfits : ∀ c ∈ savers, c.row.length = m.schema.fields.length)
    (d : Dialect) (s : TableStore) {schedule : List Nat}
    (hturns : ∀ i < savers.length, 2 ≤ schedule.count i) :
    ((m.saves savers s).play d.handle schedule).isFinished = true := by
  refine Crowd.isFinished_of_within fun i t ht => ?_
  rw [saves, List.getElem?_map, Option.map_eq_some_iff] at ht
  obtain ⟨c, hi, rfl⟩ := ht
  refine Task.Within.mono (within_save hc hg (hfits c (List.mem_of_getElem? hi))) ?_
  exact hturns i (List.getElem?_eq_some_iff.mp hi).1

/-! ## Two savers of a voucher -/

/-- Two clients at desks of their own, each with a row for the voucher that is not stored yet. -/
def voucherSavers : List Saver :=
  [⟨{ rows := [[.int 2, .null, .null, .int 6]] }, 0⟩,
    ⟨{ rows := [[.int 2, .null, .null, .int 7]] }, 0⟩]

theorem voucherSavers_alike : vouchers.OneNewKey voucherSavers voucherStore := by
  refine ⟨?_, ?_, ?_⟩ <;> decide +kernel

/-- Both look for the voucher before one of them has made it: there is one voucher in the end, with
the total of the saver who made it. -/
theorem concurrent_saves_voucher : ∃ p, (vouchers.saves voucherSavers voucherStore).play
      (Dialect.reference vouchers.statements .ascii fun _ => none).handle [0, 1, 0, 1] = p ∧
    p.isFinished = true ∧ ∃ x, vouchers.rowsIn p.state = vouchers.rowsIn voucherStore ++ [x] ∧
      ∃ c, vouchers.LastAltered voucherSavers p.turns c ∧ vouchers.HoldsChanges x c.row := by
  have hend := saves_finish (by decide +kernel) (by decide +kernel) voucherSavers_alike.fits
    (Dialect.reference vouchers.statements .ascii fun _ => none) voucherStore
    (show ∀ i < voucherSavers.length, 2 ≤ [0, 1, 0, 1].count i by decide)
  obtain ⟨x, hrows, -, -, -, hlast⟩ := concurrent_saves vouchers_valid (by decide +kernel)
    (by decide +kernel) vouchers_keyed.names _ (by decide) (by decide +kernel) voucherSavers_alike
    rfl hend
  exact ⟨_, rfl, hend, x, hrows, hlast⟩

end Mapping

end Tablewright
