import Tablewright.Proofs.Store.Taken

/-! Updates by many clients. Each client works on a row of its own, and their calls come in
any order. An update takes a stored row only with the stamp that an earlier read has left in
the client's row. Such a row is the one that was read, and nobody has written it since. -/

namespace Tablewright

open Work TableStore

/-- What a client does with its row, or with several rows at once. -/
inductive ClientCall where
  | edit (r : RowRef) (place : Nat) (v : Value)
  | read (r : RowRef)
  | insert (r : RowRef)
  | update (r : RowRef)
  | updateAll (rs : List RowRef)
  | delete (r : RowRef)
  deriving Repr

/-- One call of a history: the rows and the store that it met, its result, and the rows and
the store that it left. -/
structure Turn where
  call : ClientCall
  before : Workspace
  store : TableStore
  result : Except Failure Bool
  after : Workspace
  left : TableStore

namespace ClientCall

def work (m : Mapping) : ClientCall → Work Bool
  | edit r place v => do
    Work.setAt r place v
    return true
  | read r => m.read r
  | insert r => m.insert r
  | update r => m.update r
  | updateAll rs => m.updateAll rs
  | delete r => m.delete r

/-- The rows that a call updates. -/
def updates : ClientCall → List RowRef
  | update r => [r]
  | updateAll rs => rs
  | _ => []

/-- Calls one after the other, on the rows and the store that the ones before have left. -/
def turns (m : Mapping) (h : Handle TableStore) :
    List ClientCall → Workspace → TableStore → List Turn
  | [], _, _ => []
  | c :: calls, w, s =>
    let ((result, after), left) := ((c.work m).start w).run h s
    ⟨c, w, s, result, after, left⟩ :: turns m h calls after left

variable {m : Mapping} {h : Handle TableStore} {calls : List ClientCall} {w : Workspace}
  {s : TableStore} {k : Nat} {e : Turn}

/-- Every turn is the run of its call. -/
theorem run_of_turn (he : (turns m h calls w s)[k]? = some e) :
    calls[k]? = some e.call ∧
      ((e.call.work m).start e.before).run h e.store = ((e.result, e.after), e.left) := by
  induction calls generalizing w s k with
  | nil => cases he
  | cons c calls ih =>
    cases k with
    | zero =>
      obtain rfl := Option.some.inj he
      exact ⟨rfl, rfl⟩
    | succ k => exact ih he

/-- The first turn meets what is there at the start. -/
theorem start_of_turn (he : (turns m h calls w s)[0]? = some e) : e.before = w ∧ e.store = s := by
  cases calls with
  | nil => cases he
  | cons c calls =>
    obtain rfl := Option.some.inj he
    exact ⟨rfl, rfl⟩

/-- Every other turn meets what the turn before it has left. -/
theorem turn_before (he : (turns m h calls w s)[k + 1]? = some e) :
    ∃ d, (turns m h calls w s)[k]? = some d ∧ e.before = d.after ∧ e.store = d.left := by
  induction calls generalizing w s k with
  | nil => cases he
  | cons c calls ih =>
    cases k with
    | zero => exact ⟨_, rfl, start_of_turn he⟩
    | succ k => exact ih he

/-- What holds at the start and is kept by every turn holds of all that a turn meets. -/
theorem turn_induction {P : Nat → Workspace → TableStore → Prop} (hstart : P 0 w s)
    (hstep : ∀ k e, (turns m h calls w s)[k]? = some e → P k e.before e.store →
      P (k + 1) e.after e.left) :
    ∀ k e, (turns m h calls w s)[k]? = some e → P k e.before e.store := by
  intro k
  induction k with
  | zero =>
    intro e he
    obtain ⟨hbefore, hstore⟩ := start_of_turn he
    rwa [hbefore, hstore]
  | succ k ih =>
    intro e he
    obtain ⟨d, hd, hbefore, hstore⟩ := turn_before he
    rw [hbefore, hstore]
    exact hstep k d hd (ih d hd)

end ClientCall

namespace Mapping

variable {m : Mapping} {u : Casing} {reads : String → Option Sql.Query}

/-- A client's read that finds a stored row, whether or not all its columns can be copied. -/
structure Finds (m : Mapping) (e : Turn) (r : RowRef) (stored : StoredRow) : Prop where
  call : e.call = .read r
  length : (e.before.row r).length = m.schema.fields.length
  found : m.stored? (e.before.row r) e.store = some stored

/-- A client's update that succeeds, and a stored row that it takes. -/
structure Updates (m : Mapping) (e : Turn) (r : RowRef) (stored : StoredRow) : Prop where
  call : r ∈ e.call.updates
  done : e.result = .ok true
  mem : stored ∈ m.rowsIn e.store
  version : stored.agrees (m.version (e.before.row r)) = true

theorem Finds.mem {e : Turn} {r : RowRef} {stored : StoredRow} (h : m.Finds e r stored) :
    stored ∈ m.rowsIn e.store ∧ stored.agrees (m.identity (e.before.row r)) = true := by
  have hfound : (m.rowsIn e.store).find? (·.agrees (m.identity (e.before.row r))) = some stored :=
    h.found
  have hagrees := List.find?_some hfound
  exact ⟨List.mem_of_find?_eq_some hfound, hagrees⟩

section

variable {e : Turn} {f : Field}

theorem ensures_edit {rows : List Row} {h : Handle TableStore} {s : TableStore} {r : RowRef}
    {place : Nat} {v : Value} : Ensures h (At rows s) ((ClientCall.edit r place v).work m)
      (fun _ => At (rows.set r ((rows.getD r []).set place v)) s) (At rows s) :=
  ensures_place.bind fun _ => ensures_pure fun _ _ hpre => hpre

/-- What a turn can do: a client edits its row, columns of a stored row are copied into the
row, the key of an insert comes back into it, or all rows of the clients stay as they are. -/
inductive Effect (m : Mapping) (e : Turn) : Prop
  | edited {r : RowRef} {place : Nat} {v : Value} : e.call = .edit r place v →
      e.after.rows = e.before.rows.set r ((e.before.row r).set place v) → e.left = e.store →
      m.Effect e
  | copied {r : RowRef} {stored : StoredRow} {n : Nat} {row : Row} : m.Finds e r stored →
      m.copied ((m.selectFields.map fun g => (stored.column g.columnName, g)).take n)
        (e.before.row r) = .ok row →
      e.after.rows = e.before.rows.set r row → e.left = e.store → m.Effect e
  | keyed {r : RowRef} {key : Value} {row : Row} :
      (m.inserted (e.before.row r) e.store).1 = .ok key →
      m.keyed key (e.before.row r) = .ok row → e.after.rows = e.before.rows.set r row →
      e.left = (m.inserted (e.before.row r) e.store).2 → m.Effect e
  | kept : e.after.rows = e.before.rows → m.Reaches e.store e.left → m.Effect e

theorem Effect.unchanged (h : At e.before.rows e.store e.after e.left) : m.Effect e :=
  .kept h.1 (h.2 ▸ .refl)

theorem Effect.wrote {s : TableStore} (h : At e.before.rows s e.after e.left)
    (hw : m.Writes e.store s) : m.Effect e := .kept h.1 (h.2 ▸ .single hw)

theorem effect_of_read {r : RowRef} (hk : m.hasKeys = true) (hcall : e.call = .read r)
    (hrun : ((m.read r).start e.before).run (Dialect.reference m.statements u reads).handle
      e.store = ((e.result, e.after), e.left)) : m.Effect e := by
  refine (ensures_read hk).elim_run hrun ⟨rfl, rfl⟩ ?_ ?_
  · rintro found ⟨hlen, hend⟩
    cases hstored : m.stored? (e.before.rows.getD r []) e.store with
    | none =>
      rw [hstored] at hend
      exact .unchanged hend.2
    | some stored =>
      rw [hstored] at hend
      obtain ⟨-, row, hcopied, hat⟩ := hend
      rw [← List.take_length (l := m.selectFields.map _)] at hcopied
      exact .copied ⟨hcall, hlen, hstored⟩ hcopied hat.1 hat.2
  · rintro (⟨-, hat⟩ | ⟨hlen, stored, hstored, -, n, row, hcopied, hat⟩)
    · exact .unchanged hat
    · exact .copied ⟨hcall, hlen, hstored⟩ hcopied hat.1 hat.2

/-- Every turn has one of these effects, whether its call succeeds or fails. -/
theorem effect_of_run (hk : m.hasKeys = true)
    (hrun : ((e.call.work m).start e.before).run (Dialect.reference m.statements u reads).handle
      e.store = ((e.result, e.after), e.left)) : m.Effect e := by
  cases hcall : e.call with
  | edit r place v =>
    rw [hcall] at hrun
    exact ensures_edit.elim_run hrun ⟨rfl, rfl⟩ (fun _ hat => .edited hcall hat.1 hat.2) .unchanged
  | read r =>
    rw [hcall] at hrun
    exact effect_of_read hk hcall hrun
  | insert r =>
    rw [hcall] at hrun
    refine (ensures_insert hk).elim_run hrun ⟨rfl, rfl⟩ ?_ ?_
    · rintro done ⟨-, -, key, row, hinserted, hkeyed, hat⟩
      exact .keyed hinserted hkeyed hat.1 hat.2
    · rintro (⟨-, hat⟩ | hat)
      · exact .unchanged hat
      · exact .wrote hat (.inserted _)
  | update r =>
    rw [hcall] at hrun
    refine ensures_update.elim_run hrun ⟨rfl, rfl⟩ (fun done hend => ?_) fun hend => .unchanged hend.2
    split at hend
    · exact .wrote hend.2.2 (.updated _)
    · exact .unchanged hend.2
  | updateAll rs =>
    rw [hcall] at hrun
    refine ensures_updateAll.elim_run hrun ⟨rfl, rfl⟩ (fun done hend => ?_) .unchanged
    split at hend
    · exact .kept hend.2.1 (hend.2.2 ▸ reaches_updatedAll m _ _)
    · exact .unchanged hend.2
  | delete r =>
    rw [hcall] at hrun
    exact (ensures_delete hk).elim_run hrun ⟨rfl, rfl⟩ (fun _ hend => .wrote hend.2.2 (.deleted _))
      fun hend => .unchanged hend.2

/-- An update by one row says whether it took a stored row. -/
theorem updated_of_run {r : RowRef} {done : Bool} (hcall : e.call = .update r)
    (hresult : e.result = .ok done)
    (hrun : ((e.call.work m).start e.before).run (Dialect.reference m.statements u reads).handle
      e.store = ((e.result, e.after), e.left)) :
    done = decide (0 < (m.updated (e.before.row r) e.store).1) ∧
        e.left = (m.updated (e.before.row r) e.store).2 ∨ done = false ∧ e.left = e.store := by
  rw [hcall, hresult] at hrun
  have hend := ensures_update.of_run hrun ⟨rfl, rfl⟩
  dsimp only [Ends] at hend
  split at hend
  · exact .inl ⟨hend.2.1, hend.2.2.2⟩
  · exact .inr ⟨hend.1, hend.2.2⟩

/-- An update by several rows says whether it took as many stored rows. -/
theorem updatedAll_of_run {rs : List RowRef} (hcall : e.call = .updateAll rs)
    (hresult : e.result = .ok true)
    (hrun : ((e.call.work m).start e.before).run (Dialect.reference m.statements u reads).handle
      e.store = ((e.result, e.after), e.left)) :
    (m.updatedAll (rs.map e.before.row) e.store).1 = rs.length ∧
      e.left = (m.updatedAll (rs.map e.before.row) e.store).2 := by
  rw [hcall, hresult] at hrun
  have hend := ensures_updateAll.of_run hrun ⟨rfl, rfl⟩
  dsimp only [Ends] at hend
  split at hend
  · exact ⟨of_decide_eq_true hend.1.symm, hend.2.2⟩
  · cases hend.1

/-- What a turn makes of the store is made by statements of the mapping. -/
theorem Effect.reaches (h : m.Effect e) : m.Reaches e.store e.left := by
  cases h with
  | edited _ _ hleft => exact hleft ▸ .refl
  | copied _ _ _ hleft => exact hleft ▸ .refl
  | keyed _ _ _ hleft => exact hleft ▸ .single (.inserted _)
  | kept _ hreaches => exact hreaches

/-- Where a value comes from that stands, after a turn, at a place that the client does not
edit: it was there, or it was read from a stored row, or it is a generated key. -/
inductive Origin (m : Mapping) (e : Turn) (r : RowRef) (i : Nat) : Value → Prop
  | kept : m.Origin e r i ((e.before.row r).getD i .null)
  | read {stored : StoredRow} {g : Field} {v : Value} : m.Finds e r stored → g ∈ m.selectFields →
      g.index = i → m.extract g.valueType (stored.column g.columnName) = .ok v → m.Origin e r i v
  | generated {g : Field} {v : Value} : m.schema.generatedKey = some g → g.index = i →
      g.valueType.fromDatabase (e.store.supply.key e.store.issued) = .ok v → m.Origin e r i v

variable {r o : RowRef} {i : Nat} {row : Row}

/-- What is true of the places of a row that was written over is true of all rows, if the
others keep their places. -/
theorem origin_of_set (hafter : e.after.rows = e.before.rows.set r row)
    (h : m.Origin e r i (row.getD i .null)) (o : RowRef) :
    m.Origin e o i ((e.after.row o).getD i .null) := by
  rw [Workspace.row, hafter]
  rcases getD_set e.before.rows r o row [] with ⟨rfl, hrow⟩ | hrow
  · rw [hrow]
    exact h
  · rw [hrow]
    exact .kept

/-- A place of a row into which the key of an insert came back. -/
theorem origin_of_keyed {key : Value} (hinserted : (m.inserted (e.before.row r) e.store).1 = .ok key)
    (hkeyed : m.keyed key (e.before.row r) = .ok row) : m.Origin e r i (row.getD i .null) := by
  obtain ⟨rfl, -⟩ | ⟨g, v, hg, hv, rfl⟩ := keyed_cases hkeyed
  · exact .kept
  · rcases getD_set (e.before.row r) g.index i v .null with ⟨hi, hset⟩ | hset
    · rw [hset]
      exact .generated hg hi.symm (key_of_inserted hg hinserted ▸ hv)
    · rw [hset]
      exact .kept

/-- Every value at a place that clients do not edit has one of these origins. -/
theorem Effect.origin (h : m.Effect e) (hedit : ∀ r v, e.call ≠ .edit r i v) (o : RowRef) :
    m.Origin e o i ((e.after.row o).getD i .null) := by
  cases h with
  | @edited r place v hcall hrows =>
    have hplace : place ≠ i := fun heq => hedit r v (heq ▸ hcall)
    refine origin_of_set hrows ?_ o
    rw [getD_set_of_ne _ hplace.symm]
    exact .kept
  | copied hfinds hcopied hrows =>
    refine origin_of_set hrows ?_ o
    rcases copied_place hcopied i with hkept | ⟨v, g, hm, hi, hv⟩
    · rw [hkept]
      exact .kept
    · obtain ⟨g, hg, heq⟩ := List.mem_map.mp (List.mem_of_mem_take hm)
      cases heq
      exact .read hfinds hg hi hv
  | keyed hinserted hkeyed hrows => exact origin_of_set hrows (origin_of_keyed hinserted hkeyed) o
  | kept hrows =>
    rw [Workspace.row, hrows]
    exact .kept

end

end Mapping

end Tablewright
