import Tablewright.Handle.Scripted
import Tablewright.Mapping.Batch
import Tablewright.Proofs.Mapping.Heard
import Tablewright.Proofs.Mapping.Sentences
import Tablewright.Proofs.Store.Shown

/-! What an operation leaves alone. Reading writes into the places of columns, and an insert that
was reported to have affected rows writes the key that came back into its place. Nothing else is
written into a row, by no operation and whatever the handle says; and an operation that says that
it was not done has written nothing. -/

namespace Tablewright

theorem Task.heard_bind {α β σ : Type} (h : Handle σ) (t : Task α) (f : α → Task β) (s : σ) :
    (t.bind f).heard h s = t.heard h s ++ (f (t.run h s).1).heard h (t.run h s).2 := by
  induction t generalizing s with
  | done a => rfl
  | ask c resume ih => exact congrArg (_ :: ·) (ih _ _)

namespace Work

variable {α σ : Type} {h : Handle σ} {rows : List Row} {r : RowRef}

/-- What is known of a result and of what a handle has heard is known of a run against the handle
itself. -/
theorem Ensures.heard {P E : Fact (List AnsweredCall × σ)} {Q : α → Fact (List AnsweredCall × σ)}
    {x : Work α} (hx : Ensures h.listening P x Q E) {w w' : Workspace} {s s' : σ} {a : α}
    (hrun : (x.start w).run h s = ((.ok a, w'), s')) (hpre : P w ([], s)) :
    Q a w' ((x.start w).heard h s, s') := by
  have hend := hx w ([], s) hpre
  rw [Task.run_listening, List.nil_append, hrun] at hend
  exact hend

/-- Work behind which nothing is asked and nothing is written. -/
theorem run_bind_idle {β : Type} {x : Work α} {f : α → Work β}
    {next : Except Failure α → Except Failure β} {w w' : Workspace} {s s' : σ}
    {result : Except Failure α} (hrun : (x.start w).run h s = ((result, w'), s'))
    (hok : ∀ a, result = .ok a → (f a).start w' = .done (next result, w'))
    (herror : ∀ e, result = .error e → next result = .error e) :
    ((x >>= f).start w).run h s = ((next result, w'), s') ∧
      ((x >>= f).start w).heard h s = (x.start w).heard h s := by
  rw [start_bind, Task.run_bind, Task.heard_bind, hrun]
  cases result with
  | ok a =>
    dsimp only
    rw [hok a rfl]
    exact ⟨rfl, List.append_nil _⟩
  | error e =>
    dsimp only
    rw [herror e rfl]
    exact ⟨rfl, List.append_nil _⟩

/-- A call changes no row. -/
theorem keeps_rows_ask {c : Call} : Keeps h (Standing rows fun _ => True) (ask c) := by
  refine ensures_ask ?_
  rintro w s ⟨rfl, -⟩
  cases (h.answer c s).1.outcome with
  | ok a => exact ⟨rfl, trivial⟩
  | error e => exact ⟨rfl, trivial⟩

/-- The rows are these, except for some places of one of them. -/
def OnlyAt (r : RowRef) (places : List Nat) (rows : List Row) : Fact σ := fun w _ =>
  w.rows = rows.set r (w.row r) ∧ ∀ i, i ∉ places → (w.row r)[i]? = (rows.getD r [])[i]?

theorem onlyAt_refl {places : List Nat} {w : Workspace} {s : σ} (hrows : w.rows = rows) :
    OnlyAt r places rows w s := by
  subst hrows
  exact ⟨(set_getD w.rows r []).symm, fun _ _ => rfl⟩

theorem keeps_onlyAt_setAt {places : List Nat} {i : Nat} {v : Value} (hi : i ∈ places) :
    Keeps h (OnlyAt r places rows) (setAt r i v) := by
  refine ensures_setAt (fun w s hpre hlt => ?_) fun _ _ => id
  obtain ⟨hrows, hplaces⟩ := hpre
  rw [OnlyAt, Workspace.row_setRow_self (Workspace.lt_of_row hlt)]
  refine ⟨?_, fun j hj => ?_⟩
  · rw [Workspace.setRow]
    show w.rows.set r _ = _
    rw [hrows, List.set_set]
  · rw [List.getElem?_set_ne (ne_of_mem_of_not_mem hi hj), hplaces j hj]

end Work

namespace Mapping

open Work

variable {m : Mapping} {r : RowRef} {row row' : Row} {rows : List Row} {calls : List AnsweredCall}
  {done : Bool} {σ : Type} {h : Handle σ}

/-- The places of a row that an operation may write to. -/
def openTo (m : Mapping) : RowOperation → List Nat
  | .read => places m.selectFields
  | .insert | .save => places m.schema.generatedKey.toList
  | .update | .delete => []

/-- A handle has reported that an insert affected rows, and the key that it gave back is what has
come into the row. A handle counts what it affected, so any number but zero is such a report. -/
def KeyReported (m : Mapping) (row : Row) (calls : List AnsweredCall) (row' : Row) : Prop :=
  ∃ g n key v, m.schema.generatedKey = some g ∧ n ≠ 0 ∧
    (⟨.insertKey m.insertStatement.toText (m.boundValues m.insertBound row) (types m.insertBound)
      g.columnName, .ok ((n : Int), key)⟩ : AnsweredCall) ∈ calls ∧
    g.valueType.fromDatabase key = .ok v ∧ row' = row.set g.index v

/-- What an operation on a row has left alone, after it has said whether it was done. -/
structure Frames (m : Mapping) (op : RowOperation) (r : RowRef) (calls : List AnsweredCall)
    (rows rows' : List Row) (done : Bool) : Prop where
  others : rows' = rows.set r (rows'.getD r [])
  undone : done = false → rows' = rows
  places : ∀ i, i ∉ m.openTo op → (rows'.getD r [])[i]? = (rows.getD r [])[i]?
  reported : op ≠ .read → rows' ≠ rows → m.KeyReported (rows.getD r []) calls (rows'.getD r [])

/-! ## Operations that write to no row -/

theorem keeps_rows_refuse {operation : String} :
    Keeps h (Standing rows fun _ => True) (m.refuse operation) :=
  ensures_refuse.imp (fun _ _ => id) (fun _ _ _ => And.right) fun _ _ => id

theorem keeps_rows_values {fields : List Field} : Keeps h (Standing rows fun _ => True)
    (do lift (m.bindRow fields (← Work.row r))) :=
  ensures_values.imp (fun _ _ => id) (fun _ _ _ => And.right) fun _ _ => And.right

/-- One call with the values of a row. -/
theorem keeps_rows_call {fields : List Field} {c : List Value → Call}
    {done : (values : List Value) → (c values).Reply → Bool} :
    Keeps h (Standing rows fun _ => True) (do
      let values ← lift (m.bindRow fields (← Work.row r))
      return done values (← ask (c values))) := by
  rw [← bind_assoc]
  exact keeps_rows_values.bind fun values => keeps_rows_ask.bind fun n =>
    ensures_pure fun _ _ => id

theorem keeps_rows_update : Keeps h (Standing rows fun _ => True) (m.update r) := by
  unfold update
  split
  · exact keeps_rows_refuse
  · exact keeps_rows_call (c := fun values => .write m.updateStatement.toText values _)

theorem keeps_rows_delete : Keeps h (Standing rows fun _ => True) (m.delete r) := by
  unfold delete
  split
  · exact keeps_rows_refuse
  · exact keeps_rows_call (c := fun values => .write m.deleteStatement.toText values _)

theorem keeps_rows_updateAll {rs : List RowRef} :
    Keeps h (Standing rows fun _ => True) (m.updateAll rs) := by
  unfold updateAll
  split
  · exact keeps_rows_refuse
  · split
    · exact ensures_pure fun _ _ => id
    · have hbind : Keeps h (Standing rows fun _ => True) (m.bindRows m.updateBound rs) :=
        (ensures_mapM (R := fun _ _ => True) fun r _ => keeps_rows_values.imp (fun _ _ => id)
          (fun _ _ _ hpre => ⟨trivial, hpre⟩) fun _ _ => id).imp (fun _ _ => id)
          (fun _ _ _ => And.right) fun _ _ => id
      refine hbind.bind fun values => keeps_rows_ask.bind fun n => ?_
      split
      · exact ensures_pure fun _ _ => id
      · exact (keeps_note unlogged_standing).bind fun _ => ensures_pure fun _ _ => id

/-! ## Reading -/

theorem keeps_onlyAt_copyInto {fields : List Field} {result : List Value} :
    Keeps h (OnlyAt r (places fields) rows) (m.copyInto r fields result) := by
  refine keeps_forM fun e he => ?_
  obtain ⟨v, f⟩ := e
  exact (ensures_lift fun _ _ => id).bind fun x => ensures_of fun _ =>
    keeps_onlyAt_setAt (List.mem_map_of_mem (List.of_mem_zip he).2)

theorem ensures_read_onlyAt : Ensures h (Standing rows fun _ => True) (m.read r)
    (fun done w s => (done = false → w.rows = rows) ∧ OnlyAt r (places m.selectFields) rows w s)
    (fun _ _ => True) := by
  unfold read
  split
  · exact keeps_rows_refuse.imp (fun _ _ => id)
      (fun _ _ _ hpre => ⟨fun _ => hpre.1, onlyAt_refl hpre.1⟩) fun _ _ _ => trivial
  · rw [← bind_assoc]
    refine Ensures.bind (keeps_rows_values.imp (fun _ _ => id) (fun _ _ _ => id) fun _ _ _ =>
      trivial) fun values => Ensures.bind (keeps_rows_ask.imp (fun _ _ => id) (fun _ _ _ => id)
        fun _ _ _ => trivial) fun found => ?_
    cases found with
    | none => exact ensures_pure fun w s hpre => ⟨fun _ => hpre.1, onlyAt_refl hpre.1⟩
    | some result =>
      exact (keeps_onlyAt_copyInto.imp (fun _ _ hpre => onlyAt_refl hpre.1) (fun _ _ _ => id)
        fun _ _ _ => trivial).bind fun _ => ensures_pure fun _ _ hpre => ⟨nofun, hpre⟩

/-! ## Inserting and saving -/

/-- A row is as it was, or it has been inserted and holds the key that was reported. -/
theorem InsertHeard.eq_or_keyReported (h : m.InsertHeard row calls row' done) :
    row' = row ∨ done = true ∧ m.KeyReported row calls row' := by
  cases h with
  | refused | sent | unkeyed => exact .inl rfl
  | keyed g n key _ _ hg hn hkey =>
    obtain ⟨rfl, -⟩ | ⟨g', v, hg', hv, rfl⟩ := keyed_cases hkey
    · exact .inl rfl
    · obtain rfl := Option.some.inj (hg.symm.trans hg')
      exact .inr ⟨rfl, g, n, key, v, hg, hn, List.mem_singleton_self _, hv, rfl⟩

theorem SaveHeard.eq_or_keyReported (h : m.SaveHeard row calls row' done) :
    row' = row ∨ done = true ∧ m.KeyReported row calls row' := by
  cases h with
  | updated => exact .inl rfl
  | inserted _ hinsert =>
    refine hinsert.eq_or_keyReported.imp_right (And.imp_right ?_)
    rintro ⟨g, n, key, v, hg, hn, hcall, hv, hrow⟩
    exact ⟨g, n, key, v, hg, hn, List.mem_append_right _ hcall, hv, hrow⟩

theorem frames_refl {op : RowOperation} : m.Frames op r calls rows rows done :=
  ⟨(set_getD ..).symm, fun _ => rfl, fun _ _ => rfl, fun _ hne => absurd rfl hne⟩

/-- A row that is as it was or has got its key is all that has changed. -/
theorem frames_of_keyReported {op : RowOperation}
    (hopen : m.openTo op = places m.schema.generatedKey.toList)
    (hrow : row' = rows.getD r [] ∨ done = true ∧ m.KeyReported (rows.getD r []) calls row') :
    m.Frames op r calls rows (rows.set r row') done := by
  rcases hrow with rfl | ⟨rfl, hreported⟩
  · rw [set_getD]
    exact frames_refl
  · obtain ⟨g, n, key, v, hg, hn, hcall, hv, rfl⟩ := id hreported
    by_cases hr : r < rows.length
    · have hself (row : Row) : (rows.set r row).getD r [] = row := getD_set_self hr row []
      refine ⟨by rw [hself], nofun, fun i hi => ?_, fun _ _ => by rwa [hself]⟩
      rw [hopen, hg] at hi
      rw [hself, List.getElem?_set_ne fun hig => hi (List.mem_singleton.mpr hig.symm)]
    · rw [List.set_eq_of_length_le (Nat.le_of_not_lt hr)]
      exact frames_refl

/-! ## All operations -/

theorem frames_of_run (hs : m.schema.Sound) {w w' : Workspace} {s s' : σ}
    (hlen : (w.row r).length = m.schema.fields.length) {op : RowOperation}
    (hrun : ((m.perform op r).start w).run h s = ((.ok done, w'), s')) :
    m.Frames op r (((m.perform op r).start w).heard h s) w.rows w'.rows done := by
  have hsame (hrows : w'.rows = w.rows) :
      m.Frames op r (((m.perform op r).start w).heard h s) w.rows w'.rows done := by
    rw [hrows]
    exact frames_refl
  cases op with
  | read =>
    obtain ⟨hundone, hrows, hplaces⟩ := ensures_read_onlyAt.of_run hrun ⟨rfl, trivial⟩
    exact ⟨hrows, hundone, hplaces, fun hne => absurd rfl hne⟩
  | update => exact hsame (keeps_rows_update.of_run hrun ⟨rfl, trivial⟩).1
  | delete => exact hsame (keeps_rows_delete.of_run hrun ⟨rfl, trivial⟩).1
  | insert =>
    obtain ⟨calls, row, hinsert, hrows, -, hheard⟩ :=
      (hears_insert (E := fun _ _ => True) hs (.inl fun _ _ => trivial) hlen).heard hrun
        ⟨rfl, rfl, rfl⟩
    obtain rfl : _ = calls := hheard
    rw [hrows]
    exact frames_of_keyReported rfl hinsert.eq_or_keyReported
  | save =>
    obtain ⟨calls, row, hsave, hrows, -, hheard⟩ :=
      (hears_save (E := fun _ _ => True) hs (.inl fun _ _ => trivial) hlen).heard hrun
        ⟨rfl, rfl, rfl⟩
    obtain rfl : _ = calls := hheard
    rw [hrows]
    exact frames_of_keyReported rfl hsave.eq_or_keyReported

/-- How an operation that has to succeed ends where the plain one ends so. -/
def demanded (m : Mapping) (op : RowOperation) (keys : String) :
    Except Failure Bool → Except Failure Unit
  | .ok true => .ok ()
  | .ok false => .error (.noRowsAffected op.title m.schema.name keys)
  | .error e => .error e

/-- An operation that has to succeed makes the calls of the plain one and writes what it writes. It
fails where that fails or says that it was not done, and the failure then names the row's keys. -/
theorem performOrFail_run (hs : m.schema.Sound) {w : Workspace} {s : σ} {keys : String}
    (hlen : (w.row r).length = m.schema.fields.length)
    (hkeys : m.schema.emitKeys (w.row r) = .ok keys) (op : RowOperation) :
    ((m.performOrFail op r).start w).run h s =
        ((m.demanded op keys (((m.perform op r).start w).run h s).1.1,
          (((m.perform op r).start w).run h s).1.2), (((m.perform op r).start w).run h s).2) ∧
      ((m.performOrFail op r).start w).heard h s = ((m.perform op r).start w).heard h s := by
  obtain ⟨⟨⟨result, w'⟩, s'⟩, hrun⟩ : ∃ out, ((m.perform op r).start w).run h s = out := ⟨_, rfl⟩
  rw [hrun]
  refine run_bind_idle hrun ?_ ?_
  · rintro done rfl
    cases done with
    | true => rfl
    | false =>
      -- The keys are read off the row as it was left, which is as it was before.
      have hrow : w'.row r = w.row r :=
        congrArg (·.getD r []) ((frames_of_run hs hlen hrun).undone rfl)
      show ((lift (m.schema.emitKeys (w'.row r)) >>= fun keys =>
        throw (Failure.noRowsAffected op.title m.schema.name keys) : Work Unit).start w') = _
      rw [hrow, hkeys]
      rfl
  · rintro e rfl
    rfl

/-- Whatever the handle does, an operation that returns has changed a row only where it should.
Updates and deletions change no row at all, also where they fail. An operation that has to succeed
fails exactly where the plain one fails or says that it was not done. -/
theorem perform_frames (hm : m.schema.Valid) (h : Handle σ) (s : σ) {w : Workspace} {r : RowRef}
    (hlen : (w.row r).length = m.schema.fields.length) :
    (∀ op done w' s', ((m.perform op r).start w).run h s = ((.ok done, w'), s') →
      m.Frames op r (((m.perform op r).start w).heard h s) w.rows w'.rows done) ∧
    (∀ op ∈ [RowOperation.update, .delete],
      (((m.perform op r).start w).run h s).1.2.rows = w.rows) ∧
    (∀ rs, (((m.updateAll rs).start w).run h s).1.2.rows = w.rows) ∧
    ∃ keys, m.schema.emitKeys (w.row r) = .ok keys ∧ ∀ op,
      ((m.performOrFail op r).start w).run h s =
        ((m.demanded op keys (((m.perform op r).start w).run h s).1.1,
          (((m.perform op r).start w).run h s).1.2), (((m.perform op r).start w).run h s).2) ∧
      ((m.performOrFail op r).start w).heard h s = ((m.perform op r).start w).heard h s := by
  have hrows {α : Type} {x : Work α} (hx : Keeps h (Standing w.rows fun _ => True) x) :
      ((x.start w).run h s).1.2.rows = w.rows :=
    hx.elim_run rfl ⟨rfl, trivial⟩ (fun _ hpost => hpost.1) And.left
  refine ⟨fun op done w' s' hrun => frames_of_run hm.sound hlen hrun, ?_,
    fun rs => hrows keeps_rows_updateAll, ?_⟩
  · intro op hop
    simp only [List.mem_cons, List.not_mem_nil, or_false] at hop
    obtain rfl | rfl := hop
    · exact hrows keeps_rows_update
    · exact hrows keeps_rows_delete
  · obtain ⟨keys, hkeys⟩ := hm.sound.emitKeys_of_length hlen
    exact ⟨keys, hkeys, performOrFail_run hm.sound hlen hkeys⟩

/-! ## A coupon that is saved -/

/-- Coupons with a number that is generated, and with a remark that is not stored. -/
def couponDeclaration : RecordDeclaration where
  name := "coupon"
  nameInDb := some "coupons"
  useTimestampCheck := false
  operations := []
  fields := [
    RecordSchema.invoiceColumn "number" "number" .integer .generatedPrimaryKey,
    RecordSchema.invoiceColumn "label" "label" .text .optionalData,
    { (default : FieldDeclaration) with name := "remark" }]

def coupons : Mapping := mapped couponDeclaration

theorem coupons_valid : coupons.schema.Valid := RecordSchema.valid_declared (by decide +kernel)

def newCoupon : Workspace := { rows := [[.null, .text "spring", .text "two for one"]] }

/-- A save of the coupon, against a handle that has nothing to update and then gives it a number. -/
def couponSave :=
  ((coupons.perform .save 0).start newCoupon).run Handle.scripted
    ({ items := [{ affected := some 0 }, { key := some (.int 5) }] }, ())

theorem perform_frames_coupon : ∃ w' s', couponSave = ((.ok true, w'), s') ∧
    coupons.Frames .save 0 (((coupons.perform .save 0).start newCoupon).heard Handle.scripted
      ({ items := [{ affected := some 0 }, { key := some (.int 5) }] }, ())) newCoupon.rows w'.rows
      true ∧
    w'.rows = [[.int 5, .text "spring", .text "two for one"]] := by
  have hlen : (newCoupon.row 0).length = coupons.schema.fields.length := by decide +kernel
  obtain ⟨hframes, -⟩ := perform_frames coupons_valid Handle.scripted
    ({ items := [{ affected := some 0 }, { key := some (.int 5) }] }, ()) hlen
  have hresult : couponSave.1.1.toOption = some true := by rfl
  have hrows : couponSave.1.2.rows = [[.int 5, .text "spring", .text "two for one"]] := by rfl
  obtain ⟨⟨⟨result, w'⟩, s'⟩, hrun⟩ : ∃ out, couponSave = out := ⟨_, rfl⟩
  rw [hrun] at hresult hrows
  obtain rfl := eq_ok_of_toOption hresult
  exact ⟨w', s', hrun, hframes .save true w' s' hrun, hrows⟩

end Mapping

end Tablewright
