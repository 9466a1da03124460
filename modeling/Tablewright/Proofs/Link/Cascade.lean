import Tablewright.Handle.Scripted
import Tablewright.Proofs.Link.Children

/-! Writing a row with its children. All that can be known beforehand is checked before the
handle is asked for anything. Then the row is written, so that its generated key is there, and
its child rows are saved. -/

namespace Tablewright.LinkedRecord

open Work

/-! ## The row itself -/

/-- What is heard of an operation on the row itself. -/
def TreeOperation.Heard (op : TreeOperation) (m : Mapping) (row : Row) (calls : List AnsweredCall)
    (row' : Row) (done : Bool) : Prop :=
  match op with
  | .insert => m.InsertHeard row calls row' done
  | .update => row' = row ∧ m.UpdateHeard row calls done
  | .save => m.SaveHeard row calls row' done

variable {rows rows' : List Row} {calls : List AnsweredCall} {done : Bool}

section

variable {σ : Type} {h : Handle σ} {messages : List Message} {heard : List AnsweredCall}

theorem tells_perform {m : Mapping} {r : RowRef} (hs : m.schema.Sound) (hh : m.AnsweredBy h)
    (hlen : (rows.getD r []).length = m.schema.fields.length) (op : TreeOperation) :
    Tells h (Heard rows messages heard) (m.perform op.onRow r)
      (fun done w s => ∃ calls row, op.Heard m (rows.getD r []) calls row done ∧
        Heard (rows.set r row) messages (heard ++ calls) w s) := by
  cases op with
  | insert => exact Mapping.tells_insert hs hh hlen
  | save => exact Mapping.tells_save hs hh hlen
  | update =>
    refine (Mapping.tells_update hh hlen).weaken ?_
    rintro done w s ⟨calls, hupdate, hpre⟩
    exact ⟨calls, _, ⟨rfl, hupdate⟩, by rwa [set_getD]⟩

theorem TreeOperation.Heard.length_eq {op : TreeOperation} {m : Mapping} {row row' : Row}
    (h : op.Heard m row calls row' done) : row'.length = row.length := by
  cases op with
  | insert => exact Mapping.InsertHeard.length_eq h
  | update => exact congrArg List.length h.1
  | save => exact Mapping.SaveHeard.length_eq h

end

/-! ## The row and its children -/

/-- A linked record whose records have no faults, and whose links were built for them. -/
structure Built (lr : LinkedRecord) : Prop where
  valid : lr.mapping.schema.Valid
  links : ∀ t ∈ lr.links, t.link.Built lr.mapping.schema

/-- A handle that answers whatever the records ask for. -/
structure AnsweredBy {σ : Type} (lr : LinkedRecord) (h : Handle σ) : Prop where
  record : lr.mapping.AnsweredBy h
  children : ∀ t ∈ lr.links, t.link.child.AnsweredBy h

/-- The rows of a tree have as many values as their records have fields. -/
structure Fits (lr : LinkedRecord) (tree : RowTree RowRef) (rows : List Row) : Prop where
  row : (rows.getD tree.row []).length = lr.mapping.schema.fields.length
  children : ∀ t ∈ lr.links, ∀ r ∈ rowsUnder tree t,
    (rows.getD r []).length = t.link.child.schema.fields.length

/-- What is heard of a write, what it leaves of the rows and the messages, and what it says. -/
inductive WriteHeard (lr : LinkedRecord) (op : TreeOperation) (tree : RowTree RowRef)
    (rows : List Row) (messages : List Message) :
    List AnsweredCall → List Row → List Message → Bool → Prop
  | unwritable : (∃ t ∈ lr.links, t.isWritable = false) →
      lr.WriteHeard op tree rows messages [] rows messages false
  | unadmitted {added : List Message} : (∀ t ∈ lr.links, t.isWritable = true) →
      (∃ t ∈ lr.links, ¬ Admitted tree t) →
      List.Forall₂ (fun t message => t.link.Blames message)
        (lr.links.filter fun t => ¬ Admitted tree t) added →
      lr.WriteHeard op tree rows messages [] rows (messages ++ added) false
  | unwritten {calls : List AnsweredCall} {row : Row} :
      (∀ t ∈ lr.links, t.isWritable = true) → (∀ t ∈ lr.links, Admitted tree t) →
      op.Heard lr.mapping (rows.getD tree.row []) calls row false →
      lr.WriteHeard op tree rows messages calls (rows.set tree.row row) messages false
  | written {calls more : List AnsweredCall} {row : Row} {rows' : List Row} {done : Bool} :
      (∀ t ∈ lr.links, t.isWritable = true) → (∀ t ∈ lr.links, Admitted tree t) →
      op.Heard lr.mapping (rows.getD tree.row []) calls row true →
      ChildrenHeard tree.row (childRows tree lr.links) (rows.set tree.row row) more rows' done →
      lr.WriteHeard op tree rows messages (calls ++ more) rows' messages done

theorem tells_validate {σ : Type} {h : Handle σ} {messages : List Message}
    {heard : List AnsweredCall} (lr : LinkedRecord) (tree : RowTree RowRef) :
    Tells h (Heard rows messages heard) (check (lr.validate tree))
      (fun ok w s => ∃ added, (ok = decide (∀ t ∈ lr.links, Admitted tree t) ∧
        List.Forall₂ (fun t message => t.link.Blames message)
          (lr.links.filter fun t => ¬ Admitted tree t) added) ∧
        Heard rows (messages ++ added) heard w s) := by
  refine (tells_check (Q := fun ok more => ∃ added, more = messages ++ added ∧
    ok = decide (∀ t ∈ lr.links, Admitted tree t) ∧
    List.Forall₂ (fun t message => t.link.Blames message)
      (lr.links.filter fun t => ¬ Admitted tree t) added) ?_).weaken ?_
  · rintro j rfl
    obtain ⟨k, added, hreturns, hadded, hblames⟩ := lr.returns_validate tree j
    exact ⟨_, k, hreturns, added, hadded, rfl, hblames⟩
  · rintro ok w s ⟨_, ⟨added, rfl, hadded⟩, hpre⟩
    exact ⟨added, hadded, hpre⟩

theorem tells_write {σ : Type} {h : Handle σ} {lr : LinkedRecord} (hl : lr.Built)
    (hh : lr.AnsweredBy h) (op : TreeOperation) {tree : RowTree RowRef} (hfits : lr.Fits tree rows)
    {messages : List Message} {heard : List AnsweredCall} :
    Tells h (Heard rows messages heard) (lr.write op tree)
      (fun done w s => ∃ calls rows' messages',
        lr.WriteHeard op tree rows messages calls rows' messages' done ∧
        Heard rows' messages' (heard ++ calls) w s) := by
  unfold write
  refine (ensures_checkWritable (fun _ _ _ => tells_note) op.name lr.links).bind fun ok =>
    ensures_of fun hok => ?_
  cases ok with
  | false =>
    have hsome : ∃ t ∈ lr.links, t.isWritable = false := by simpa using hok
    exact ensures_pure fun w s hpre => ⟨[], _, _, .unwritable hsome, by rwa [List.append_nil]⟩
  | true =>
    have hwritable : ∀ t ∈ lr.links, t.isWritable = true := List.all_eq_true.mp hok.symm
    refine (tells_validate lr tree).bind fun ok => ensures_exists fun added =>
      ensures_of fun hadded => ?_
    obtain ⟨hok, hblames⟩ := hadded
    cases ok with
    | false =>
      have hsome : ∃ t ∈ lr.links, ¬ Admitted tree t := by simpa using hok
      exact ensures_pure fun w s hpre =>
        ⟨[], _, _, .unadmitted hwritable hsome hblames, by rwa [List.append_nil]⟩
    | true =>
      have hadmitted : ∀ t ∈ lr.links, Admitted tree t := of_decide_eq_true hok.symm
      have hnone : (lr.links.filter fun t => ¬ Admitted tree t) = [] := by
        simpa [List.filter_eq_nil_iff] using hadmitted
      rw [hnone] at hblames
      cases hblames
      rw [List.append_nil]
      refine (tells_perform hl.valid.sound hh.record hfits.row op).bind fun done =>
        ensures_exists fun calls => ensures_exists fun row => ensures_of fun hrow => ?_
      have hlen : SameLengths rows (rows.set tree.row row) := sameLengths_set hrow.length_eq
      have hparent := (hlen tree.row).trans hfits.row
      cases done with
      | true =>
        have hsavable : ∀ t ∈ lr.links,
            Savable h lr.mapping.schema tree (rows.set tree.row row) t := fun t ht =>
          ⟨hl.links t ht, hh.children t ht, hwritable t ht, hadmitted t ht,
            fun r hr => (hlen r).trans (hfits.children t ht r hr)⟩
        refine (tells_saveChildren hsavable hparent).weaken ?_
        rintro done w s ⟨more, rows', hmore, hpre⟩
        exact ⟨_, rows', _, .written hwritable hadmitted hrow hmore, by rwa [← List.append_assoc]⟩
      | false =>
        refine (Mapping.tells_noteKeys hl.valid.sound hparent).weaken ?_
        rintro done w s ⟨rfl, hpre⟩
        exact ⟨calls, _, _, .unwritten hwritable hadmitted hrow, hpre⟩

/-- A write with children ends with a result, whatever the handle answers. If a link cannot be
written through, or does not admit its rows, the handle is asked for nothing and no row has
changed; in the second case each such link is reported once, in the order of the links.
Otherwise nothing is reported: the statements of the row come first and, if it was written,
those of its child rows in their order, up to one that is not saved. Unless the row is a child
of its own, all of these bind the values that the row has after it was written. -/
theorem write_cascades {σ : Type} {h : Handle σ} {lr : LinkedRecord} (hl : lr.Built)
    (hh : lr.AnsweredBy h) (op : TreeOperation) {tree : RowTree RowRef} {w : Workspace}
    (hfits : lr.Fits tree w.rows) (s : σ) :
    ∃ done w', (((lr.write op tree).start w).run h s).1 = (.ok done, w') ∧
      ((∃ t ∈ lr.links, t.isWritable = false) →
        done = false ∧ ((lr.write op tree).start w).heard h s = [] ∧ w'.rows = w.rows ∧
        w'.journal.messages = w.journal.messages) ∧
      ((∀ t ∈ lr.links, t.isWritable = true) → (∃ t ∈ lr.links, ¬ Admitted tree t) →
        done = false ∧ ((lr.write op tree).start w).heard h s = [] ∧ w'.rows = w.rows ∧
        ∃ added, w'.journal.messages = w.journal.messages ++ added ∧
          List.Forall₂ (fun t message => t.link.Blames message)
            (lr.links.filter fun t => ¬ Admitted tree t) added) ∧
      ((∀ t ∈ lr.links, t.isWritable = true) → (∀ t ∈ lr.links, Admitted tree t) →
        w'.journal.messages = w.journal.messages ∧
        ∃ calls row written, op.Heard lr.mapping (w.row tree.row) calls row written ∧
          (written = false → done = false ∧
            ((lr.write op tree).start w).heard h s = calls ∧ w'.rows = w.rows.set tree.row row) ∧
          (written = true → ∃ more, ((lr.write op tree).start w).heard h s = calls ++ more ∧
            ChildrenHeard tree.row (childRows tree lr.links) (w.rows.set tree.row row) more w'.rows
              done ∧
            ((∀ e ∈ childRows tree lr.links, tree.row ≠ e.2) →
              ∀ e ∈ more, ∃ l r, (l, r) ∈ childRows tree lr.links ∧ l.Writes row e.call))) := by
  obtain ⟨done, w', hrun, calls, rows', messages', hwrite, hrows, hmessages, hheard⟩ :=
    (tells_write hl hh op hfits (h := h)).run ⟨rfl, rfl, rfl⟩
  refine ⟨done, w', hrun, ?_⟩
  have hheard : ((lr.write op tree).start w).heard h s = calls := hheard
  have hclash : (∃ t ∈ lr.links, t.isWritable = false) → ¬ ∀ t ∈ lr.links, t.isWritable = true := by
    rintro ⟨t, ht, hfalse⟩ hall
    rw [hall t ht] at hfalse
    cases hfalse
  have hclash' : (∃ t ∈ lr.links, ¬ Admitted tree t) → ¬ ∀ t ∈ lr.links, Admitted tree t :=
    fun ⟨t, ht, hnot⟩ hall => hnot (hall t ht)
  cases hwrite with
  | unwritable hsome =>
    exact ⟨fun _ => ⟨rfl, hheard, hrows, hmessages⟩, fun hall => absurd hall (hclash hsome),
      fun hall => absurd hall (hclash hsome)⟩
  | unadmitted hall hsome hblames =>
    exact ⟨fun hsome => absurd hall (hclash hsome),
      fun _ _ => ⟨rfl, hheard, hrows, _, hmessages, hblames⟩,
      fun _ hadmitted => absurd hadmitted (hclash' hsome)⟩
  | @unwritten calls row hall hadmitted hrow =>
    refine ⟨fun hsome => absurd hall (hclash hsome),
      fun _ hsome => absurd hadmitted (hclash' hsome), fun _ _ => ⟨hmessages, calls, row, false, hrow,
        fun _ => ⟨rfl, hheard, hrows⟩, fun htrue => (nomatch htrue)⟩⟩
  | @written calls more row rows' done hall hadmitted hrow hmore =>
    refine ⟨fun hsome => absurd hall (hclash hsome),
      fun _ hsome => absurd hadmitted (hclash' hsome), fun _ _ => ⟨hmessages, calls, row, true, hrow,
        fun hfalse => (nomatch hfalse), fun _ => ⟨more, hheard, ?_, fun hne => ?_⟩⟩⟩
    · rw [hrows]
      exact hmore
    · have hlen : SameLengths w.rows (w.rows.set tree.row row) := sameLengths_set hrow.length_eq
      have hchildren : ∀ e ∈ childRows tree lr.links, e.1.Built lr.mapping.schema ∧
          tree.row ≠ e.2 ∧
          ((w.rows.set tree.row row).getD e.2 []).length = e.1.child.schema.fields.length := by
        intro e he
        obtain ⟨t, ht, hlink, hr⟩ := mem_childRows he
        rw [hlink]
        exact ⟨hl.links t ht, hne e he, (hlen e.2).trans (hfits.children t ht e.2 hr)⟩
      have hwrites := hmore.writes hchildren
      rwa [getD_set_row hrow.length_eq] at hwrites

/-! ## An order with its lines -/

def orderDeclaration : RecordDeclaration where
  name := "order"
  nameInDb := some "orders"
  useTimestampCheck := false
  operations := []
  fields := [
    RecordSchema.invoiceColumn "id" "id" .integer .generatedPrimaryKey,
    RecordSchema.invoiceColumn "customer" "customer" .text .requiredData]

def lineDeclaration : RecordDeclaration where
  name := "line"
  nameInDb := some "order_lines"
  useTimestampCheck := false
  operations := []
  fields := [
    RecordSchema.invoiceColumn "orderId" "order_id" .integer .primaryKey,
    RecordSchema.invoiceColumn "number" "line_no" .integer .primaryKey,
    RecordSchema.invoiceColumn "product" "product" .text .requiredData]

def orders : Mapping := ⟨RecordSchema.declared orderDeclaration, false, "CURRENT_TIMESTAMP"⟩

def lines : Mapping := ⟨RecordSchema.declared lineDeclaration, false, "CURRENT_TIMESTAMP"⟩

/-- The lines of an order, at least one. -/
def linesDeclaration : LinkDeclaration where
  name := "lines"
  parent := "order"
  child := "line"
  parentFields := ["id"]
  childFields := ["orderId"]
  isMultiRow := true
  minRows := 1
  maxRows := 0
  errorMessageId := none

def linesLink : Link := ((Link.build linesDeclaration orders lines).result? {}).getD default

theorem linesLink_built : linesLink.child = lines ∧ linesLink.Built orders.schema :=
  Link.built_of_result (RecordSchema.valid_declared (by decide +kernel))
    (RecordSchema.valid_declared (by decide +kernel)) (by decide +kernel)

def orderRecord : LinkedRecord := ⟨orders, [.node linesLink []]⟩

theorem orderRecord_built : orderRecord.Built where
  valid := RecordSchema.valid_declared (by decide +kernel)
  links := by
    intro t ht
    rw [List.mem_singleton.mp ht]
    exact linesLink_built.2

/-- A handle that replies with numbers laid down beforehand, and generates the key 7. -/
def counting : Handle (List Int) where
  answer c counts := (⟨.ok (Handle.scriptedReply
    { affected := some (counts.headD 1), key := some (.int 7) } c), []⟩, counts.tail)

theorem counting_answers (m : Mapping) : m.AnsweredBy counting where
  replies _ _ := ⟨_, rfl⟩
  keys g _ values s n key h := by
    obtain rfl : Value.int 7 = key := congrArg Prod.snd (Except.ok.inj h)
    right
    cases g.valueType <;> exact ⟨_, rfl⟩

/-- An order without its key, and two of its lines. -/
def orderRows : Workspace where
  rows := [[.null, .text "Ada"], [.null, .int 1, .text "nuts"], [.null, .int 2, .text "bolts"]]

def orderTree : RowTree RowRef := .node 0 [("lines", [.leaf 1, .leaf 2])]

/-- The order is inserted, then the first line is looked for in vain and inserted, and the second
one is updated. All of these bind the key that the order was given. -/
theorem write_cascades_order : ∃ w' calls row more,
    (((orderRecord.write .insert orderTree).start orderRows).run counting [1, 0, 1, 1]).1 =
      (.ok true, w') ∧
    ((orderRecord.write .insert orderTree).start orderRows).heard counting [1, 0, 1, 1] =
      calls ++ more ∧
    (calls ++ more).length = 4 ∧ orders.InsertHeard (orderRows.row 0) calls row true ∧
    ∀ e ∈ more, ∃ l r, (l, r) ∈ childRows orderTree orderRecord.links ∧ l.Writes row e.call := by
  have hrows : rowsUnder orderTree (.node linesLink []) = [1, 2] := by decide +kernel
  have hfits : orderRecord.Fits orderTree orderRows.rows := by
    refine ⟨by decide +kernel, fun t ht r hr => ?_⟩
    obtain rfl := List.mem_singleton.mp ht
    rw [hrows] at hr
    have hlines : linesLink.child.schema.fields.length = 3 := by decide +kernel
    rcases List.mem_pair.mp hr with rfl | rfl <;> exact hlines.symm
  have hwritable : ∀ t ∈ orderRecord.links, t.isWritable = true := by decide +kernel
  have hadmitted : ∀ t ∈ orderRecord.links, Admitted orderTree t := by decide +kernel
  have hother : ∀ e ∈ childRows orderTree orderRecord.links, orderTree.row ≠ e.2 := by
    decide +kernel
  have hcount : (((orderRecord.write .insert orderTree).start orderRows).heard counting
    [1, 0, 1, 1]).length = 4 := by decide +kernel
  have htrue : (((orderRecord.write .insert orderTree).start orderRows).run counting
    [1, 0, 1, 1]).1.1.toOption = some true := by decide +kernel
  obtain ⟨done, w', hrun, -, -, hcascade⟩ := write_cascades orderRecord_built
    ⟨counting_answers _, fun t _ => counting_answers _⟩ .insert hfits [1, 0, 1, 1]
  obtain ⟨-, calls, row, written, hfirst, hstopped, hwent⟩ := hcascade hwritable hadmitted
  rw [hrun] at htrue
  obtain rfl : done = true := Option.some.inj htrue
  cases written with
  | false => cases (hstopped rfl).1
  | true =>
    obtain ⟨more, hheard, -, hwrites⟩ := hwent rfl
    exact ⟨w', calls, row, more, hrun, hheard, hheard ▸ hcount, hfirst, hwrites hother⟩

end Tablewright.LinkedRecord
