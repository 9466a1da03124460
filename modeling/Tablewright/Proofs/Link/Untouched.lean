import Tablewright.Proofs.Link.Saved
import Tablewright.Proofs.Link.Trees

/-! Stored rows that a write with children does not touch. A stored row is found by its keys and its
tenant, and by nothing else: so the rows of other parents stay as they are, unless the tree names
their keys. Where a link's column is one of the keys, the tree cannot name them, as the parent's
value is carried into it. -/

namespace Tablewright

open Work TableStore

namespace LinkedRecord

/-- A stored row differs from a parent row in a column of the link that the child rows are found
by. -/
def Sheltered (l : Link) (parent : Row) (stored : StoredRow) : Prop :=
  ∃ c ∈ l.child.whereFields, (∃ e ∈ l.pairs, e.2.index = c.index) ∧
    ∀ e ∈ l.pairs, e.2.index = c.index → (stored.column c.columnName).same
      (l.child.fill c.valueType (parent.getD e.1.index .null)) = false

instance (l : Link) (parent : Row) (stored : StoredRow) : Decidable (Sheltered l parent stored) :=
  inferInstanceAs (Decidable (∃ c ∈ l.child.whereFields, _))

/-- No child row finds what differs from its parent in a key. -/
theorem Sheltered.not_found {l : Link} (hs : l.child.schema.Sound) {parent child row : Row}
    {stored : StoredRow} (h : Sheltered l parent stored) : ¬ Found l parent child row stored := by
  rintro ⟨rfl, hlen, hkeys⟩
  obtain ⟨c, hc, ⟨e, he, hindex⟩, hdiffers⟩ := h
  have hcolumn := Mapping.updateConditions_columns hs c (List.mem_append_left _ hc)
  have hplace : c.index < child.length :=
    (Link.length_carry ..).symm.trans hlen ▸ hs.index_lt (List.mem_filter.mp hcolumn).1
  rcases Link.carry_place parent l.pairs child hplace with ⟨p, c', hpair, hi, hvalue⟩ | ⟨hnone, -⟩
  · have hsame := Mapping.same_of_identity hkeys hc
    have hbound : l.child.boundValue c (l.carried parent child) =
        l.child.fill c.valueType (parent.getD p.index .null) := congrArg _ hvalue
    rw [hbound, hdiffers _ hpair hi] at hsame
    cases hsame
  · exact hnone e he hindex

variable {lr : LinkedRecord} {op : TreeOperation} {tree : RowTree RowRef} {rows rows' : List Row}
  {s t : TableStore} {done : Bool}

/-- A write with children leaves every stored row at its place, unless the row itself or one of its
child rows found it. -/
theorem Written.stays (h : lr.Written op tree rows s rows' t done) (hdistinct : lr.Distinct tree) :
    s.StaysBut (fun name stored =>
      name = lr.mapping.table ∧ stored.agrees (lr.mapping.identity (rows.getD tree.row [])) = true ∨
      ∃ e ∈ childRows tree lr.links, e.1.child.table = name ∧
        Found e.1 (rows'.getD tree.row []) (rows.getD e.2 []) (rows'.getD e.2 []) stored) t := by
  cases h with
  | unwritten hstays => exact hstays.stays
  | @written row _ _ _ _ _ _ hwrote hsaved =>
    obtain ⟨hparent, -⟩ := List.nodup_cons.mp hdistinct
    have hrow := hsaved.row_of_notMem hparent
    refine StaysBut.trans (hwrote.stays.mono ?_) ((hsaved.stays hdistinct).mono ?_)
    · exact fun _ _ ⟨hname, hagrees, _⟩ => .inl ⟨hname, hagrees⟩
    · rintro name stored ⟨e, he, htable, hfound⟩
      have hne : e.2 ≠ tree.row := fun heq => hparent (heq ▸ List.mem_map_of_mem he)
      rw [← hrow, getD_set_of_ne _ hne] at hfound
      exact .inr ⟨e, he, htable, hfound⟩

/-- Whatever is written with its child rows, and however it ends, every stored row is at its place
with the same contents afterwards, unless it has the keys and the tenant of the row itself, or those
of a child row with its parent's values in it. In a table that only links lead to whose columns are
among the keys of the child, so is every row that differs from the parent in these, whatever keys
the child rows name. -/
theorem write_spares_others {lr : LinkedRecord} (hl : lr.Built) (d : Dialect)
    [d.Knows lr.writing] (op : TreeOperation) {tree : RowTree RowRef} (hdistinct : lr.Distinct tree)
    {w w' : Workspace} {s t : TableStore} {result : Except Failure Bool}
    (hrun : ((lr.write op tree).start w).run d.handle s = ((result, w'), t)) :
    (∀ (name : String) (i : Nat) (stored : StoredRow), (s.table name).rows[i]? = some stored →
      ¬ (name = lr.mapping.table ∧ stored.agrees (lr.mapping.identity (w.row tree.row)) = true) →
      (∀ e ∈ childRows tree lr.links, e.1.child.table = name →
        ¬ Found e.1 (w'.row tree.row) (w.row e.2) (w'.row e.2) stored) →
      (t.table name).rows[i]? = some stored) ∧
    ∀ (name : String) (i : Nat) (stored : StoredRow), (s.table name).rows[i]? = some stored →
      name ≠ lr.mapping.table →
      (∀ u ∈ lr.links, u.link.child.table = name → Sheltered u.link (w'.row tree.row) stored) →
      (t.table name).rows[i]? = some stored := by
  have hstays : s.StaysBut (fun name stored =>
      name = lr.mapping.table ∧ stored.agrees (lr.mapping.identity (w.row tree.row)) = true ∨
      ∃ e ∈ childRows tree lr.links, e.1.child.table = name ∧
        Found e.1 (w'.row tree.row) (w.row e.2) (w'.row e.2) stored) t :=
    (ensures_write op hdistinct).elim_run hrun ⟨rfl, rfl⟩ (fun done hend => hend.stays hdistinct)
      fun hend => hend.stays hdistinct
  refine ⟨fun name i stored hstored hself hchildren => hstays name i stored hstored ?_,
    fun name i stored hstored hname hshelter => hstays name i stored hstored ?_⟩
  · rintro (hfound | ⟨e, he, htable, hfound⟩)
    · exact hself hfound
    · exact hchildren e he htable hfound
  · rintro (⟨heq, -⟩ | ⟨e, he, htable, hfound⟩)
    · exact hname heq
    · obtain ⟨u, hu, hlink, -⟩ := mem_childRows he
      rw [hlink] at htable hfound
      exact (hshelter u hu htable).not_found (hl.links u hu).child.sound hfound

/-! ## Orders and their lines -/

def orderStore : TableStore where
  tables := [
    ("orders", { key := ["id"], rows := [
      [("id", .int 1), ("customer", .text "Ada")],
      [("id", .int 2), ("customer", .text "Bob")]] }),
    ("order_lines", { key := ["order_id", "line_no"], rows := [
      [("order_id", .int 2), ("line_no", .int 1), ("product", .text "nuts")]] })]

/-- The first order, with a line that names the key of a line of the second one. -/
def strayLine : Workspace where
  rows := [[.int 1, .text "Eve"], [.int 2, .int 1, .text "bolts"]]

def strayTree : RowTree RowRef := .node 0 [("lines", [.leaf 1])]

/-- The dialect that knows how rows are written with their child rows. -/
def writingDialect (lr : LinkedRecord) : Dialect := .reference lr.writing .ascii fun _ => none

theorem orders_writing : orderRecord.writingDialect.Knows orderRecord.writing :=
  Dialect.knows_reference (by decide +kernel) ..

/-- How the update of the first order with its line ends. -/
def strayWritten : (Except Failure Bool × Workspace) × TableStore :=
  ((orderRecord.write .update strayTree).start strayLine).run orderRecord.writingDialect.handle
    orderStore

/-- The first order gets a line of its own. The second order and its line are as they were. -/
theorem write_spares_others_order : ∃ w' t,
    ((orderRecord.write .update strayTree).start strayLine).run
      orderRecord.writingDialect.handle orderStore = ((.ok true, w'), t) ∧
    (t.table "orders").rows[1]? = some [("id", .int 2), ("customer", .text "Bob")] ∧
    (t.table "order_lines").rows[0]? =
      some [("order_id", .int 2), ("line_no", .int 1), ("product", .text "nuts")] ∧
    (t.table "order_lines").rows.length = 2 := by
  have hknown := orders_writing
  have hresult : strayWritten.1.1.toOption = some true := by decide +kernel
  have hparent : ∀ u ∈ orderRecord.links, u.link.child.table = "order_lines" →
      Sheltered u.link (strayWritten.1.2.row strayTree.row)
        [("order_id", .int 2), ("line_no", .int 1), ("product", .text "nuts")] := by decide +kernel
  have hcount : (strayWritten.2.table "order_lines").rows.length = 2 := by decide +kernel
  obtain ⟨⟨⟨result, w'⟩, t⟩, hrun⟩ : ∃ out, strayWritten = out := ⟨_, rfl⟩
  rw [hrun] at hresult hparent hcount
  obtain rfl := eq_ok_of_toOption hresult
  obtain ⟨hothers, hsheltered⟩ := write_spares_others orderRecord_built orderRecord.writingDialect
    .update (show orderRecord.Distinct strayTree by decide +kernel) hrun
  refine ⟨w', t, hrun, hothers "orders" 1 _ rfl ?_ ?_,
    hsheltered "order_lines" 0 _ rfl (by decide +kernel) hparent, hcount⟩
  · decide +kernel
  · intro e he htable
    have htables : ∀ e ∈ childRows strayTree orderRecord.links, e.1.child.table ≠ "orders" := by
      decide +kernel
    exact absurd htable (htables e he)

/-! ## A customer who takes an order -/

/-- Customers with their orders, which have keys of their own. -/
def customerOrders : LinkedRecord := ⟨customers, [.node ordersLink []]⟩

theorem customerOrders_built : customerOrders.Built where
  valid := RecordSchema.valid_declared (by decide +kernel)
  links := by
    intro t ht
    rw [List.mem_singleton.mp ht]
    exact ordersLink_built.2

theorem customerOrders_writing : customerOrders.writingDialect.Knows customerOrders.writing :=
  Dialect.knows_reference (by decide +kernel) ..

def marketStore : TableStore where
  tables := [
    ("customers", { key := ["name"], rows := [
      [("name", .text "Ada"), ("city", .text "Ulm")],
      [("name", .text "Bob"), ("city", .text "Ulm")]] }),
    ("orders", { key := ["id"], rows := [
      [("id", .int 1), ("customer", .text "Ada")],
      [("id", .int 2), ("customer", .text "Bob")]] })]

/-- Ada, with the key of an order of Bob's among her own. -/
def takenOrder : Workspace where
  rows := [[.text "Ada", .text "Ulm"], [.int 2, .null]]

def takenTree : RowTree RowRef := .node 0 [("orders", [.leaf 1])]

/-- How the update of Ada with the order ends. -/
def orderTaken : (Except Failure Bool × Workspace) × TableStore :=
  ((customerOrders.write .update takenTree).start takenOrder).run
    customerOrders.writingDialect.handle marketStore

/-- Ada is updated with the order, which was Bob's and is his no more. -/
theorem update_takes_order : customerOrders.Built ∧ (∀ t ∈ customerOrders.links, t.isWritable = true) ∧
    customerOrders.writingDialect.Knows customerOrders.writing ∧ customerOrders.Distinct takenTree ∧
    ∃ w' t, ((customerOrders.write .update takenTree).start takenOrder).run
        customerOrders.writingDialect.handle marketStore = ((.ok true, w'), t) ∧
      ∃ stored ∈ ordersLink.child.rowsIn marketStore,
        stored.agrees (ordersLink.conditions (w'.row takenTree.row)) = false ∧
        stored ∉ ordersLink.child.rowsIn t := by
  refine ⟨customerOrders_built, by decide +kernel, customerOrders_writing, by decide +kernel, ?_⟩
  have hresult : orderTaken.1.1.toOption = some true := by decide +kernel
  have hdiffers : StoredRow.agrees [("id", .int 2), ("customer", .text "Bob")]
      (ordersLink.conditions (orderTaken.1.2.row takenTree.row)) = false := by decide +kernel
  have hgone : ∀ stored ∈ ordersLink.child.rowsIn orderTaken.2,
      (stored.column "customer").same (.text "Bob") = false := by decide +kernel
  obtain ⟨⟨⟨result, w'⟩, t⟩, hrun⟩ : ∃ out, orderTaken = out := ⟨_, rfl⟩
  rw [hrun] at hresult hdiffers hgone
  obtain rfl := eq_ok_of_toOption hresult
  have horders : ordersLink.child.rowsIn marketStore = orders.rowsIn marketStore := by
    rw [ordersLink_built.1]
  refine ⟨w', t, hrun, _, ?_, hdiffers, fun hm => nomatch hgone _ hm⟩
  rw [horders]
  exact .tail _ (.head _)

end LinkedRecord

end Tablewright
