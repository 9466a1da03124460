import Tablewright.Proofs.Link.Added
import Tablewright.Proofs.Link.Placed

/-! Trees that are read back. What was inserted with its child rows is read by its keys with the
same child rows, in the order in which they were given, as long as no child row is found by another
one: neither by its keys as it was given them, nor by the key that the store has generated for it. -/

namespace Tablewright

open Work TableStore

namespace LinkTree

/-- Links that have their trees below a row have a join there, under their names. -/
theorem exists_joinsAll_of_joins {s : TableStore} {row : Row} {ts : List LinkTree}
    {Q : LinkTree → List (RowTree Row) → Prop}
    (h : ∀ t ∈ ts, ∃ trees, t.Joins s row trees ∧ Q t trees) : ∃ below, JoinsAll s ts row below ∧
      List.Forall₂ (fun t branch => branch.1 = t.name ∧ Q t branch.2) ts below := by
  induction ts with
  | nil => exact ⟨[], by rw [JoinsAll], .nil⟩
  | cons t ts ih =>
    obtain ⟨⟨trees, hjoins, htrees⟩, hrest⟩ := List.forall_mem_cons.mp h
    obtain ⟨rest, hbelow, hall⟩ := ih hrest
    refine ⟨(t.name, trees) :: rest, ?_, .cons ⟨rfl, htrees⟩ hall⟩
    rw [JoinsAll]
    exact ⟨trees, rest, rfl, hjoins, hbelow⟩

theorem builtAll_of_nodup {schema : RecordSchema} {ts : List LinkTree}
    (h : ∀ t ∈ ts, t.Built schema) (hnames : (ts.map name).Nodup) : BuiltAll schema ts := by
  induction ts with
  | nil =>
    rw [BuiltAll]
    trivial
  | cons t ts ih =>
    obtain ⟨ht, hts⟩ := List.forall_mem_cons.mp h
    obtain ⟨hname, hnodup⟩ := List.nodup_cons.mp hnames
    rw [BuiltAll]
    exact ⟨ht, hname, ih hts hnodup⟩

/-- The child rows that were added below a row are what hangs below it. -/
theorem exists_joins_of_added {l : Link} {m : Mapping} (hl : l.Carries m) (hlinked : l.isLinked = true)
    {s : TableStore} {p : Supply} (hsuits : l.child.Suits p) {rs : List RowRef}
    {added : RowRef → StoredRow} {old : List StoredRow} {parent found : Row}
    {given final : RowRef → Row} (hkeyed : ∀ r ∈ rs, l.child.Keyed)
    (hfits : ∀ r ∈ rs, l.child.Fits (l.carried parent (given r)))
    (hadded : ∀ r ∈ rs, l.child.AddedAs p (l.carried parent (given r)) (final r) (added r))
    (hrows : l.child.rowsIn s = old ++ rs.map added) (hcount : l.Admits rs.length)
    (hold : ∀ stored ∈ old, stored.agrees (l.conditions parent) = false)
    (hpresent : l.Present parent)
    (hequal : ∀ stored : StoredRow,
      stored.agrees (l.conditions found) = stored.agrees (l.conditions parent)) :
    ∃ trees, (node l []).Joins s found trees ∧ List.Forall₂ (fun r leaf => leaf.children = [] ∧
      l.child.HoldsBound l.child.ownFields (final r) l.child.nullRow leaf.row) rs trees := by
  have hleads : l.linked s found = rs.map added := by
    refine Link.linked_of_added hlinked hrows (fun stored hm => ?_) ?_ (by rwa [List.length_map])
    · rw [hequal]
      exact hold stored hm
    · refine List.forall_mem_map.mpr fun r hr => ?_
      rw [hequal]
      exact hl.agrees (hkeyed r hr) hpresent (hadded r hr)
  have hleaf : ∀ r ∈ rs, ∃ leaf : RowTree Row, l.child.shown (added r) = .ok leaf.row ∧
      leaf.children = [] ∧
        l.child.HoldsBound l.child.ownFields (final r) l.child.nullRow leaf.row := by
    intro r hr
    obtain ⟨row, hshown, hholds⟩ := (hadded r hr).exists_shownIn (hkeyed r hr) hsuits (hfits r hr)
      (show l.child.nullRow.length = _ from List.length_replicate)
    exact ⟨.leaf row, hshown, rfl, hholds⟩
  obtain ⟨trees, htrees⟩ := exists_forall₂ hleaf
  refine ⟨trees, ?_, htrees.imp fun _ _ hleaf => hleaf.2⟩
  rw [Joins, hleads, List.forall₂_map_left_iff]
  refine htrees.imp fun r leaf hleaf => ⟨hleaf.1, ?_⟩
  rw [JoinsAll]
  exact hleaf.2.1

end LinkTree

namespace LinkedRecord

/-- Links that are told apart by their names and their tables, and hand the record's values on to
their children. -/
structure Separate (lr : LinkedRecord) : Prop where
  built : lr.Built
  names : (lr.links.map LinkTree.name).Nodup
  tables : (lr.mapping.table :: lr.links.map (·.link.child.table)).Nodup
  columns : ∀ m ∈ lr.mapping :: lr.links.map (·.link.child), (Mapping.columns m.selectFields).Nodup
  carries : ∀ t ∈ lr.links, t.link.Carries lr.mapping

/-- A store that refuses a second row of the same keys and tenant, and makes keys and stamps that
suit the records. -/
structure Receives (lr : LinkedRecord) (s : TableStore) : Prop where
  key : (s.table lr.mapping.table).key = Mapping.columns lr.mapping.whereFields
  suits : ∀ m ∈ lr.mapping :: lr.links.map (·.link.child), m.Suits s.supply

/-- The rows of a tree hold null and values of their columns' types, and the row at its top has
values for the links that equal themselves, or will get them with its key. -/
structure Typed (lr : LinkedRecord) (tree : RowTree RowRef) (given : RowRef → Row) : Prop where
  row : lr.mapping.Fits (given tree.row)
  children : ∀ t ∈ lr.links, ∀ r ∈ rowsUnder tree t, t.link.child.Fits (given r)
  present : ∀ t ∈ lr.links, ∀ e ∈ t.link.pairs, lr.mapping.schema.generatedKey = some e.1 ∨
    ((given tree.row).getD e.1.index .null).isNull = false ∧
      ((given tree.row).getD e.1.index .null).same ((given tree.row).getD e.1.index .null) = true

/-- Under every link, no stored row is linked to the row yet or found by a child row, and no child
row is found by a later one, under the keys that it has got. -/
structure New (lr : LinkedRecord) (s : TableStore) (tree : RowTree RowRef)
    (given final : RowRef → Row) : Prop where
  linked : ∀ t ∈ lr.links, ∀ stored ∈ t.link.child.rowsIn s,
    stored.agrees (t.link.conditions (final tree.row)) = false
  found : ∀ t ∈ lr.links, ∀ r ∈ rowsUnder tree t, ∀ stored ∈ t.link.child.rowsIn s,
    stored.agrees (t.link.child.identity (t.link.carried (final tree.row) (given r))) = false
  differ : ∀ t ∈ lr.links, (rowsUnder tree t).Pairwise fun r r' =>
    t.link.child.KeysDiffer (final r) (t.link.carried (final tree.row) (given r'))

/-- A tree that was read holds what the rows of another one have bound, stamps apart: at its top,
and under each link in the same order. Nothing hangs below the child rows. -/
structure Holds (lr : LinkedRecord) (tree : RowTree RowRef) (rows : RowRef → Row) (base : Row)
    (found : RowTree Row) : Prop where
  row : lr.mapping.HoldsBound lr.mapping.ownFields (rows tree.row) base found.row
  children : List.Forall₂ (fun t branch => branch.1 = t.name ∧
    List.Forall₂ (fun r leaf => leaf.children = [] ∧ t.link.child.HoldsBound t.link.child.ownFields
      (rows r) t.link.child.nullRow leaf.row) (rowsUnder tree t) branch.2) lr.links found.children

variable {lr : LinkedRecord} {tree : RowTree RowRef} {given final : RowRef → Row} {s s₁ t : TableStore}

theorem Separate.keyed_mapping (h : lr.Separate) (hk : lr.mapping.hasKeys = true) :
    lr.mapping.Keyed := ⟨h.built.valid.sound, hk, h.columns _ List.mem_cons_self⟩

theorem Separate.keyed (h : lr.Separate) {u : LinkTree} (hu : u ∈ lr.links)
    (hk : u.link.child.hasKeys = true) : u.link.child.Keyed :=
  ⟨(h.built.links u hu).child.sound, hk,
    h.columns _ (List.mem_cons_of_mem _ (List.mem_map_of_mem hu))⟩

/-- A record with links that can all be written through is read link by link. -/
theorem Separate.joined (h : lr.Separate) (hwritable : ∀ u ∈ lr.links, u.isWritable = true) :
    lr.Joined where
  valid := h.built.valid
  links := by
    refine LinkTree.builtAll_of_nodup (fun u hu => ?_) h.names
    have hbuilt := h.built.links u hu
    obtain ⟨-, hchildren⟩ := Bool.and_eq_true_iff.mp (hwritable u hu)
    cases u with
    | node l below =>
      obtain rfl : below = [] := List.isEmpty_iff.mp hchildren
      rw [LinkTree.Built, LinkTree.BuiltAll]
      exact ⟨hbuilt, trivial⟩

/-- The values that the links take from the row are there once it was inserted. -/
theorem Typed.present_after (h : lr.Typed tree given) (hm : lr.mapping.Keyed)
    (hsuits : lr.mapping.Suits s.supply)
    (hwrote : lr.mapping.Wrote .insert (given tree.row) s (final tree.row) t) {other : Row}
    (hsame : lr.mapping.SameKeys (final tree.row) other)
    (hcarries : ∀ u ∈ lr.links, u.link.Carries lr.mapping) :
    ∀ u ∈ lr.links, u.link.Present (final tree.row) := by
  intro u hu e he
  by_cases hgen : lr.mapping.schema.generatedKey = some e.1
  · have hwhere := hm.generated_mem_whereFields hgen
    have hfits := hwrote.fits_after hm.sound hsuits h.row
    exact ⟨hwrote.isNull_generated hm hsuits hgen,
      Value.same_self_of_same (hfits.plain hm _ hwhere) (hsame _ hwhere)⟩
  · have hcolumn := (List.mem_filter.mp ((hcarries u hu).mem_ownFields hm he)).1
    have hfield := (List.mem_filter.mp hcolumn).1
    rw [hwrote.sameButKey.getD_eq hm.sound hfield hgen]
    exact (h.present u hu e he).resolve_left hgen

/-- Once the row is inserted, each child row that is saved holds null and values of its columns'
types, with the row's values in it and with its own key. -/
theorem Separate.fits_child (hl : lr.Separate) (hs : lr.Receives s) (htyped : lr.Typed tree given)
    (hwrote : lr.mapping.Wrote .insert (given tree.row) s (final tree.row) s₁)
    (hsaved : AllSaved (final tree.row) given final (childRows tree lr.links) s₁ t)
    {e : Link × RowRef} (he : e ∈ childRows tree lr.links) :
    e.1.child.Keyed ∧ e.1.child.Suits s.supply ∧
      e.1.child.Fits (e.1.carried (final tree.row) (given e.2)) ∧ e.1.child.Fits (final e.2) := by
  obtain ⟨hmapping, hchildren⟩ := List.forall_mem_cons.mp hs.suits
  have hm := hl.keyed_mapping hwrote.keys
  have hfinal : lr.mapping.Fits (final tree.row) := hwrote.fits_after hm.sound hmapping htyped.row
  obtain ⟨s₀, s₂, hsupply, hchild⟩ := hsaved.wrote e he
  obtain ⟨u, hu, hlink, hr⟩ := mem_childRows he
  have hkeyed := hl.keyed hu (hlink ▸ hchild.keys)
  have hsuits := hchildren _ (List.mem_map_of_mem hu)
  have hlen := (Link.length_carry ..).symm.trans hchild.fits
  rw [hlink] at hchild hlen ⊢
  have hfits := (hl.carries u hu).fits hm hkeyed hfinal (htyped.children u hu _ hr) hlen
  refine ⟨hkeyed, hsuits, hfits, hchild.fits_after hkeyed.sound ?_ hfits⟩
  rwa [hsupply, hwrote.supply]

/-- The child rows of a row that was inserted are all added, those of each link to its table. -/
theorem Separate.children_added (hl : lr.Separate) (hs : lr.Receives s) (htyped : lr.Typed tree given)
    (hnew : lr.New s tree given final) (hdistinct : lr.Distinct tree)
    (hwrote : lr.mapping.Wrote .insert (given tree.row) s (final tree.row) s₁)
    (hsaved : AllSaved (final tree.row) given final (childRows tree lr.links) s₁ t) :
    ∃ added : RowRef → StoredRow,
      (∀ e ∈ childRows tree lr.links,
        e.1.child.AddedAs s.supply (e.1.carried (final tree.row) (given e.2)) (final e.2)
          (added e.2)) ∧
      lr.mapping.rowsIn t = lr.mapping.rowsIn s₁ ∧
      ∀ u ∈ lr.links, u.link.child.rowsIn t =
        u.link.child.rowsIn s ++ (rowsUnder tree u).map added := by
  obtain ⟨hparent, htables⟩ := List.nodup_cons.mp hl.tables
  have hfits := fun {e} he => hl.fits_child hs htyped hwrote hsaved (e := e) he
  have hkept : ∀ u ∈ lr.links, u.link.child.rowsIn s₁ = u.link.child.rowsIn s := by
    intro u hu
    obtain ⟨_, -, -, hothers⟩ := hwrote.added nofun
    have hne : lr.mapping.table ≠ u.link.child.table := fun heq =>
      hparent (heq ▸ List.mem_map_of_mem (f := fun t : LinkTree => t.link.child.table) hu)
    exact congrArg Table.rows (hothers _ hne)
  have hapart := pairwise_childRows (R := fun e e' => Mapping.Apart s.supply e.1.child (final e.2)
      e'.1.child (e'.1.carried (final tree.row) (given e'.2))) htables fun u hu =>
    (hnew.differ u hu).imp_of_mem fun hr hr' hdiffer => by
      obtain ⟨hkeyed, hsuits, -, hfinal⟩ := hfits (childRows_mem hu hr)
      obtain ⟨-, -, hcarried, -⟩ := hfits (childRows_mem hu hr')
      exact hdiffer.apart hkeyed.sound hsuits hfinal hcarried
  have hnone : ∀ e ∈ childRows tree lr.links, ∀ stored ∈ e.1.child.rowsIn s₁,
      stored.agrees (e.1.child.identity (e.1.carried (final tree.row) (given e.2))) = false := by
    intro e he stored hstored
    obtain ⟨u, hu, hlink, hr⟩ := mem_childRows he
    rw [hlink] at hstored ⊢
    exact hnew.found u hu _ hr stored (hkept u hu ▸ hstored)
  obtain ⟨added, hadded, hadds⟩ := hsaved.added hwrote.supply (List.nodup_cons.mp hdistinct).2
    (fun e he => (hfits he).1) hapart hnone
  refine ⟨added, hadded, ?_, fun u hu => ?_⟩
  · rw [Mapping.rowsIn, hadds, childRows_of_notMem hparent]
    exact List.append_nil _
  · rw [Mapping.rowsIn, hadds, childRows_of_table htables hu, List.map_map]
    exact congrArg (· ++ _) (hkept u hu)

/-- What is inserted with its child rows is read back by its keys. The row is as it was given, but
for a generated key, and so are its child rows, with the row's values in the link's columns. A read
of any row of the same keys then gives all of them, those of each link in the order in which they
were given, and leaves the store as it is. -/
theorem read_inserted_tree {lr : LinkedRecord} (hl : lr.Separate) (d : Dialect)
    [d.Knows lr.writing] [d.Knows lr.queries] {tree : RowTree RowRef} (hdistinct : lr.Distinct tree)
    {s t : TableStore} (hs : lr.Receives s) {w w' : Workspace} (htyped : lr.Typed tree w.row)
    (hnew : lr.New s tree w.row w'.row)
    (hrun : ((lr.write .insert tree).start w).run d.handle s = ((.ok true, w'), t)) :
    (lr.mapping.SameButKey (w.row tree.row) (w'.row tree.row) ∧
      ∀ e ∈ childRows tree lr.links, e.1.child.SameButKey
        (e.1.carried (w'.row tree.row) (w.row e.2)) (w'.row e.2)) ∧
    ∀ (w₂ : Workspace) (r₂ : RowRef), (w₂.row r₂).length = lr.mapping.schema.fields.length →
      lr.mapping.SameKeys (w'.row tree.row) (w₂.row r₂) →
      ∃ found w₃, ((lr.read r₂).start w₂).run d.handle t = ((.ok (some found), w₃), t) ∧
        lr.Holds tree w'.row (w₂.row r₂) (found.map w₃.row) := by
  have hwritten : lr.Written .insert tree w.rows s w'.rows t true :=
    (ensures_write .insert hdistinct).of_run hrun ⟨rfl, rfl⟩
  obtain ⟨s₁, ⟨hwritable, hadmitted⟩, hwrote, hsaved⟩ := hwritten.of_true hdistinct
  refine ⟨⟨hwrote.sameButKey, fun e he => (hsaved.sameButKey e he).2⟩, fun w₂ r₂ hlen hsame => ?_⟩
  obtain ⟨hmapping, hchildren⟩ := List.forall_mem_cons.mp hs.suits
  have hwrote : lr.mapping.Wrote .insert (w.row tree.row) s (w'.row tree.row) s₁ := hwrote
  have hm := hl.keyed_mapping hwrote.keys
  obtain ⟨added, hadded, hparent, hlinks⟩ :=
    hl.children_added hs htyped hnew hdistinct hwrote hsaved
  obtain ⟨stored, hstored, hfound⟩ := hwrote.exists_stored hm hs.key hmapping htyped.row hsame
  obtain ⟨row, hshown, hholds⟩ := hstored.exists_shownIn hm hmapping htyped.row hlen
  have hfinal : lr.mapping.Fits (w'.row tree.row) :=
    hwrote.fits_after hm.sound hmapping htyped.row
  have hpresent := htyped.present_after hm hmapping hwrote hsame hl.carries
  have htrees : ∀ u ∈ lr.links, ∃ trees, u.Joins t row trees ∧ List.Forall₂ (fun r leaf =>
      leaf.children = [] ∧ u.link.child.HoldsBound u.link.child.ownFields (w'.row r)
        u.link.child.nullRow leaf.row) (rowsUnder tree u) trees := by
    rintro ⟨l, children⟩ hu
    obtain ⟨hlinked, hleaf⟩ := Bool.and_eq_true_iff.mp (hwritable _ hu)
    obtain rfl : children = [] := List.isEmpty_iff.mp hleaf
    have hfits := fun {r} hr => hl.fits_child hs htyped hwrote hsaved (e := (l, r))
      (childRows_mem hu hr)
    exact LinkTree.exists_joins_of_added (hl.carries _ hu) hlinked
      (hchildren _ (List.mem_map_of_mem hu)) (fun r hr => (hfits hr).1)
      (fun r hr => (hfits hr).2.2.1) (fun r hr => hadded _ (childRows_mem hu hr)) (hlinks _ hu)
      (hadmitted _ hu) (hnew.linked _ hu) (hpresent _ hu)
      ((hl.carries _ hu).agrees_found hm hfinal (hpresent _ hu) hholds)
  obtain ⟨below, hbelow, hall⟩ := LinkTree.exists_joinsAll_of_joins htrees
  have hshows : lr.Shows t stored (w₂.row r₂) (.node row below) := ⟨hshown, hbelow⟩
  have hfound : lr.mapping.stored? (w₂.row r₂) t = some stored := by
    rw [Mapping.stored?, hparent]
    exact hfound
  obtain ⟨found, w₃, hread, hmap⟩ :=
    hshows.exists_read_of_stored (d := d) (hl.joined hwritable) hm.keys hlen hfound
  exact ⟨found, w₃, hread, hmap ▸ ⟨hholds, hall⟩⟩

/-! ## An order that is read back with its lines -/

/-- The dialect that knows how rows are written and read with their child rows. -/
def readWriteDialect (lr : LinkedRecord) : Dialect :=
  .reference (lr.writing ++ lr.queries) .ascii fun _ => none

theorem readWriteDialect_knows (lr : LinkedRecord)
    (h : ∀ st ∈ lr.writing ++ lr.queries,
      (lr.writing ++ lr.queries).find? (·.toText == st.toText) = some st) :
    lr.readWriteDialect.Knows (lr.writing ++ lr.queries) := Dialect.knows_reference h ..

theorem orders_separate : orderRecord.Separate where
  built := orderRecord_built
  names := by decide +kernel
  tables := by decide +kernel
  columns := by decide +kernel
  carries := List.forall_mem_singleton.mpr <| linesLink_built.2.carries
    ⟨orderRecord_built.valid.sound, by decide +kernel, by decide +kernel⟩
    ⟨linesLink_built.2.child.sound, by decide +kernel, by decide +kernel⟩
    (by decide +kernel) (by decide +kernel) (by decide +kernel) (by decide +kernel)

theorem orders_received : orderRecord.Receives orderStore where
  key := by decide +kernel
  suits := by
    refine List.forall_mem_cons.mpr ⟨?_, List.forall_mem_singleton.mpr ?_⟩
    · exact Mapping.suits_standard (by decide +kernel) (by decide +kernel)
    · exact Mapping.suits_standard (by decide +kernel) (by decide +kernel)

/-- How the insert of the order with its two lines ends. -/
def orderInserted : (Except Failure Bool × Workspace) × TableStore :=
  ((orderRecord.write .insert orderTree).start orderRows).run orderRecord.readWriteDialect.handle
    orderStore

theorem orders_new : orderRecord.New orderStore orderTree orderRows.row orderInserted.1.2.row where
  linked := by decide +kernel
  found := by decide +kernel
  differ := by decide +kernel

/-- The order is read under the key that it was given, and so are its two lines. -/
theorem read_inserted_tree_order : ∃ w' t found w₃,
    ((orderRecord.write .insert orderTree).start orderRows).run
      orderRecord.readWriteDialect.handle orderStore = ((.ok true, w'), t) ∧
    ((orderRecord.read 0).start ⟨[[.int 101, .null]], {}⟩).run
      orderRecord.readWriteDialect.handle t = ((.ok (some found), w₃), t) ∧
    w'.rows = [[.int 101, .text "Ada"], [.int 101, .int 1, .text "nuts"],
      [.int 101, .int 2, .text "bolts"]] ∧
    orderRecord.Holds orderTree w'.row [.int 101, .null] (found.map w₃.row) := by
  have hknown := readWriteDialect_knows orderRecord (by decide +kernel)
  have hwriting := hknown.mono (List.subset_append_left ..)
  have hqueries := hknown.mono (List.subset_append_right ..)
  have htyped : orderRecord.Typed orderTree orderRows.row := by
    refine ⟨by decide +kernel, by decide +kernel, List.forall_mem_singleton.mpr fun e he => .inl ?_⟩
    have hrole : ∀ e ∈ linesLink.pairs, e.1.role = some .generatedPrimaryKey := by decide +kernel
    have hfield := linesLink_built.2.sound.parents e.1 (List.mem_map_of_mem he)
    exact orderRecord_built.valid.sound.generated_of_role hfield (hrole e he)
  have hresult : orderInserted.1.1.toOption = some true := by decide +kernel
  have hrows : orderInserted.1.2.rows = [[.int 101, .text "Ada"], [.int 101, .int 1, .text "nuts"],
    [.int 101, .int 2, .text "bolts"]] := rfl
  have hsame : orders.SameKeys (orderInserted.1.2.row 0) [.int 101, .null] := by decide +kernel
  have hnew := orders_new
  obtain ⟨⟨⟨result, w'⟩, t⟩, hrun⟩ : ∃ out, orderInserted = out := ⟨_, rfl⟩
  rw [hrun] at hresult hrows hsame hnew
  obtain rfl := eq_ok_of_toOption hresult
  obtain ⟨-, hread⟩ := read_inserted_tree orders_separate orderRecord.readWriteDialect
    (show orderRecord.Distinct orderTree by decide +kernel) orders_received htyped hnew hrun
  obtain ⟨found, w₃, hrun₂, hholds⟩ :=
    hread ⟨[[.int 101, .null]], {}⟩ 0 (by decide +kernel) hsame
  exact ⟨w', t, found, w₃, hrun, hrun₂, hrows, hholds⟩

/-! ## An order that is given the key of another one -/

/-- Cyd with two orders, of which the second one has the key that the store makes for the first. -/
def newcomer : Workspace where
  rows := [[.text "Cyd", .text "Ulm"], [.null, .null], [.int 101, .null]]

def newcomerTree : RowTree RowRef := .node 0 [("orders", [.leaf 1, .leaf 2])]

def newcomerInserted : (Except Failure Bool × Workspace) × TableStore :=
  ((customerOrders.write .insert newcomerTree).start newcomer).run
    customerOrders.readWriteDialect.handle marketStore

theorem customerOrders_separate : customerOrders.Separate where
  built := customerOrders_built
  names := by decide +kernel
  tables := by decide +kernel
  columns := by decide +kernel
  carries := List.forall_mem_singleton.mpr <| ordersLink_built.2.carries
    ⟨customerOrders_built.valid.sound, by decide +kernel, by decide +kernel⟩
    ⟨ordersLink_built.2.child.sound, by decide +kernel, by decide +kernel⟩
    (by decide +kernel) (by decide +kernel) (by decide +kernel) (by decide +kernel)

theorem customerOrders_received : customerOrders.Receives marketStore where
  key := by decide +kernel
  suits := List.forall_mem_cons.mpr ⟨Mapping.suits_standard (by decide +kernel) (by decide +kernel),
    List.forall_mem_singleton.mpr (Mapping.suits_standard (by decide +kernel) (by decide +kernel))⟩

theorem newcomer_typed : customerOrders.Typed newcomerTree newcomer.row where
  row := by decide +kernel
  children := by decide +kernel
  present := by
    have hpresent : ∀ t ∈ customerOrders.links, ∀ e ∈ t.link.pairs,
        ((newcomer.row newcomerTree.row).getD e.1.index .null).isNull = false ∧
          ((newcomer.row newcomerTree.row).getD e.1.index .null).same
            ((newcomer.row newcomerTree.row).getD e.1.index .null) = true := by decide +kernel
    exact fun t ht e he => .inr (hpresent t ht e he)

/-- Before the insert no order is linked to Cyd or has the keys of one of the two orders, which are
different. They are both inserted, but the second one is written over the first. -/
theorem insert_is_not_read_back : customerOrders.Separate ∧
    customerOrders.readWriteDialect.Knows (customerOrders.writing ++ customerOrders.queries) ∧
    customerOrders.Distinct newcomerTree ∧ customerOrders.Receives marketStore ∧
    customerOrders.Typed newcomerTree newcomer.row ∧
    (∀ t ∈ customerOrders.links, ∀ stored ∈ t.link.child.rowsIn marketStore,
      stored.agrees (t.link.conditions (newcomer.row 0)) = false ∧
      ∀ r ∈ rowsUnder newcomerTree t, stored.agrees
        (t.link.child.identity (t.link.carried (newcomer.row 0) (newcomer.row r))) = false) ∧
    (∀ t ∈ customerOrders.links, (rowsUnder newcomerTree t).Pairwise fun r r' =>
      t.link.child.KeysDiffer (t.link.carried (newcomer.row 0) (newcomer.row r))
        (t.link.carried (newcomer.row 0) (newcomer.row r'))) ∧
    ∃ w' t found w₃, ((customerOrders.write .insert newcomerTree).start newcomer).run
        customerOrders.readWriteDialect.handle marketStore = ((.ok true, w'), t) ∧
      ((customerOrders.read 0).start ⟨[[.text "Cyd", .null]], {}⟩).run
        customerOrders.readWriteDialect.handle t = ((.ok (some found), w₃), t) ∧
      customerOrders.links.map (fun t => (rowsUnder newcomerTree t).length) = [2] ∧
      found.children.map (·.2.length) = [1] := by
  refine ⟨customerOrders_separate, readWriteDialect_knows _ (by decide +kernel), by decide +kernel,
    customerOrders_received, newcomer_typed, by decide +kernel, by decide +kernel, ?_⟩
  have hresult : newcomerInserted.1.1.toOption = some true := by decide +kernel
  have hread : (((customerOrders.read 0).start ⟨[[.text "Cyd", .null]], {}⟩).run
      customerOrders.readWriteDialect.handle newcomerInserted.2).1.1.toOption.map
        (Option.map fun found => found.children.map (·.2.length)) = some (some [1]) := by
    decide +kernel
  have hkept : (((customerOrders.read 0).start ⟨[[.text "Cyd", .null]], {}⟩).run
      customerOrders.readWriteDialect.handle newcomerInserted.2).2 = newcomerInserted.2 := rfl
  obtain ⟨⟨⟨result, w'⟩, t⟩, hrun⟩ : ∃ out, newcomerInserted = out := ⟨_, rfl⟩
  rw [hrun] at hresult hread hkept
  obtain rfl := eq_ok_of_toOption hresult
  obtain ⟨⟨⟨found, w₃⟩, t'⟩, hrun₂⟩ : ∃ out, ((customerOrders.read 0).start
    ⟨[[.text "Cyd", .null]], {}⟩).run customerOrders.readWriteDialect.handle t = out := ⟨_, rfl⟩
  rw [hrun₂] at hread hkept
  obtain rfl : t' = t := hkept
  obtain ⟨found, hfound, hcount⟩ := Option.map_eq_some_iff.mp hread
  obtain rfl := eq_ok_of_toOption hfound
  obtain ⟨found, rfl, hone⟩ := Option.map_eq_some_iff.mp hcount
  exact ⟨w', t', found, w₃, hrun, hrun₂, by decide +kernel, hone⟩

end LinkedRecord

end Tablewright
