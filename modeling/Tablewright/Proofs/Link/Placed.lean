import Mathlib.Data.List.Perm.Subperm
import Tablewright.Proofs.Link.Untouched

/-! Where child rows are stored. Every child row that a write with children has saved is stored at a
place of its own, as long as no later one finds it there by its keys; so at least as many stored rows
are linked to the parent as were given. -/

namespace Tablewright

open Work TableStore

/-- At some places stand rows with a property. There are as many such rows at least. -/
theorem length_le_filter {α : Type} {rows : List α} {p : α → Bool} {places : List Nat}
    (hplaces : places.Nodup) (h : ∀ i ∈ places, ∃ a, rows[i]? = some a ∧ p a = true) :
    places.length ≤ (rows.filter p).length := by
  have hsub : places ⊆ (rows.zipIdx.filter fun e => p e.1).map Prod.snd := by
    intro i hi
    obtain ⟨a, ha, hp⟩ := h i hi
    refine List.mem_map.mpr ⟨(a, i), List.mem_filter.mpr ⟨?_, hp⟩, rfl⟩
    exact List.mem_zipIdx_iff_getElem?.mpr ha
  have hcount : (rows.filter p).length = (rows.zipIdx.filter fun e => p e.1).length := by
    have hfilter := List.filter_map (f := Prod.fst) (p := p) (l := rows.zipIdx)
    rw [List.zipIdx_map_fst] at hfilter
    rw [hfilter, List.length_map]
    rfl
  have hle := (List.subperm_of_subset hplaces hsub).length_le
  rwa [List.length_map, ← hcount] at hle

namespace Link

/-- Each column of the link is written with a child row, no two pairs have the same, and the
parent's values for them equal themselves and are not filled in. -/
structure Settles (l : Link) (parent : Row) : Prop where
  columns : ∀ e ∈ l.pairs, e.2 ∈ Mapping.setFields l.child.schema ++ l.child.whereFields ∧
    l.child.schema.generatedKey ≠ some e.2
  once : (l.pairs.map (·.2.index)).Nodup
  values : ∀ e ∈ l.pairs, l.child.fill e.2.valueType (parent.getD e.1.index .null) =
      parent.getD e.1.index .null ∧
    (parent.getD e.1.index .null).same (parent.getD e.1.index .null) = true

variable {l : Link} {p : Supply} {parent child row : Row} {stored : StoredRow}

/-- What bears a child row is linked to its parent. -/
theorem Settles.agrees (h : l.Settles parent) (hs : l.child.schema.Sound)
    (hlen : child.length = l.child.schema.fields.length)
    (hrow : l.child.SameButKey (l.carried parent child) row)
    (hbears : l.child.Bears p row stored) : stored.agrees (l.conditions parent) = true := by
  refine agrees_conditions.mpr fun e he => ?_
  obtain ⟨hcolumn, hkey⟩ := h.columns e he
  obtain ⟨hfill, hsame⟩ := h.values e he
  have hfield : e.2 ∈ l.child.schema.fields := by
    rcases List.mem_append.mp hcolumn with hset | hwhere
    · exact (List.mem_filter.mp (Mapping.setFields_columns e.2 hset)).1
    · have hmem := Mapping.updateConditions_columns hs e.2 (List.mem_append_left _ hwhere)
      exact (List.mem_filter.mp hmem).1
  have hbound : l.child.boundValue e.2 row = parent.getD e.1.index .null := by
    have hvalue : (l.carried parent child).getD e.2.index .null = parent.getD e.1.index .null :=
      carry_once h.once he (hlen ▸ hs.index_lt hfield)
    rw [Mapping.boundValue, hrow.getD_eq hs hfield hkey, hvalue, hfill]
  have hbelongs := hbears.bound e.2 hcolumn hkey
  rw [hbound] at hbelongs
  rcases hbelongs with heq | hown
  · exact (congrArg (Value.same · _) heq).trans hsame
  · exact hown

end Link

namespace LinkedRecord

variable {children rest : List (Link × RowRef)} {rows : List Row} {s t : TableStore} {base : Row}
  {given final : RowRef → Row}

/-- Every child row has nothing but the parent's values in the link's columns and its generated key
in its place, and it fits. -/
theorem AllSaved.sameButKey (h : AllSaved base given final children s t) : ∀ e ∈ children,
    (given e.2).length = e.1.child.schema.fields.length ∧
      e.1.child.SameButKey (e.1.carried base (given e.2)) (final e.2) := by
  intro e he
  obtain ⟨_, _, -, hwrote⟩ := h.wrote e he
  exact ⟨(Link.length_carry ..).symm.trans hwrote.fits, hwrote.sameButKey⟩

/-- Later child rows do not find what earlier ones on their table were stored as. -/
def KeptApart (p : Supply) (children : List (Link × RowRef)) (rows : List Row) : Prop :=
  children.Pairwise fun e e' => e.1.child.table = e'.1.child.table →
    Mapping.Apart p e.1.child (rows.getD e.2 []) e'.1.child (rows.getD e'.2 [])

/-- Where child rows are stored: each at a place of its table where a stored row bears it, no two
of a table at the same place. -/
structure Placed (p : Supply) (children : List (Link × RowRef)) (rows : List Row) (t : TableStore)
    (place : RowRef → Nat) : Prop where
  bears : ∀ e ∈ children, ∃ stored : StoredRow, (e.1.child.rowsIn t)[place e.2]? = some stored ∧
    e.1.child.Bears p (rows.getD e.2 []) stored
  apart : children.Pairwise fun e e' => e.1.child.table = e'.1.child.table →
    place e.2 ≠ place e'.2

/-- One more child row has a place of its own, if its place is none of the others'. -/
theorem Placed.cons {p : Supply} {l : Link} {child : RowRef} {place placed : RowRef → Nat}
    (h : Placed p rest rows t place) {stored : StoredRow}
    (hplace : (l.child.rowsIn t)[placed child]? = some stored)
    (hbears : l.child.Bears p (rows.getD child []) stored)
    (hothers : ∀ e ∈ rest, placed e.2 = place e.2)
    (hapart : ∀ e ∈ rest, l.child.table = e.1.child.table → placed child ≠ place e.2) :
    Placed p ((l, child) :: rest) rows t placed where
  bears := by
    refine List.forall_mem_cons.mpr ⟨⟨stored, hplace, hbears⟩, fun e he => ?_⟩
    rw [hothers e he]
    exact h.bears e he
  apart := by
    refine List.pairwise_cons.mpr ⟨fun e he htable => ?_, h.apart.imp_of_mem ?_⟩
    · rw [hothers e he]
      exact hapart e he htable
    · intro e e' he he' hrest htable
      rw [hothers e he, hothers e' he']
      exact hrest htable

/-- Child rows that were saved have places of their own. What was stored at these before was found
by one of them. -/
theorem AllSaved.placed {p : Supply} (h : AllSaved base given (rows.getD · []) children s t)
    (hp : s.supply = p) (hdistinct : (children.map Prod.snd).Nodup)
    (hkeyed : ∀ e ∈ children, e.1.child.schema.Sound ∧
      (Mapping.columns e.1.child.selectFields).Nodup)
    (hapart : KeptApart p children rows) :
    ∃ place, Placed p children rows t place ∧ ∀ e ∈ children, ∀ stored : StoredRow,
      (e.1.child.rowsIn s)[place e.2]? = some stored → ∃ e' ∈ children,
        e'.1.child.table = e.1.child.table ∧
        stored.agrees (e'.1.child.identity (rows.getD e'.2 [])) = true := by
  induction h with
  | nil => exact ⟨fun _ => 0, ⟨by simp, .nil⟩, by simp⟩
  | @cons l child rest s s₁ t hwrote hrest ih =>
    obtain ⟨hfirst, hrestApart⟩ := List.pairwise_cons.mp hapart
    obtain ⟨hl, hrestKeyed⟩ := List.forall_mem_cons.mp hkeyed
    simp only [List.map_cons, List.nodup_cons] at hdistinct
    obtain ⟨hchild, hnodup⟩ := hdistinct
    obtain ⟨i, stored, hi, hbears, hold⟩ := hwrote.place hl.1 hl.2
    rw [hp] at hbears
    obtain ⟨place, hplaced, hbefore⟩ := ih (hwrote.supply.trans hp) hnodup hrestKeyed hrestApart
    -- No later row finds the one that was stored first, so none takes its place.
    have hkept : ∀ e ∈ rest, e.1.child.table = l.child.table →
        ¬ stored.agrees (e.1.child.identity (rows.getD e.2 [])) = true := by
      intro e he htable
      rw [hfirst e he htable.symm stored hbears]
      exact nofun
    have hstays : (l.child.rowsIn t)[i]? = some stored := hrest.stays _ i stored hi
      fun ⟨e, he, htable, hfound⟩ => hkept e he htable hfound.keys
    obtain ⟨placed, rfl, hothers⟩ := exists_extended hchild place i
    refine ⟨placed, hplaced.cons hstays hbears hothers fun e he htable heq => ?_,
      List.forall_mem_cons.mpr ⟨fun old hthere => ?_, fun e he old hthere => ?_⟩⟩
    · have hthere : (e.1.child.rowsIn s₁)[place e.2]? = some stored := by
        rw [Mapping.rowsIn, ← htable, ← heq]
        exact hi
      obtain ⟨e', he', htable', hfound⟩ := hbefore e he stored hthere
      exact hkept e' he' (htable'.trans htable.symm) hfound
    · obtain ⟨hagrees, hsame⟩ := hold old hthere
      exact ⟨_, List.mem_cons_self, rfl, by rwa [hsame]⟩
    · rw [hothers e he] at hthere
      by_cases hfound : e.1.child.table = l.child.table ∧
          old.agrees (l.child.identity (l.carried base (given child))) = true ∧
          rows.getD child [] = l.carried base (given child)
      · obtain ⟨htable, hagrees, hsame⟩ := hfound
        exact ⟨_, List.mem_cons_self, htable.symm, by rwa [hsame]⟩
      · obtain ⟨e', he', hlater⟩ := hbefore e he old (hwrote.stays _ _ old hthere hfound)
        exact ⟨e', List.mem_cons_of_mem _ he', hlater⟩

/-- The child rows of a link are as many as are linked to their parent, or less. -/
theorem Placed.length_le {lr : LinkedRecord} {tree : RowTree RowRef} {p : Supply} {u : LinkTree}
    {place : RowRef → Nat} (h : Placed p (childRows tree lr.links) rows t place)
    (hu : u ∈ lr.links) {parent : Row}
    (hagrees : ∀ e ∈ childRows tree lr.links, e.1 = u.link → ∀ stored : StoredRow,
      e.1.child.Bears p (rows.getD e.2 []) stored →
        stored.agrees (u.link.conditions parent) = true) :
    (rowsUnder tree u).length ≤
      ((u.link.child.rowsIn t).filter (·.agrees (u.link.conditions parent))).length := by
  have hsub : ((rowsUnder tree u).map (u.link, ·)).Sublist (childRows tree lr.links) := by
    rw [childRows, List.flatMap_def]
    exact List.sublist_flatten_of_mem (List.mem_map_of_mem hu)
  have hplaces : ((rowsUnder tree u).map place).Nodup := by
    have hpairs := List.pairwise_map.mp (h.apart.sublist hsub)
    exact List.pairwise_map.mpr (hpairs.imp fun hne => hne rfl)
  rw [← List.length_map (f := place)]
  refine length_le_filter hplaces fun i hi => ?_
  obtain ⟨r, hr, rfl⟩ := List.mem_map.mp hi
  have he := hsub.subset (List.mem_map_of_mem hr)
  obtain ⟨stored, hplace, hbears⟩ := h.bears _ he
  exact ⟨stored, hplace, hagrees _ he rfl stored hbears⟩

/-- After a write with children that was done, every child row has the parent's values in the link's
columns and is as it was given elsewhere, but for a generated key; and if no later child row has the
keys of an earlier one on its table, each is stored at a place of its own, with its values in the
columns that updates set and in those that it is found by. So at least as many stored rows are
linked to the parent as were given, if the link's columns are among these. -/
theorem write_stores_children {lr : LinkedRecord} (hl : lr.Built)
    (hnames : ∀ u ∈ lr.links, (Mapping.columns u.link.child.selectFields).Nodup) (d : Dialect)
    [d.Knows lr.writing] (op : TreeOperation) {tree : RowTree RowRef} (hdistinct : lr.Distinct tree)
    {w w' : Workspace} {s t : TableStore}
    (hrun : ((lr.write op tree).start w).run d.handle s = ((.ok true, w'), t)) :
    (∀ e ∈ childRows tree lr.links, e.1.child.SameButKey
      (e.1.carried (w'.row tree.row) (w.row e.2)) (w'.row e.2)) ∧
    (KeptApart s.supply (childRows tree lr.links) w'.rows →
      (∃ place, Placed s.supply (childRows tree lr.links) w'.rows t place) ∧
      ∀ u ∈ lr.links, u.link.Settles (w'.row tree.row) →
        (rowsUnder tree u).length ≤ ((u.link.child.rowsIn t).filter
          (·.agrees (u.link.conditions (w'.row tree.row)))).length) := by
  have hwritten : lr.Written op tree w.rows s w'.rows t true :=
    (ensures_write op hdistinct).of_run hrun ⟨rfl, rfl⟩
  obtain ⟨s₁, -, hwrote, hsaved⟩ := hwritten.of_true hdistinct
  have hchild : ∀ e ∈ childRows tree lr.links, e.1.child.schema.Sound ∧
      (Mapping.columns e.1.child.selectFields).Nodup := by
    intro e he
    obtain ⟨u, hu, hlink, -⟩ := mem_childRows he
    rw [hlink]
    exact ⟨(hl.links u hu).child.sound, hnames u hu⟩
  have hrows := hsaved.sameButKey
  refine ⟨fun e he => (hrows e he).2, fun hapart => ?_⟩
  obtain ⟨place, hplaced, -⟩ :=
    hsaved.placed hwrote.supply (List.nodup_cons.mp hdistinct).2 hchild hapart
  refine ⟨⟨place, hplaced⟩, fun u hu hsettles => hplaced.length_le hu ?_⟩
  intro e he hlink stored hbears
  obtain ⟨hlen, hrow⟩ := hrows e he
  have hsound := (hchild e he).1
  rw [hlink] at hlen hrow hsound hbears
  exact hsettles.agrees hsound hlen hrow hbears

/-! ## The lines of an order -/

/-- The number of the order is one of the keys of its lines. -/
theorem linesLink_settles {parent : Row} (hid : parent.getD 0 .null = .int 101) :
    linesLink.Settles parent where
  columns e he := by
    have hsound := linesLink_built.2.child.sound
    have hkeys : ∀ e ∈ linesLink.pairs, e.2.index ∈ linesLink.child.whereFields.map (·.index) := by
      decide +kernel
    have hcolumns : linesLink.child.whereFields ⊆ linesLink.child.schema.fields := fun f hf =>
      (List.mem_filter.mp (Mapping.updateConditions_columns hsound f (List.mem_append_left _ hf))).1
    have hnone : linesLink.child.schema.generatedKey = none :=
      Option.isNone_iff_eq_none.mp (by decide +kernel)
    refine ⟨List.mem_append_right _ (hsound.mem_of_index hcolumns ?_ (hkeys e he)), ?_⟩
    · exact linesLink_built.2.sound.children e.2 (List.mem_map_of_mem he)
    · rw [hnone]
      exact nofun
  once := by decide +kernel
  values e he := by
    have hplace : ∀ e ∈ linesLink.pairs, e.1.index = 0 ∧ linesLink.child.nullAsZero = false := by
      decide +kernel
    obtain ⟨hindex, hfill⟩ := hplace e he
    rw [hindex, hid]
    exact ⟨Mapping.fill_of_not_null rfl, by decide +kernel⟩

/-- How the insert of an order with its two lines ends. -/
def linesInserted : (Except Failure Bool × Workspace) × TableStore :=
  ((orderRecord.write .insert orderTree).start orderRows).run orderRecord.writingDialect.handle
    orderStore

/-- An order and its two lines are inserted. Both lines are linked to it. -/
theorem write_stores_children_order : ∃ w' t,
    ((orderRecord.write .insert orderTree).start orderRows).run
      orderRecord.writingDialect.handle orderStore = ((.ok true, w'), t) ∧
    (∃ place, Placed orderStore.supply (childRows orderTree orderRecord.links) w'.rows t place) ∧
    2 ≤ ((linesLink.child.rowsIn t).filter (·.agrees (linesLink.conditions (w'.row 0)))).length := by
  have hknown := orders_writing
  have hresult : linesInserted.1.1.toOption = some true := by decide +kernel
  have hkeys : ∃ f ∈ linesLink.child.whereFields,
      (linesLink.child.boundValue f (linesInserted.1.2.rows.getD 1 [])).isPlain = true ∧
      (linesLink.child.boundValue f (linesInserted.1.2.rows.getD 2 [])).isPlain = true ∧
      (linesLink.child.boundValue f (linesInserted.1.2.rows.getD 1 [])).same
        (linesLink.child.boundValue f (linesInserted.1.2.rows.getD 2 [])) = false := by
    decide +kernel
  have hid : (linesInserted.1.2.row 0).getD 0 .null = .int 101 := rfl
  obtain ⟨⟨⟨result, w'⟩, t⟩, hrun⟩ : ∃ out, linesInserted = out := ⟨_, rfl⟩
  rw [hrun] at hresult hkeys hid
  obtain rfl := eq_ok_of_toOption hresult
  obtain ⟨f, hf, hplain, hplain', hdiffer⟩ := hkeys
  have hnone : linesLink.child.schema.generatedKey = none :=
    Option.isNone_iff_eq_none.mp (by decide +kernel)
  have hchildren : childRows orderTree orderRecord.links = [(linesLink, 1), (linesLink, 2)] := rfl
  have hapart : KeptApart orderStore.supply (childRows orderTree orderRecord.links) w'.rows := by
    rw [hchildren]
    refine List.pairwise_pair.mpr fun _ => Mapping.apart_of_key hf (fun stored hbears => ?_) hplain
      hplain' hdiffer
    exact hbears.bound f (List.mem_append_right _ hf) (by rw [hnone]; exact nofun)
  obtain ⟨-, hstored⟩ := write_stores_children orderRecord_built (by decide +kernel)
    orderRecord.writingDialect .insert (show orderRecord.Distinct orderTree by decide +kernel) hrun
  obtain ⟨hplaced, hcount⟩ := hstored hapart
  exact ⟨w', t, hrun, hplaced, hcount (.node linesLink []) (.head _) (linesLink_settles hid)⟩

/-- An order with two lines of the same number. -/
def sameLines : Workspace where
  rows := [[.null, .text "Ada"], [.null, .int 1, .text "nuts"], [.null, .int 1, .text "bolts"]]

/-- How the insert of the order with these lines ends. -/
def lineLost : (Except Failure Bool × Workspace) × TableStore :=
  ((orderRecord.write .insert orderTree).start sameLines).run orderRecord.writingDialect.handle
    orderStore

/-- Both lines are saved, but the second one is written over the first. -/
theorem insert_loses_line : orderRecord.Built ∧
    (∀ u ∈ orderRecord.links, (Mapping.columns u.link.child.selectFields).Nodup) ∧
    (∀ u ∈ orderRecord.links, u.isWritable = true) ∧ orderRecord.Distinct orderTree ∧
    orderRecord.writingDialect.Knows orderRecord.writing ∧
    ∃ w' t, ((orderRecord.write .insert orderTree).start sameLines).run
        orderRecord.writingDialect.handle orderStore = ((.ok true, w'), t) ∧
      ∃ u ∈ orderRecord.links, ((u.link.child.rowsIn t).filter
        (·.agrees (u.link.conditions (w'.row orderTree.row)))).length <
          (rowsUnder orderTree u).length := by
  refine ⟨orderRecord_built, by decide +kernel, by decide +kernel, by decide +kernel,
    orders_writing, ?_⟩
  have hresult : lineLost.1.1.toOption = some true := by decide +kernel
  have hcount : ∃ u ∈ orderRecord.links, ((u.link.child.rowsIn lineLost.2).filter
      (·.agrees (u.link.conditions (lineLost.1.2.row orderTree.row)))).length <
        (rowsUnder orderTree u).length := by decide +kernel
  obtain ⟨⟨⟨result, w'⟩, t⟩, hrun⟩ : ∃ out, lineLost = out := ⟨_, rfl⟩
  rw [hrun] at hresult hcount
  obtain rfl := eq_ok_of_toOption hresult
  exact ⟨w', t, hrun, hcount⟩

end LinkedRecord

end Tablewright
