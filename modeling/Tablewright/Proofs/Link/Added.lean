import Tablewright.Proofs.Link.Forest
import Tablewright.Proofs.Link.Saved
import Tablewright.Proofs.Store.Added

/-! Child rows that are new to a store. If no stored row is found by a child row, and no child row
finds an earlier one, then each of them is added behind what is stored in its table. So if no stored
row was linked to the parent before, these are the ones that the link leads to, in the order in which
they were given. -/

namespace Tablewright

open Work TableStore

namespace Link

variable {l : Link} {m : Mapping} {s : TableStore} {parent child base found : Row} {stored : StoredRow}

/-- A link hands values of a record on to its children: each column of the child is written by an
insert, is of the type of the parent's column, and gets one value. The parent has the value once it
was inserted. -/
structure Carries (l : Link) (m : Mapping) : Prop where
  parents : ∀ e ∈ l.pairs, m.schema.generatedKey = some e.1 ∨ e.1 ∈ m.insertBound
  children : ∀ e ∈ l.pairs, e.2 ∈ l.child.insertBound
  types : ∀ e ∈ l.pairs, e.1.valueType = e.2.valueType
  once : (l.pairs.map (·.2.index)).Nodup

theorem Carries.mem_ownFields (h : l.Carries m) (hm : m.Keyed) {e : Field × Field}
    (he : e ∈ l.pairs) : e.1 ∈ m.ownFields := by
  rcases h.parents e he with hgen | hbound
  · obtain ⟨hcolumn, hrole⟩ := hm.sound.generated_mem hgen
    exact List.mem_filter.mpr ⟨hcolumn, by simp [Mapping.IsStamp, hrole]⟩
  · rw [Mapping.insertBound_eq hm.keys] at hbound
    obtain ⟨hinserted, hstamp⟩ := List.mem_filter.mp hbound
    exact List.mem_filter.mpr ⟨(List.mem_filter.mp hinserted).1, hstamp⟩

/-- Whether a link hands values on can be told by the places of its fields. -/
theorem Built.carries (h : l.Built m.schema) (hm : m.Keyed) (hl : l.child.Keyed)
    (hparents : ∀ e ∈ l.pairs, e.1.role = some .generatedPrimaryKey ∨
      e.1.index ∈ m.insertBound.map (·.index))
    (hchildren : ∀ e ∈ l.pairs, e.2.index ∈ l.child.insertBound.map (·.index))
    (htypes : ∀ e ∈ l.pairs, e.1.valueType = e.2.valueType)
    (honce : (l.pairs.map (·.2.index)).Nodup) : l.Carries m := by
  have hfields : ∀ {m : Mapping}, m.Keyed → m.insertBound ⊆ m.schema.fields := fun hm f hf =>
    (List.mem_filter.mp (hm.sublist_insertBound.subset hf)).1
  refine ⟨fun e he => ?_, fun e he => ?_, htypes, honce⟩
  · have hfield := h.sound.parents e.1 (List.mem_map_of_mem he)
    rcases hparents e he with hrole | hplace
    · exact .inl (hm.sound.generated_of_role hfield hrole)
    · exact .inr (hm.sound.mem_of_index (hfields hm) hfield hplace)
  · have hfield := h.sound.children e.2 (List.mem_map_of_mem he)
    exact hl.sound.mem_of_index (hfields hl) hfield (hchildren e he)

/-- A child row of values of its columns' types is one with its parent's values in it. -/
theorem Carries.fits (h : l.Carries m) (hm : m.Keyed) (hl : l.child.Keyed) (hparent : m.Fits parent)
    (hchild : l.child.Fits child) (hlen : child.length = l.child.schema.fields.length) :
    l.child.Fits (l.carried parent child) := by
  intro f hf
  have hfield := (List.mem_filter.mp hf).1
  rcases carry_place parent l.pairs child (hlen ▸ hl.sound.index_lt hfield) with
    ⟨p, c, hpair, hindex, hvalue⟩ | ⟨-, hvalue⟩
  · have hcolumn := hl.sublist_insertBound.subset (h.children _ hpair)
    obtain rfl := hl.sound.eq_of_index (List.mem_filter.mp hcolumn).1 hfield hindex
    rw [carried, hvalue, ← h.types _ hpair]
    exact hparent p (List.mem_filter.mp (h.mem_ownFields hm hpair)).1
  · rw [carried, hvalue]
    exact hchild f hf

/-- The parent's values for the link are there and equal themselves. -/
def Present (l : Link) (parent : Row) : Prop := ∀ e ∈ l.pairs,
  (parent.getD e.1.index .null).isNull = false ∧
    (parent.getD e.1.index .null).same (parent.getD e.1.index .null) = true

/-- A row that was added for a child row is linked to the parent. -/
theorem Carries.agrees {p : Supply} {row : Row} (h : l.Carries m) (hl : l.child.Keyed)
    (hpresent : l.Present parent)
    (hadded : l.child.AddedAs p (l.carried parent child) row stored) :
    stored.agrees (l.conditions parent) = true := by
  obtain @⟨s, key, rfl, hlen, -, -⟩ := hadded
  refine agrees_conditions.mpr fun e he => ?_
  obtain ⟨hnull, hsame⟩ := hpresent e he
  have hcolumn := h.children e he
  have hfield := (List.mem_filter.mp (hl.sublist_insertBound.subset hcolumn)).1
  have hplace : e.2.index < child.length :=
    ((length_carry ..).symm.trans hlen) ▸ hl.sound.index_lt hfield
  have hvalue : (l.carried parent child).getD e.2.index .null = parent.getD e.1.index .null :=
    carry_once h.once he hplace
  have hbound := hl.column_inserted hcolumn (l.carried parent child) s
  rw [Mapping.boundValue, hvalue, Mapping.fill_of_not_null hnull] at hbound
  exact (congrArg (Value.same · _) hbound).trans hsame

/-- The parent that was read is linked to the same stored rows as the one that was written. -/
theorem Carries.agrees_found (h : l.Carries m) (hm : m.Keyed) (hparent : m.Fits parent)
    (hpresent : l.Present parent) (hholds : m.HoldsBound m.ownFields parent base found)
    (stored : StoredRow) :
    stored.agrees (l.conditions found) = stored.agrees (l.conditions parent) := by
  rw [Bool.eq_iff_iff, agrees_conditions, agrees_conditions]
  refine forall₂_congr fun e he => ?_
  have hown := h.mem_ownFields hm he
  have hplain : (parent.getD e.1.index .null).isPlain = true :=
    ValueType.isPlain_of_keeps (hparent e.1 (List.mem_filter.mp hown).1)
  obtain ⟨v, hplace, hvalue⟩ := hholds.columns e.1 hown
  have hvalueFound : found.getD e.1.index .null = v := by
    rw [List.getD_eq_getElem?_getD, hplace, Option.getD_some]
  rw [hvalueFound]
  rw [Mapping.boundValue, Mapping.fill_of_not_null (hpresent e he).1] at hvalue
  obtain rfl | hsame := hvalue
  · rfl
  · have hfound := Value.isPlain_of_same hplain hsame
    exact ⟨fun hcolumn => Value.same_of_same hfound hcolumn (Value.same_comm hplain hsame),
      fun hcolumn => Value.same_of_same hplain hcolumn hsame⟩

/-- A link leads to the stored rows that were added as its children, if it admits as many and none
was linked before. -/
theorem linked_of_added {old new : List StoredRow} (hl : l.isLinked = true)
    (hrows : l.child.rowsIn s = old ++ new)
    (hold : ∀ stored ∈ old, stored.agrees (l.conditions parent) = false)
    (hnew : ∀ stored ∈ new, stored.agrees (l.conditions parent) = true)
    (hcount : l.Admits new.length) : l.linked s parent = new := by
  have hfilter : (l.child.rowsIn s).filter (·.agrees (l.conditions parent)) = new := by
    rw [hrows, List.filter_append, List.filter_eq_self.mpr hnew]
    rw [List.filter_eq_nil_iff.mpr fun stored hm => by rw [hold stored hm]; exact nofun]
    rfl
  rw [linked, hfilter, hl]
  cases hmulti : l.isMultiRow with
  | true => rfl
  | false => exact List.take_of_length_le (hcount.2 hmulti).2

end Link

namespace LinkedRecord

variable {tree : RowTree RowRef} {ts : List LinkTree} {children rest : List (Link × RowRef)}
  {s t : TableStore} {base : Row} {given final : RowRef → Row} {p : Supply}

/-! ## The child rows of a table -/

theorem childRows_of_notMem {name : String} (h : name ∉ ts.map (·.link.child.table)) :
    (childRows tree ts).filter (·.1.child.table == name) = [] := by
  rw [List.filter_eq_nil_iff]
  intro e he htable
  obtain ⟨u, hu, hlink, -⟩ := mem_childRows he
  refine h (List.mem_map.mpr ⟨u, hu, ?_⟩)
  rw [← hlink]
  exact beq_iff_eq.mp htable

/-- If links lead to different tables, the child rows that go to one table are those under its
link. -/
theorem childRows_of_table (htables : (ts.map (·.link.child.table)).Nodup) {u : LinkTree}
    (hu : u ∈ ts) : (childRows tree ts).filter (·.1.child.table == u.link.child.table) =
      (rowsUnder tree u).map (u.link, ·) := by
  induction ts with
  | nil => cases hu
  | cons t ts ih =>
    rw [List.map_cons, List.nodup_cons] at htables
    rw [childRows, List.flatMap_cons, List.filter_append]
    rcases List.mem_cons.mp hu with rfl | hu
    · have hfirst : ∀ e ∈ (rowsUnder tree u).map (u.link, ·),
          (e.1.child.table == u.link.child.table) = true :=
        List.forall_mem_map.mpr fun r _ => beq_self_eq_true _
      rw [List.filter_eq_self.mpr hfirst]
      exact (congrArg (_ ++ ·) (childRows_of_notMem htables.1)).trans (List.append_nil _)
    · have hfirst : ∀ e ∈ (rowsUnder tree t).map (t.link, ·),
          ¬ (e.1.child.table == u.link.child.table) = true := by
        refine List.forall_mem_map.mpr fun r _ htable => htables.1 ?_
        rw [beq_iff_eq.mp htable]
        exact List.mem_map_of_mem hu
      rw [List.filter_eq_nil_iff.mpr hfirst]
      exact ih htables.2 hu

/-- Child rows relate, wherever they go to the same table, if those under each link do. -/
theorem pairwise_childRows {R : Link × RowRef → Link × RowRef → Prop}
    (htables : (ts.map (·.link.child.table)).Nodup)
    (h : ∀ u ∈ ts, (rowsUnder tree u).Pairwise fun r r' => R (u.link, r) (u.link, r')) :
    (childRows tree ts).Pairwise fun e e' => e.1.child.table = e'.1.child.table → R e e' := by
  refine List.pairwise_flatMap.mpr ⟨fun u hu => ?_, ?_⟩
  · refine List.pairwise_map.mpr ((h u hu).imp ?_)
    exact fun hrel _ => hrel
  · refine (List.pairwise_map.mp htables).imp fun {u u'} hne e he e' he' htable => ?_
    obtain ⟨r, -, rfl⟩ := List.mem_map.mp he
    obtain ⟨r', -, rfl⟩ := List.mem_map.mp he'
    exact absurd htable hne

/-! ## Child rows that nothing finds -/

/-- Child rows of which none finds a stored row or an earlier one are all added, in their order. -/
theorem AllSaved.added (h : AllSaved base given final children s t) (hp : s.supply = p)
    (hdistinct : (children.map Prod.snd).Nodup)
    (hkeyed : ∀ e ∈ children, e.1.child.Keyed)
    (hapart : children.Pairwise fun e e' => e.1.child.table = e'.1.child.table →
      Mapping.Apart p e.1.child (final e.2) e'.1.child (e'.1.carried base (given e'.2)))
    (hnone : ∀ e ∈ children, ∀ stored ∈ e.1.child.rowsIn s,
      stored.agrees (e.1.child.identity (e.1.carried base (given e.2))) = false) :
    ∃ added : RowRef → StoredRow,
      (∀ e ∈ children,
        e.1.child.AddedAs p (e.1.carried base (given e.2)) (final e.2) (added e.2)) ∧
      ∀ name, (t.table name).rows = (s.table name).rows ++
        (children.filter (·.1.child.table == name)).map (added ·.2) := by
  induction h with
  | nil => exact ⟨fun _ => [], by simp, by simp⟩
  | @cons l child rest s s₁ t hwrote hrest ih =>
    obtain ⟨hfirst, hrestApart⟩ := List.pairwise_cons.mp hapart
    obtain ⟨hl, hrestKeyed⟩ := List.forall_mem_cons.mp hkeyed
    obtain ⟨hnew, hrestNew⟩ := List.forall_mem_cons.mp hnone
    simp only [List.map_cons, List.nodup_cons] at hdistinct
    obtain ⟨hchild, hnodup⟩ := hdistinct
    obtain ⟨stored, hstored, hrows, hothers⟩ := hwrote.added fun _ _ => Mapping.not_takes hnew
    rw [hp] at hstored
    -- No later row finds the one that was added first.
    have hlater : ∀ e ∈ rest, ∀ old ∈ e.1.child.rowsIn s₁,
        old.agrees (e.1.child.identity (e.1.carried base (given e.2))) = false := by
      intro e he old hold
      by_cases htable : l.child.table = e.1.child.table
      · have hthere : e.1.child.rowsIn s₁ = e.1.child.rowsIn s ++ [stored] := by
          rw [Mapping.rowsIn, Mapping.rowsIn, ← htable]
          exact hrows
        rw [hthere, List.mem_append, List.mem_singleton] at hold
        rcases hold with hold | rfl
        · exact hrestNew e he old hold
        · exact hfirst e he htable _ (hstored.bears hl)
      · rw [Mapping.rowsIn, hothers _ htable] at hold
        exact hrestNew e he old hold
    obtain ⟨added, hall, htables⟩ := ih (hwrote.supply.trans hp) hnodup hrestKeyed hrestApart hlater
    obtain ⟨more, hself, hmore⟩ := exists_extended hchild added stored
    refine ⟨more, List.forall_mem_cons.mpr ⟨hself ▸ hstored, fun e he => ?_⟩, fun name => ?_⟩
    · rw [hmore e he]
      exact hall e he
    · have hmap : (rest.filter (·.1.child.table == name)).map (added ·.2) =
          (rest.filter (·.1.child.table == name)).map (more ·.2) :=
        List.map_congr_left fun e he => (hmore e (List.mem_filter.mp he).1).symm
      rw [htables, hmap, List.filter_cons]
      by_cases hname : l.child.table = name
      · subst hname
        rw [if_pos (beq_self_eq_true _), List.map_cons, hself, ← Mapping.rowsIn, hrows,
          List.append_assoc]
        rfl
      · rw [if_neg fun htable => hname (beq_iff_eq.mp htable), hothers _ hname]

end LinkedRecord

end Tablewright
