import Tablewright.Proofs.Link.Copying
import Tablewright.Proofs.Link.Forest

/-! Reading what hangs below a row. The rows that are read are put behind those that are there, so
that what has been read already stays as it is; and what is read below a row is the join of all
links with the stored rows. -/

namespace Tablewright

open Work TableStore RowTree

variable {rows : List Row} {s : TableStore} {r : RowRef}

/-! ## The child rows of a row -/

namespace Link

variable {l : Link} {d : Dialect} {known : List Statement}

/-- The text by which child rows are read is that of the link's query. -/
theorem query_toText (hl : l.isLinked = true) :
    Mapping.clauseSql l.child.selectText (some l.whereText) = l.query.toText := by
  have hne : Mapping.columns l.childFields ≠ [] := by
    simpa [isLinked, Mapping.columns, childFields] using hl
  have hhead : l.whereText.toList.head? = some 'W' := by simp [whereText, Statement.whereText]
  have hlast := Statement.getLast?_whereText hne
  have htext : l.whereText ≠ "" := by
    intro h
    rw [h] at hhead
    cases hhead
  rw [query, Statement.select_toText hne, Mapping.clauseSql, if_neg htext]
  exact congrArg _ (Text.strip_eq hhead hlast (by decide) (by decide))

theorem zip_values (l : Link) (parent : Row) :
    (Mapping.columns l.childFields).zip (l.values parent) = l.conditions parent := by
  rw [Mapping.columns, childFields, values, parentFields, List.map_map, List.map_map, List.zip_map']
  rfl

/-- What the link's query finds. -/
theorem find_query (l : Link) (s : TableStore) (parent : Row) :
    s.find (l.values parent) l.query.stored =
      .ok (((l.child.rowsIn s).filter (·.agrees (l.conditions parent))).map fun stored =>
        (Mapping.columns l.child.selectFields).map stored.column) := by
  rw [query, Statement.stored, find, zip_values]
  rfl

/-- The child rows of a row show the stored rows that the link leads to, in their order. It
fails if one of these cannot be shown. -/
theorem ensures_childRows [hd : d.Knows known] (hq : l.query ∈ known) (hl : l.isLinked = true)
    (hp : ∀ p ∈ l.parentFields, p.index < (rows.getD r []).length) :
    Ensures d.handle (At rows s) (l.childRows r)
      (fun rs w t => ∃ made, List.Forall₂ (l.child.ShownAt (rows ++ made))
        (l.linked s (rows.getD r [])) rs ∧ At (rows ++ made) s w t)
      (fun _ t => (∃ stored ∈ l.linked s (rows.getD r []), ∀ row, l.child.shown stored ≠ .ok row) ∧
        t = s) := by
  refine (ensures_knownValues hp).bind fun values => ensures_of fun heq => ?_
  subst heq
  have hquery := (hd.query _ hq s _).trans (find_query l s (rows.getD r []))
  rw [← query_toText hl] at hquery
  unfold linked
  rw [hl]
  simp only [Bool.not_true, Bool.false_eq_true, if_false]
  split
  · exact Mapping.suffices_selectFields.ensures_collectRows hquery
  · exact (Mapping.ensures_filterFirst hquery).bind fun first => ensures_pure fun w t hpre => hpre

end Link

/-! ## What hangs below rows -/

namespace LinkTree

variable {d : Dialect} {known : List Statement} {schema : RecordSchema}

/-- The tree of references has grown below a row: what it holds is the join of all links with
the stored rows, and does not change when more rows are put behind those that are there. -/
structure Grown (s : TableStore) (ts : List LinkTree) (rows : List Row) (tree : RowTree RowRef) :
    Prop where
  row_lt : tree.row < rows.length
  joins : JoinsAll s ts (rows.getD tree.row []) (mapChildren (rows.getD · []) tree.children)
  lasts : Lasts rows (mapChildren · tree.children)

theorem Grown.append {ts : List LinkTree} {tree : RowTree RowRef} (h : Grown s ts rows tree)
    (more : List Row) : Grown s ts (rows ++ more) tree where
  row_lt := Nat.lt_of_lt_of_le h.row_lt (by simp)
  joins := by
    have hchildren := h.lasts more
    beta_reduce at hchildren
    rw [hchildren, List.getD_append _ _ _ _ h.row_lt]
    exact h.joins
  lasts := h.lasts.append more

theorem Grown.lasts_map {ts : List LinkTree} {tree : RowTree RowRef} (h : Grown s ts rows tree) :
    Lasts rows (tree.map ·) := by
  cases tree
  exact lasts_node h.row_lt h.lasts

/-- What was found below a row, with the rows that were made for it, has grown below it. -/
theorem Grown.of_joins {ts : List LinkTree} {made : List Row}
    {cs : List (String × List (RowTree RowRef))} (hr : r < rows.length)
    (hjoins : JoinsAll s ts (rows.getD r []) (mapChildren ((rows ++ made).getD · []) cs))
    (hlasts : Lasts (rows ++ made) (mapChildren · cs)) : Grown s ts (rows ++ made) (.node r cs) where
  row_lt := Nat.lt_of_lt_of_le hr (by simp)
  joins := by rwa [RowTree.row, List.getD_append _ _ _ _ hr]
  lasts := hlasts

/-- Reading below any row that fits the record ends with what has grown below it, and fails only
where there is no such thing. -/
def ReadsBelow (d : Dialect) (s : TableStore) (schema : RecordSchema) (ts : List LinkTree) : Prop :=
  ∀ {rows : List Row} {r : RowRef}, r < rows.length →
    (rows.getD r []).length = schema.fields.length →
    Ensures d.handle (At rows s) (readAll ts r [])
      (fun cs w t => ∃ made, Grown s ts (rows ++ made) (.node r cs) ∧ At (rows ++ made) s w t)
      (fun _ t => (∀ below, ¬ JoinsAll s ts (rows.getD r []) below) ∧ t = s)

/-- A row with all that is read below it. -/
theorem ensures_node {ts : List LinkTree} (hts : ReadsBelow d s schema ts) (hr : r < rows.length)
    (hlen : (rows.getD r []).length = schema.fields.length) :
    Ensures d.handle (At rows s) (do return .node r (← readAll ts r []))
      (fun tree w t => ∃ made, (tree.row = r ∧ Grown s ts (rows ++ made) tree) ∧
        At (rows ++ made) s w t)
      (fun _ t => (∀ below, ¬ JoinsAll s ts (rows.getD r []) below) ∧ t = s) :=
  (hts hr hlen).bind fun _ => ensures_pure fun _ _ ⟨made, hgrown, hpre⟩ =>
    ⟨made, ⟨rfl, hgrown⟩, hpre⟩

/-- Rows that show stored ones, each with all that is read below it. -/
theorem ensures_nodes {m : Mapping} {ts : List LinkTree} (hts : ReadsBelow d s m.schema ts)
    {found : List StoredRow} {rs : List RowRef}
    (hfound : List.Forall₂ (m.ShownAt rows) found rs) :
    Ensures d.handle (At rows s) (rs.mapM fun r => do return .node r (← readAll ts r []))
      (fun trees w t => ∃ made, List.Forall₂ (fun stored tree =>
          m.shown stored = .ok ((rows ++ made).getD tree.row []) ∧ Grown s ts (rows ++ made) tree)
        found trees ∧ At (rows ++ made) s w t)
      (fun _ t => (∃ stored ∈ found, ∃ row, m.shown stored = .ok row ∧
        ∀ below, ¬ JoinsAll s ts row below) ∧ t = s) := by
  induction found generalizing rows rs with
  | nil =>
    cases hfound
    exact ensures_pure fun w t hpre => ⟨[], .nil, by rwa [List.append_nil]⟩
  | cons stored found ih =>
    obtain _ | ⟨⟨hr, hshown⟩, hfound⟩ := hfound
    rw [List.mapM_cons]
    refine ((ensures_node hts hr (Mapping.length_shown hshown)).imp (fun _ _ => id)
      (fun _ _ _ => id) ?_).bind fun tree => ensures_exists fun made => ensures_of fun htree => ?_
    · rintro w t ⟨hnone, ht⟩
      exact ⟨⟨stored, List.mem_cons_self, _, hshown, hnone⟩, ht⟩
    obtain ⟨rfl, hgrown⟩ := htree
    refine ((ih (hfound.imp fun _ _ ho => ho.append made)).imp (fun _ _ => id)
      (fun _ _ _ => id) ?_).bind fun trees => ensures_pure ?_
    · rintro w t ⟨⟨other, ho, hother⟩, ht⟩
      exact ⟨⟨other, List.mem_cons_of_mem _ ho, hother⟩, ht⟩
    · rintro w t ⟨more, htrees, hpre⟩
      rw [List.append_assoc] at htrees hpre
      refine ⟨made ++ more, .cons ⟨?_, ?_⟩ htrees, hpre⟩
      · rw [List.getD_append _ _ _ _ hr, hshown]
      · rw [← List.append_assoc]
        exact hgrown.append more

/-- The trees of a link below a row are its join with the stored rows. -/
theorem ensures_readNode [d.Knows known] {l : Link} {below : List LinkTree} (hb : l.Built schema)
    (hq : (node l below).queries ⊆ known) (hbelow : ReadsBelow d s l.child.schema below)
    (hlen : (rows.getD r []).length = schema.fields.length) :
    Ensures d.handle (At rows s) ((node l below).read r)
      (fun trees w t => ∃ made,
        ((node l below).Joins s (rows.getD r []) (mapAll ((rows ++ made).getD · []) (trees.getD [])) ∧
          Lasts (rows ++ made) (mapAll · (trees.getD []))) ∧ At (rows ++ made) s w t)
      (fun _ t => (∀ trees, ¬ (node l below).Joins s (rows.getD r []) trees) ∧ t = s) := by
  rw [LinkTree.read]
  split
  · rename_i hl
    refine (ensures_note Mapping.unlogged_at).bind fun _ => ensures_pure fun w t hpre =>
      ⟨[], ⟨?_, fun _ => rfl⟩, by rwa [List.append_nil]⟩
    rw [Joins, Link.linked, if_pos hl]
    exact .nil
  · rename_i hl
    have hl : l.isLinked = true := by simpa using hl
    rw [queries, if_pos hl] at hq
    have hp : ∀ p ∈ l.parentFields, p.index < (rows.getD r []).length := fun p hm =>
      hlen ▸ hb.parent.sound.index_lt (hb.sound.parents p hm)
    refine ((Link.ensures_childRows (hq (by simp)) hl hp).imp (fun _ _ => id) (fun _ _ _ => id)
      ?_).bind fun rs => ensures_exists fun made => ensures_of fun hfound => ?_
    · rintro w t ⟨⟨stored, hm, hnone⟩, ht⟩
      refine ⟨fun trees hjoins => ?_, ht⟩
      obtain ⟨tree, hshown, -⟩ := hjoins.exists_tree hm
      exact hnone _ hshown
    refine ((ensures_nodes hbelow hfound).imp (fun _ _ => id) (fun _ _ _ => id) ?_).bind
      fun trees => ensures_pure ?_
    · rintro w t ⟨⟨stored, hm, row, hrow, hnone⟩, ht⟩
      refine ⟨fun trees hjoins => ?_, ht⟩
      obtain ⟨tree, hshown, htree⟩ := hjoins.exists_tree hm
      obtain rfl := Except.ok.inj (hrow.symm.trans hshown)
      exact hnone _ htree
    · rintro w t ⟨more, htrees, hpre⟩
      rw [List.append_assoc] at htrees hpre
      refine ⟨made ++ more, ⟨?_, lasts_all fun tree htree => ?_⟩, hpre⟩
      · rw [Joins, Option.getD_some, mapAll_eq, List.forall₂_map_right_iff]
        refine htrees.imp fun stored tree htree => ?_
        rw [row_map, children_map]
        exact ⟨htree.1, htree.2.joins⟩
      · obtain ⟨i, hi, rfl⟩ := List.getElem_of_mem htree
        exact (htrees.get (htrees.length_eq ▸ hi) hi).2.lasts_map

mutual

/-- The trees of a link below a row are its join with the stored rows, and reading them fails only
where there is no such join. -/
theorem ensures_read [d.Knows known] : ∀ {t : LinkTree} {schema : RecordSchema} {rows : List Row} {r : RowRef},
    t.Built schema → t.queries ⊆ known → (rows.getD r []).length = schema.fields.length →
    Ensures d.handle (At rows s) (t.read r)
      (fun trees w s' => ∃ made,
        (t.Joins s (rows.getD r []) (mapAll ((rows ++ made).getD · []) (trees.getD [])) ∧
          Lasts (rows ++ made) (mapAll · (trees.getD []))) ∧ At (rows ++ made) s w s')
      (fun _ s' => (∀ trees, ¬ t.Joins s (rows.getD r []) trees) ∧ s' = s)
  | node l below, schema, rows, r, hb, hq, hlen => by
    rw [LinkTree.Built] at hb
    refine ensures_readNode hb.1 hq (fun hrow hlen => ?_) hlen
    refine (ensures_readAll hb.2 ?_ (by simp) hrow hlen).imp (fun _ _ => id) ?_ fun _ _ => id
    · rw [queries] at hq
      exact (List.append_subset.mp hq).2
    · rintro cs w s' ⟨made, _, rfl, ⟨hjoins, hlasts⟩, hpre⟩
      exact ⟨made, .of_joins hrow hjoins hlasts, hpre⟩

theorem ensures_readAll [d.Knows known] : ∀ {ts : List LinkTree} {schema : RecordSchema} {rows : List Row}
    {r : RowRef} {found : List (String × List (RowTree RowRef))}, BuiltAll schema ts →
    queriesAll ts ⊆ known → (∀ t ∈ ts, t.name ∉ found.map Prod.fst) → r < rows.length →
    (rows.getD r []).length = schema.fields.length →
    Ensures d.handle (At rows s) (readAll ts r found)
      (fun cs w s' => ∃ made more, cs = found ++ more ∧
        (JoinsAll s ts (rows.getD r []) (mapChildren ((rows ++ made).getD · []) more) ∧
          Lasts (rows ++ made) (mapChildren · more)) ∧ At (rows ++ made) s w s')
      (fun _ s' => (∀ below, ¬ JoinsAll s ts (rows.getD r []) below) ∧ s' = s)
  | [], schema, rows, r, found, _, _, _, _, _ => by
    rw [readAll]
    refine ensures_pure fun w s' hpre => ⟨[], [], (List.append_nil _).symm, ⟨?_, fun _ => rfl⟩, ?_⟩
    · rw [JoinsAll, mapChildren]
    · rwa [List.append_nil]
  | t :: ts, schema, rows, r, found, hb, hq, hnames, hr, hlen => by
    rw [BuiltAll] at hb
    rw [queriesAll] at hq
    obtain ⟨ht, hname, hts⟩ := hb
    obtain ⟨hqt, hqts⟩ := List.append_subset.mp hq
    obtain ⟨hnew, hnames⟩ := List.forall_mem_cons.mp hnames
    rw [readAll]
    refine ((ensures_read ht hqt hlen).imp (fun _ _ => id) (fun _ _ _ => id) ?_).bind fun trees =>
      ensures_exists fun made => ensures_of fun hjoined => ?_
    · rintro w s' ⟨hnone, hs⟩
      refine ⟨fun below hbelow => ?_, hs⟩
      rw [JoinsAll] at hbelow
      obtain ⟨trees, rest, -, htrees, -⟩ := hbelow
      exact hnone _ htrees
    obtain ⟨hjoins, hlasts⟩ := hjoined
    have hput : Entries.put t.link.name (trees.getD []) found = found ++ [(t.name, trees.getD [])] :=
      Entries.put_of_notMem hnew _
    have hrow : (rows ++ made).getD r [] = rows.getD r [] := List.getD_append _ _ _ _ hr
    rw [hput, ← hrow]
    refine (ensures_readAll hts hqts (fun other ho => ?_) (Nat.lt_of_lt_of_le hr (by simp))
      (hrow ▸ hlen)).imp (fun _ _ => id) ?_ ?_
    · rw [List.map_append, List.map_singleton, List.mem_append, List.mem_singleton, not_or]
      refine ⟨hnames other ho, fun heq => hname ?_⟩
      exact List.mem_map.mpr ⟨other, ho, heq⟩
    · rintro cs w s' ⟨more, new, rfl, ⟨hnew, hnewLasts⟩, hpre⟩
      rw [List.append_assoc] at hnew hnewLasts hpre
      refine ⟨made ++ more, (t.name, trees.getD []) :: new, List.append_assoc .., ⟨?_, ?_⟩, hpre⟩
      · rw [JoinsAll, mapChildren]
        refine ⟨_, _, rfl, ?_, hnew⟩
        have hview := hlasts more
        beta_reduce at hview
        rw [← List.append_assoc, hview, hrow]
        exact hjoins
      · have hview := hlasts.append more
        rw [List.append_assoc] at hview
        intro later
        beta_reduce
        rw [mapChildren, mapChildren]
        exact congrArg₂ (fun trees cs => (t.name, trees) :: cs) (hview later) (hnewLasts later)
    · rintro w s' ⟨hnone, hs⟩
      refine ⟨fun below hbelow => ?_, hs⟩
      rw [JoinsAll] at hbelow
      obtain ⟨_, rest, -, -, hrest⟩ := hbelow
      exact hnone _ hrest

end

theorem readsBelow_of_built [d.Knows known] {ts : List LinkTree} (hts : BuiltAll schema ts)
    (hq : queriesAll ts ⊆ known) : ReadsBelow d s schema ts := by
  intro rows r hr hlen
  refine (ensures_readAll hts hq (by simp) hr hlen).imp (fun _ _ => id) ?_ fun _ _ => id
  rintro cs w s' ⟨made, _, rfl, ⟨hjoins, hlasts⟩, hpre⟩
  exact ⟨made, .of_joins hr hjoins hlasts, hpre⟩

end LinkTree

end Tablewright
