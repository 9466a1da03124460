import Tablewright.Proofs.Link.Cascade
import Tablewright.Proofs.Link.Queries
import Tablewright.Proofs.Link.Joining

/-! Rows with all that hangs below them, as they are read by their keys and as a filter finds
them. -/

namespace Tablewright

open Work TableStore

variable {rows : List Row} {s : TableStore} {r : RowRef}

/-! ## Stores of which everything can be read -/

namespace Link

theorem linked_subset (l : Link) (s : TableStore) (parent : Row) :
    l.linked s parent ⊆ l.child.rowsIn s := by
  unfold linked
  split
  · exact List.nil_subset _
  · split
    · exact List.filter_subset_self _
    · exact List.Subset.trans (List.take_subset ..) (List.filter_subset_self _)

end Link

namespace LinkTree

mutual

/-- The records whose rows hang below a row. -/
def mappings : LinkTree → List Mapping
  | node l below => l.child :: mappingsAll below

def mappingsAll : List LinkTree → List Mapping
  | [] => []
  | t :: ts => t.mappings ++ mappingsAll ts

end

theorem exists_forall₂ {α β : Type} {R : α → β → Prop} {l : List α} (h : ∀ a ∈ l, ∃ b, R a b) :
    ∃ bs, List.Forall₂ R l bs := by
  induction l with
  | nil => exact ⟨[], .nil⟩
  | cons a l ih =>
    obtain ⟨⟨b, hb⟩, hl⟩ := List.forall_mem_cons.mp h
    obtain ⟨bs, hbs⟩ := ih hl
    exact ⟨b :: bs, .cons hb hbs⟩

mutual

/-- If all that is stored can be read, every row has its join. -/
theorem exists_joins : ∀ {t : LinkTree}, (∀ m ∈ t.mappings, m.Readable s) → ∀ parent,
    ∃ trees, t.Joins s parent trees
  | node l below, h, parent => by
    rw [mappings] at h
    obtain ⟨hl, hbelow⟩ := List.forall_mem_cons.mp h
    have htree : ∀ stored ∈ l.linked s parent, ∃ tree : RowTree Row,
        l.child.shown stored = .ok tree.row ∧ JoinsAll s below tree.row tree.children := by
      intro stored hm
      obtain ⟨row, hrow⟩ := hl.exists_shownIn (l.linked_subset s parent hm) l.child.nullRow
      obtain ⟨cs, hcs⟩ := exists_joinsAll hbelow row
      exact ⟨.node row cs, hrow, hcs⟩
    obtain ⟨trees, htrees⟩ := exists_forall₂ htree
    exact ⟨trees, by rwa [Joins]⟩

theorem exists_joinsAll : ∀ {ts : List LinkTree}, (∀ m ∈ mappingsAll ts, m.Readable s) →
    ∀ row, ∃ below, JoinsAll s ts row below
  | [], _, row => ⟨[], by rw [JoinsAll]⟩
  | t :: ts, h, row => by
    rw [mappingsAll] at h
    obtain ⟨ht, hts⟩ := List.forall_mem_append.mp h
    obtain ⟨trees, htrees⟩ := exists_joins ht row
    obtain ⟨rest, hrest⟩ := exists_joinsAll hts row
    refine ⟨(t.name, trees) :: rest, ?_⟩
    rw [JoinsAll]
    exact ⟨trees, rest, rfl, htrees, hrest⟩

end

end LinkTree

namespace LinkedRecord

variable {lr : LinkedRecord} {d : Dialect} {stored : StoredRow} {base : Row}

/-- A tree shows a stored row with all that hangs below it, in a row that was there before. -/
structure Shows (lr : LinkedRecord) (s : TableStore) (stored : StoredRow) (base : Row)
    (tree : RowTree Row) : Prop where
  row : lr.mapping.shownIn stored base = .ok tree.row
  below : LinkTree.JoinsAll s lr.links tree.row tree.children

theorem Shows.unique {tree tree' : RowTree Row} (h : lr.Shows s stored base tree)
    (h' : lr.Shows s stored base tree') : tree = tree' := by
  obtain ⟨row, cs⟩ := tree
  obtain ⟨row', cs'⟩ := tree'
  obtain rfl : row = row' := Except.ok.inj (h.row.symm.trans h'.row)
  exact congrArg _ (h.below.unique h'.below)

/-- The statements by which a record is read and written, and those by which its children are
read. -/
def queries (lr : LinkedRecord) : List Statement :=
  lr.mapping.statements ++ LinkTree.queriesAll lr.links

/-- A linked record whose links, with all links below them, were built for their records. -/
structure Joined (lr : LinkedRecord) : Prop where
  valid : lr.mapping.schema.Valid
  links : LinkTree.BuiltAll lr.mapping.schema lr.links

section

variable [hd : d.Knows lr.queries]

theorem readsBelow (hl : lr.Joined) : LinkTree.ReadsBelow d s lr.mapping.schema lr.links :=
  LinkTree.readsBelow_of_built hl.links
    (show LinkTree.queriesAll lr.links ⊆ lr.queries from List.subset_append_right ..)

/-- A row that shows a stored one is read with all that hangs below it. -/
theorem ensures_treeOf (hl : lr.Joined) (base : Row) (hr : r < rows.length)
    (hlen : (rows.getD r []).length = lr.mapping.schema.fields.length)
    (hshown : lr.mapping.shownIn stored base = .ok (rows.getD r [])) :
    Ensures d.handle (At rows s) (lr.treeOf r)
      (fun tree w t => lr.Shows s stored base (tree.map w.row) ∧ t = s)
      (fun _ t => (∀ tree, ¬ lr.Shows s stored base tree) ∧ t = s) := by
  refine (LinkTree.ensures_node (readsBelow hl) hr hlen).imp (fun _ _ => id) ?_ ?_
  · rintro tree w t ⟨made, ⟨rfl, hgrown⟩, hrows, ht⟩
    have hview : w.row = ((rows ++ made).getD · []) := by
      rw [← hrows]
      rfl
    refine ⟨⟨?_, ?_⟩, ht⟩
    · rw [RowTree.row_map, hview, hshown]
      exact congrArg Except.ok (List.getD_append _ _ _ _ hr).symm
    · rw [RowTree.row_map, RowTree.children_map, hview]
      exact hgrown.joins
  · rintro w t ⟨hnone, ht⟩
    refine ⟨fun tree htree => hnone tree.children ?_, ht⟩
    rw [Except.ok.inj (hshown.symm.trans htree.row)]
    exact htree.below

/-- Reading a row by its keys ends with a tree that shows the stored row of these keys, or with
none if there is none. It fails only if the row does not fit or there is no such tree. -/
theorem ensures_read (hl : lr.Joined) (hk : lr.mapping.hasKeys = true) :
    Ensures d.handle (At rows s) (lr.read r)
      (fun tree w t => (match lr.mapping.stored? (rows.getD r []) s with
        | none => tree = none
        | some stored => ∃ found, tree = some found ∧
          lr.Shows s stored (rows.getD r []) (found.map w.row)) ∧ t = s)
      (fun _ t => ((rows.getD r []).length ≠ lr.mapping.schema.fields.length ∨
        ∃ stored, lr.mapping.stored? (rows.getD r []) s = some stored ∧
          ∀ tree, ¬ lr.Shows s stored (rows.getD r []) tree) ∧ t = s) := by
  have hmapping : d.Knows lr.mapping.statements := hd.mono (List.subset_append_left ..)
  unfold read
  refine ((Mapping.ensures_read hk).imp (fun _ _ => id) (fun _ _ _ => id) ?_).bind fun found => ?_
  · rintro w t (⟨hlen, -, ht⟩ | ⟨hlen, stored, hstored, hfail, n, row, -, -, ht⟩)
    · exact ⟨.inl hlen, ht⟩
    · refine ⟨.inr ⟨stored, hstored, fun tree htree => ?_⟩, ht⟩
      obtain ⟨f, hf, hle⟩ := hfail tree.row htree.row
      rw [hlen] at hle
      exact Nat.not_le.mpr (hl.valid.sound.index_lt (List.mem_filter.mp hf).1) hle
  refine ensures_of fun hlen => ?_
  cases hstored : lr.mapping.stored? (rows.getD r []) s with
  | none =>
    refine ensures_of fun hfound => ?_
    subst hfound
    exact ensures_pure fun w t hpre => ⟨rfl, hpre.2⟩
  | some stored =>
    refine ensures_of fun hfound => ensures_exists fun row => ensures_of fun hrow => ?_
    subst hfound
    have hr := Mapping.lt_of_fits hl.valid.sound hk hlen
    have hplace : (rows.set r row).getD r [] = row := getD_set_self hr ..
    refine ((ensures_treeOf hl (rows.getD r []) (by rwa [List.length_set]) ?_ ?_).imp
      (fun _ _ => id) (fun _ _ _ => id) ?_).bind fun tree => ensures_pure fun w t hpre =>
        ⟨⟨tree, rfl, hpre.1⟩, hpre.2⟩
    · rw [hplace, Mapping.length_copied hrow, hlen]
    · rw [hplace]
      exact hrow
    · exact fun w t hpre => ⟨.inr ⟨stored, rfl, hpre.1⟩, hpre.2⟩

omit hd in
/-- Without keys there is nothing to read a row by. -/
theorem ensures_unread (hk : lr.mapping.hasKeys = false) :
    Ensures d.handle (At rows s) (lr.read r) (fun tree _ t => tree = none ∧ t = s)
      (fun _ _ => False) := by
  unfold read Mapping.read
  rw [hk]
  have hrefused : Ensures d.handle (At rows s) (do return ← lr.mapping.refuse "read")
      (fun found w t => found = false ∧ At rows s w t) fun _ _ => False :=
    Mapping.ensures_refuse.bind fun _ => ensures_pure fun _ _ => id
  refine hrefused.bind fun found => ensures_of fun hfound => ?_
  subst hfound
  exact ensures_pure fun w t hpre => ⟨rfl, hpre.2⟩

/-- A filter ends with one tree for each stored row that its query finds, in their order. -/
theorem ensures_filter (hl : lr.Joined) {c : CompiledFilter} {found : List StoredRow}
    (hfound : lr.mapping.FindsAll d s c found) :
    Ensures d.handle (At rows s) (lr.filter c)
      (fun trees w t => List.Forall₂ (fun stored tree =>
          lr.Shows s stored lr.mapping.nullRow (tree.map w.row)) found trees ∧ t = s)
      (fun _ t => (∃ stored ∈ found, ∀ tree, ¬ lr.Shows s stored lr.mapping.nullRow tree) ∧
        t = s) := by
  unfold filter
  rw [Mapping.filterCompiled_eq hl.valid.sound hfound.output]
  refine (((Mapping.suffices_of_columns hl.valid.sound hfound.columns).ensures_collectRows
    hfound.query).imp (fun _ _ => id) (fun _ _ _ => id) ?_).bind fun rs => ensures_exists fun made =>
    ensures_of fun hrs => ?_
  · rintro w t ⟨⟨stored, hm, hnone⟩, ht⟩
    exact ⟨⟨stored, hm, fun tree htree => hnone _ htree.row⟩, ht⟩
  refine (LinkTree.ensures_nodes (readsBelow hl) hrs).imp (fun _ _ => id) ?_ ?_
  · rintro trees w t ⟨more, htrees, hrows, ht⟩
    refine ⟨htrees.imp fun stored tree htree => ?_, ht⟩
    have hview : w.row = ((rows ++ made ++ more).getD · []) := by
      rw [← hrows]
      rfl
    refine ⟨?_, ?_⟩
    · rw [RowTree.row_map, hview]
      exact htree.1
    · rw [RowTree.row_map, RowTree.children_map, hview]
      exact htree.2.joins
  · rintro w t ⟨⟨stored, hm, row, hrow, hnone⟩, ht⟩
    refine ⟨⟨stored, hm, fun tree htree => hnone tree.children ?_⟩, ht⟩
    rw [Except.ok.inj (hrow.symm.trans htree.row)]
    exact htree.below

/-- A row of the keys of a stored one is read with the tree that shows it. -/
theorem Shows.exists_read_of_stored (hl : lr.Joined) (hk : lr.mapping.hasKeys = true) {w : Workspace}
    (hlen : (w.row r).length = lr.mapping.schema.fields.length)
    (hfound : lr.mapping.stored? (w.row r) s = some stored) {tree : RowTree Row}
    (htree : lr.Shows s stored (w.row r) tree) :
    ∃ found w', ((lr.read r).start w).run d.handle s = ((.ok (some found), w'), s) ∧
      found.map w'.row = tree := by
  obtain ⟨⟨⟨result, w'⟩, t⟩, hrun⟩ : ∃ out, ((lr.read r).start w).run d.handle s = out := ⟨_, rfl⟩
  have hend := (ensures_read hl hk).of_run hrun ⟨rfl, rfl⟩
  have hfound : lr.mapping.stored? (w.rows.getD r []) s = some stored := hfound
  cases result with
  | ok found =>
    obtain ⟨hend, rfl⟩ := hend
    rw [hfound] at hend
    obtain ⟨found, rfl, hshows⟩ := hend
    exact ⟨found, w', hrun, hshows.unique htree⟩
  | error e =>
    obtain ⟨hne | ⟨other, hother, hnone⟩, -⟩ := hend
    · exact absurd hlen hne
    · obtain rfl := Option.some.inj (hfound.symm.trans hother)
      exact absurd htree (hnone tree)

/-- The tree of a stored row is read by the row's keys. -/
theorem Shows.exists_read (hl : lr.Joined) (hk : lr.mapping.hasKeys = true)
    (hm : stored ∈ lr.mapping.rowsIn s) (hstored : lr.mapping.Identified s stored)
    {tree : RowTree Row} (htree : lr.Shows s stored lr.mapping.nullRow tree) {w : Workspace}
    (hrow : lr.mapping.AsksFor tree.row (w.row r)) :
    ∃ found w', ((lr.read r).start w).run d.handle s = ((.ok (some found), w'), s) ∧
      found.map w'.row = tree := by
  have hfound := hstored.stored? hl.valid.sound hm htree.row hrow
  have hshown : lr.Shows s stored (w.row r) tree :=
    ⟨hrow.shownIn hl.valid.sound htree.row, htree.below⟩
  exact hshown.exists_read_of_stored hl hk hrow.fits hfound

end

/-- The records whose rows are read together. -/
def mappings (lr : LinkedRecord) : List Mapping := lr.mapping :: LinkTree.mappingsAll lr.links

theorem exists_shows (hread : ∀ m ∈ lr.mappings, m.Readable s)
    (hm : stored ∈ lr.mapping.rowsIn s) (base : Row) : ∃ tree, lr.Shows s stored base tree := by
  obtain ⟨hmapping, hlinks⟩ := List.forall_mem_cons.mp hread
  obtain ⟨row, hrow⟩ := hmapping.exists_shownIn hm base
  obtain ⟨below, hbelow⟩ := LinkTree.exists_joinsAll hlinks row
  exact ⟨.node row below, hrow, hbelow⟩

/-- A filter ends with a result if all that is stored can be read. -/
theorem exists_filter (d : Dialect) [d.Knows lr.queries] (hl : lr.Joined) (hread : ∀ m ∈ lr.mappings, m.Readable s)
    {c : CompiledFilter} {found : List StoredRow} (hfound : lr.mapping.FindsAll d s c found)
    (w : Workspace) :
    ∃ trees w', ((lr.filter c).start w).run d.handle s = ((.ok trees, w'), s) ∧
      List.Forall₂ (fun stored tree =>
        lr.Shows s stored lr.mapping.nullRow (tree.map w'.row)) found trees := by
  obtain ⟨⟨⟨result, w'⟩, t⟩, hrun⟩ : ∃ out, ((lr.filter c).start w).run d.handle s = out := ⟨_, rfl⟩
  have hend := (ensures_filter hl hfound).of_run hrun ⟨rfl, rfl⟩
  cases result with
  | ok trees =>
    obtain ⟨htrees, rfl⟩ := hend
    exact ⟨trees, w', hrun, htrees⟩
  | error e =>
    obtain ⟨⟨stored, hm, hnone⟩, -⟩ := hend
    obtain ⟨tree, htree⟩ := exists_shows hread (hfound.stored hm) lr.mapping.nullRow
    exact absurd htree (hnone tree)

/-- So does a read of a row that fits, and it ends with nothing if no stored row has its keys. -/
theorem exists_read (d : Dialect) [d.Knows lr.queries] (hl : lr.Joined)
    (hread : ∀ m ∈ lr.mappings, m.Readable s) {w : Workspace}
    (hlen : (w.row r).length = lr.mapping.schema.fields.length) :
    ∃ tree w', ((lr.read r).start w).run d.handle s = ((.ok tree, w'), s) ∧
      (lr.mapping.stored? (w.row r) s = none → tree = none) := by
  obtain ⟨⟨⟨result, w'⟩, t⟩, hrun⟩ : ∃ out, ((lr.read r).start w).run d.handle s = out := ⟨_, rfl⟩
  cases hk : lr.mapping.hasKeys with
  | false =>
    have hend := (ensures_unread hk).of_run hrun ⟨rfl, rfl⟩
    cases result with
    | error e => exact hend.elim
    | ok tree =>
      obtain ⟨rfl, rfl⟩ := hend
      exact ⟨none, w', hrun, fun _ => rfl⟩
  | true =>
    have hend := (ensures_read hl hk).of_run hrun ⟨rfl, rfl⟩
    cases result with
    | ok tree =>
      obtain ⟨hend, rfl⟩ := hend
      refine ⟨tree, w', hrun, fun hnone => ?_⟩
      rw [show lr.mapping.stored? (w.rows.getD r []) t = none from hnone] at hend
      exact hend
    | error e =>
      obtain ⟨hne | ⟨stored, hstored, hnone⟩, -⟩ := hend
      · exact absurd hlen hne
      · obtain ⟨tree, htree⟩ := exists_shows hread (List.mem_of_find?_eq_some hstored) _
        exact absurd htree (hnone tree)

/-- Whatever is read below a row, by its keys or through a filter, is the join of the links with
the stored rows, level by level: under each link the stored rows that equal the row above in the
link's columns, in the order of the store, of which a link of one row has the first and a link
without columns has none. Reading asks for queries only and leaves the store as it is. A row that a
filter finds with all its columns is read with the same tree by its keys, if these are there, equal
themselves and are no other row's. Reading ends with a result if all that is stored are nulls and
values of the columns' types. -/
theorem read_joins {lr : LinkedRecord} (hl : lr.Joined) (d : Dialect) [d.Knows lr.queries]
    (s : TableStore) :
    (∀ (w w' : Workspace) (r : RowRef) (result : Except Failure (Option (RowTree RowRef)))
        (t : TableStore), ((lr.read r).start w).run d.handle s = ((result, w'), t) →
      t = s ∧ ∀ tree, result = .ok (some tree) → ∃ stored,
        lr.mapping.stored? (w.row r) s = some stored ∧
        lr.Shows s stored (w.row r) (tree.map w'.row)) ∧
    (∀ (c : CompiledFilter) (found : List StoredRow), lr.mapping.FindsAll d s c found →
      ∀ (w w' : Workspace) (result : Except Failure (List (RowTree RowRef))) (t : TableStore),
        ((lr.filter c).start w).run d.handle s = ((result, w'), t) →
      t = s ∧ ∀ trees, result = .ok trees → List.Forall₂ (fun stored tree =>
        lr.Shows s stored lr.mapping.nullRow (tree.map w'.row) ∧
        (lr.mapping.hasKeys = true → lr.mapping.Identified s stored →
          ∀ (w₂ : Workspace) (r : RowRef), lr.mapping.AsksFor (w'.row tree.row) (w₂.row r) →
            ∃ tree₂ w₃, ((lr.read r).start w₂).run d.handle s = ((.ok (some tree₂), w₃), s) ∧
              tree₂.map w₃.row = tree.map w'.row)) found trees) ∧
    ((∀ m ∈ lr.mappings, m.Readable s) → ∀ w : Workspace,
      (∀ r, (w.row r).length = lr.mapping.schema.fields.length →
        ∃ tree w', ((lr.read r).start w).run d.handle s = ((.ok tree, w'), s)) ∧
      ∀ c found, lr.mapping.FindsAll d s c found →
        ∃ trees w', ((lr.filter c).start w).run d.handle s = ((.ok trees, w'), s)) ∧
    ∀ {σ : Type} (h : Handle σ) (w : Workspace) (t : σ),
      (∀ r, ∀ e ∈ ((lr.read r).start w).heard h t, e.call.IsSelect) ∧
      ∀ c, ∀ e ∈ ((lr.filter c).start w).heard h t, e.call.IsSelect := by
  refine ⟨?_, ?_, ?_, fun h w t => ⟨fun r => (asks_read w).heard h t,
    fun c => (asks_filter w).heard h t⟩⟩
  · intro w w' r result t hrun
    cases hk : lr.mapping.hasKeys with
    | false =>
      have hend := (ensures_unread hk).of_run hrun ⟨rfl, rfl⟩
      cases result with
      | error e => exact hend.elim
      | ok tree =>
        obtain ⟨rfl, ht⟩ := hend
        exact ⟨ht, fun tree hresult => nomatch hresult⟩
    | true =>
      have hend := (ensures_read hl hk).of_run hrun ⟨rfl, rfl⟩
      cases result with
      | error e => exact ⟨hend.2, fun tree hresult => nomatch hresult⟩
      | ok tree =>
        obtain ⟨hend, ht⟩ := hend
        refine ⟨ht, ?_⟩
        rintro tree ⟨⟩
        split at hend
        · cases hend
        · rename_i stored hstored
          obtain ⟨found, hsome, hshows⟩ := hend
          obtain rfl := Option.some.inj hsome
          exact ⟨stored, hstored, hshows⟩
  · intro c found hfound w w' result t hrun
    have hend := (ensures_filter hl hfound).of_run hrun ⟨rfl, rfl⟩
    cases result with
    | error e => exact ⟨hend.2, fun trees hresult => nomatch hresult⟩
    | ok trees =>
      obtain ⟨htrees, ht⟩ := hend
      refine ⟨ht, ?_⟩
      rintro _ ⟨⟩
      rw [List.forall₂_iff_get] at htrees ⊢
      refine ⟨htrees.1, fun i hi hi' => ?_⟩
      have htree := htrees.2 i hi hi'
      refine ⟨htree, fun hk hstored w₂ r hrow => ?_⟩
      exact htree.exists_read hl hk (hfound.stored (List.get_mem ..)) hstored
        (by rwa [RowTree.row_map])
  · intro hread w
    refine ⟨fun r hlen => ?_, fun c found hfound => ?_⟩
    · obtain ⟨tree, w', hrun, -⟩ := exists_read d hl hread hlen
      exact ⟨tree, w', hrun⟩
    · obtain ⟨trees, w', hrun, -⟩ := exists_filter d hl hread hfound w
      exact ⟨trees, w', hrun⟩

/-! ## Customers with their orders and the lines of these -/

def customerDeclaration : RecordDeclaration where
  name := "customer"
  nameInDb := some "customers"
  useTimestampCheck := false
  operations := []
  fields := [
    RecordSchema.invoiceColumn "name" "name" .text .primaryKey,
    RecordSchema.invoiceColumn "city" "city" .text .requiredData]

def customers : Mapping :=
  ⟨RecordSchema.declared customerDeclaration, false, "CURRENT_TIMESTAMP"⟩

def ordersDeclaration : LinkDeclaration where
  name := "orders"
  parent := "customer"
  child := "order"
  parentFields := ["name"]
  childFields := ["customer"]
  isMultiRow := true
  minRows := 0
  maxRows := 0
  errorMessageId := none

def ordersLink : Link := ((Link.build ordersDeclaration customers orders).result? {}).getD default

theorem ordersLink_built : ordersLink.child = orders ∧ ordersLink.Built customers.schema :=
  Link.built_of_result (RecordSchema.valid_declared (by decide +kernel))
    (RecordSchema.valid_declared (by decide +kernel)) (by decide +kernel)

def customerRecord : LinkedRecord := ⟨customers, [.node ordersLink [.node linesLink []]]⟩

theorem customerRecord_joined : customerRecord.Joined where
  valid := RecordSchema.valid_declared (by decide +kernel)
  links := by
    have hchild := ordersLink_built.1
    simp only [customerRecord, LinkTree.BuiltAll, LinkTree.Built, List.map_nil, List.not_mem_nil,
      not_false_eq_true, and_true, hchild]
    exact ⟨ordersLink_built.2, linesLink_built.2⟩

/-- All rows, but no more than ten. -/
def firstTen : CompiledFilter := ⟨⟨[], [], 10⟩, [], [], [], []⟩

/-- The dialect that knows the statements of a linked record, and the filter for its rows. -/
def dialect (lr : LinkedRecord) : Dialect :=
  .reference lr.queries .ascii fun _ => some (lr.mapping.filterQuery firstTen)

/-- The only row there is is found. -/
theorem findsAll_single (lr : LinkedRecord) {s : TableStore} {stored : StoredRow}
    (hnone : lr.queries.find? (·.toText == lr.mapping.filterText firstTen) = none)
    (hrows : lr.mapping.rowsIn s = [stored]) :
    lr.mapping.FindsAll lr.dialect s firstTen [stored] where
  stored := hrows ▸ List.Subset.refl _
  columns _ := Iff.rfl
  query := by
    refine (Dialect.query_read hnone rfl ..).trans (congrArg Except.ok ?_)
    have hfound : ((s.table (lr.mapping.filterQuery firstTen).table).rows.filter fun row =>
        (lr.mapping.filterQuery firstTen).clause.selects .ascii row.column firstTen.values ==
          some true) = [stored] := congrArg (List.filter _) hrows
    unfold Sql.Query.answer
    dsimp only
    rw [hfound, List.mergeSort_singleton]
    rfl

/-- A row that holds nothing but a key in its first place, where there are two columns. -/
theorem asksFor_first {m : Mapping} {row : Row} (hlen : 2 = m.schema.fields.length)
    (hkeys : ∀ g ∈ m.whereFields, g.index = 0)
    (hplaces : Mapping.places m.selectFields = [0, 1]) :
    m.AsksFor row [row.getD 0 .null, .null] where
  fits := hlen
  keys g hg := by rw [hkeys g hg]; rfl
  elsewhere i hi := by
    rw [hplaces] at hi
    match i with
    | 0 | 1 => simp at hi
    | _ + 2 => rfl

def customerStore : TableStore where
  tables := [
    ("customers", { key := ["name"], rows := [
      [("name", .text "Ada"), ("city", .text "Ulm")]] }),
    ("orders", { key := ["id"], rows := [
      [("id", .int 1), ("customer", .text "Ada")],
      [("id", .int 2), ("customer", .text "Bob")],
      [("id", .int 3), ("customer", .text "Ada")]] }),
    ("order_lines", { key := ["order_id", "line_no"], rows := [
      [("order_id", .int 3), ("line_no", .int 1), ("product", .text "nuts")],
      [("order_id", .int 1), ("line_no", .int 1), ("product", .text "bolts")]] })]

def ada : StoredRow := [("name", .text "Ada"), ("city", .text "Ulm")]

theorem customers_known : customerRecord.dialect.Knows customerRecord.queries :=
  Dialect.knows_reference (by decide +kernel) ..

theorem customers_found : customers.FindsAll customerRecord.dialect customerStore firstTen [ada] :=
  findsAll_single customerRecord (by decide +kernel) rfl

/-- The tree that the filter finds for Ada is read by her name, with her orders in the order of the
store and their lines. -/
theorem read_joins_customer : ∃ tree tree₂ w w₂,
    ((customerRecord.filter firstTen).start {}).run customerRecord.dialect.handle customerStore =
      ((.ok [tree], w), customerStore) ∧
    customerRecord.Shows customerStore ada customers.nullRow (tree.map w.row) ∧
    ((customerRecord.read 0).start ⟨[[.text "Ada", .null]], {}⟩).run customerRecord.dialect.handle
      customerStore = ((.ok (some tree₂), w₂), customerStore) ∧
    tree₂.map w₂.row = tree.map w.row := by
  have hknown := customers_known
  obtain ⟨-, hfilter, htotal, -⟩ :=
    read_joins customerRecord_joined customerRecord.dialect customerStore
  have hread : ∀ m ∈ customerRecord.mappings, m.Readable customerStore := by decide +kernel
  obtain ⟨-, hfilters⟩ := htotal hread {}
  obtain ⟨trees, w, hrun⟩ := hfilters firstTen [ada] customers_found
  obtain ⟨-, htrees⟩ := hfilter firstTen [ada] customers_found _ _ _ _ hrun
  obtain _ | ⟨⟨hshows, hkeys⟩, htail⟩ := htrees trees rfl
  cases htail
  rename_i tree
  have hidentified : customers.Identified customerStore ada := by
    refine ⟨by decide +kernel, by decide +kernel, by decide +kernel, ?_⟩
    rintro _ (_ | ⟨_, ⟨⟩⟩) -
    rfl
  have hrow : (tree.map w.row).row = [.text "Ada", .text "Ulm"] :=
    Except.ok.inj (hshows.row.symm.trans rfl)
  have hasks : customers.AsksFor (w.row tree.row) [.text "Ada", .null] := by
    rw [← RowTree.row_map w.row, hrow]
    exact asksFor_first (by decide +kernel) (by decide +kernel) (by decide +kernel)
  obtain ⟨tree₂, w₂, hrun₂, hequal⟩ :=
    hkeys (by decide +kernel) hidentified ⟨[[.text "Ada", .null]], {}⟩ 0 hasks
  exact ⟨tree, tree₂, w, w₂, hrun, hshows, hrun₂, hequal⟩

/-! ## A rate that is not a number -/

def rateDeclaration : RecordDeclaration where
  name := "rate"
  nameInDb := some "rates"
  useTimestampCheck := false
  operations := []
  fields := [
    RecordSchema.invoiceColumn "amount" "amount" .decimal .primaryKey,
    RecordSchema.invoiceColumn "label" "label" .text .requiredData]

def rates : Mapping := ⟨RecordSchema.declared rateDeclaration, false, "CURRENT_TIMESTAMP"⟩

def rateRecord : LinkedRecord := ⟨rates, []⟩

/-- The mark of a missing number, which equals nothing. -/
def missing : Value := .nonFinite ⟨false, .quiet 0⟩

def missingRate : StoredRow := [("amount", missing), ("label", .text "none")]

def rateStore : TableStore where
  tables := [("rates", { key := ["amount"], rows := [missingRate] })]

/-- The one rate that is stored holds values of its columns' types, no key of it is null and no
other row has the same, yet the tree that a filter finds for it is not found by its keys. -/
theorem filtered_rate_is_not_read : rateRecord.Joined ∧ rateRecord.dialect.Knows rateRecord.queries ∧
    rates.hasKeys = true ∧ rates.rowsIn rateStore = [missingRate] ∧
    (∀ f ∈ rates.selectFields, f.valueType.stores (missingRate.column f.columnName) = true) ∧
    (∀ g ∈ rates.whereFields, (missingRate.column g.columnName).isNull = false) ∧
    rates.FindsAll rateRecord.dialect rateStore firstTen [missingRate] ∧ ∃ tree w w₂,
      ((rateRecord.filter firstTen).start {}).run rateRecord.dialect.handle rateStore =
        ((.ok [tree], w), rateStore) ∧
      rates.AsksFor (w.row tree.row) [missing, .null] ∧
      ((rateRecord.read 0).start ⟨[[missing, .null]], {}⟩).run rateRecord.dialect.handle rateStore =
        ((.ok none, w₂), rateStore) := by
  have hjoined : rateRecord.Joined := by
    refine ⟨RecordSchema.valid_declared (by decide +kernel), ?_⟩
    rw [rateRecord, LinkTree.BuiltAll]
    trivial
  have hknown : rateRecord.dialect.Knows rateRecord.queries :=
    Dialect.knows_reference (by decide +kernel) ..
  have hfound : rates.FindsAll rateRecord.dialect rateStore firstTen [missingRate] :=
    findsAll_single rateRecord (by decide +kernel) rfl
  refine ⟨hjoined, hknown, by decide +kernel, rfl, by decide +kernel, by decide +kernel, hfound, ?_⟩
  have hread : ∀ m ∈ rateRecord.mappings, m.Readable rateStore := by decide +kernel
  obtain ⟨trees, w, hfilter, htrees⟩ := exists_filter rateRecord.dialect hjoined hread hfound {}
  obtain _ | ⟨hshows, htail⟩ := htrees
  cases htail
  rename_i tree
  obtain ⟨tree₂, w₂, hrun, hnone⟩ := exists_read rateRecord.dialect hjoined hread (r := 0)
    (w := ⟨[[missing, .null]], {}⟩) (by decide +kernel)
  have hstored : rates.stored? [missing, .null] rateStore = none :=
    Option.isNone_iff_eq_none.mp (by decide +kernel)
  obtain rfl := hnone hstored
  have hrow : (tree.map w.row).row = [missing, .text "none"] :=
    Except.ok.inj (hshows.row.symm.trans rfl)
  refine ⟨tree, w, w₂, hfilter, ?_, hrun⟩
  rw [← RowTree.row_map w.row, hrow]
  exact asksFor_first (by decide +kernel) (by decide +kernel) (by decide +kernel)

end LinkedRecord

end Tablewright
