import Tablewright.Proofs.Link.Children
import Tablewright.Proofs.Store.Placement

/-! What a write with children leaves in a store. The row itself is written, or nothing is stored
otherwise; then its child rows are saved one after the other, each with the row's values carried into
it, up to one that is not. Whatever the end is, no stored row has left its place. -/

namespace Tablewright

open Work TableStore

namespace LinkedRecord

/-! ## Child rows, one after the other -/

/-- How child rows are saved: each is written with the parent's values in it, up to one that is not.
What is left of that one is not said, but that no other row is changed and all stored rows stay. -/
inductive ChildrenSaved (parent : RowRef) : List (Link × RowRef) → List Row → TableStore →
    List Row → TableStore → Bool → Prop
  | done {rows : List Row} {s : TableStore} : ChildrenSaved parent [] rows s rows s true
  | stopped {children : List (Link × RowRef)} {rows rows' : List Row} {s t : TableStore} :
      (∀ r ∉ children.map Prod.snd, rows'.getD r [] = rows.getD r []) → s.Stays t →
      ChildrenSaved parent children rows s rows' t false
  | saved {l : Link} {child : RowRef} {rest : List (Link × RowRef)} {rows rows' : List Row}
      {s s₁ t : TableStore} {row : Row} {done : Bool} :
      l.child.Wrote .save (l.carried (rows.getD parent []) (rows.getD child [])) s row s₁ →
      ChildrenSaved parent rest (rows.set child row) s₁ rows' t done →
      ChildrenSaved parent ((l, child) :: rest) rows s rows' t done

variable {parent : RowRef} {children rest : List (Link × RowRef)} {rows rows' rows'' : List Row}
  {s t u : TableStore} {done : Bool}

theorem ChildrenSaved.append (h : ChildrenSaved parent children rows s rows' t true)
    (hrest : ChildrenSaved parent rest rows' t rows'' u done) :
    ChildrenSaved parent (children ++ rest) rows s rows'' u done := by
  generalize htrue : true = all at h
  induction h with
  | done => exact hrest
  | stopped => cases htrue
  | saved hwrote _ ih => exact .saved hwrote (ih hrest htrue)

theorem ChildrenSaved.stop (h : ChildrenSaved parent children rows s rows' t false) :
    ChildrenSaved parent (children ++ rest) rows s rows' t false := by
  generalize hfalse : false = all at h
  induction h with
  | done => cases hfalse
  | stopped hrows hstays =>
    refine .stopped (fun r hr => hrows r fun hm => hr ?_) hstays
    rw [List.map_append]
    exact List.mem_append_left _ hm
  | saved hwrote _ ih => exact .saved hwrote (ih hfalse)

/-- Rows that are none of the child rows are as they were. -/
theorem ChildrenSaved.row_of_notMem (h : ChildrenSaved parent children rows s rows' t done)
    {r : RowRef} (hr : r ∉ children.map Prod.snd) : rows'.getD r [] = rows.getD r [] := by
  induction h with
  | done => rfl
  | stopped hrows => exact hrows r hr
  | saved _ _ ih =>
    rw [List.map_cons, List.mem_cons, not_or] at hr
    rw [ih hr.2, getD_set_of_ne _ hr.1]

/-! ## Child rows that were all saved -/

/-- Child rows that were all written, one after the other, each as it was given with a parent's
values in it. -/
inductive AllSaved (base : Row) (given final : RowRef → Row) :
    List (Link × RowRef) → TableStore → TableStore → Prop
  | nil {s : TableStore} : AllSaved base given final [] s s
  | cons {l : Link} {child : RowRef} {rest : List (Link × RowRef)} {s s₁ t : TableStore} :
      l.child.Wrote .save (l.carried base (given child)) s (final child) s₁ →
      AllSaved base given final rest s₁ t → AllSaved base given final ((l, child) :: rest) s t

/-- What is said of some child rows can be said of one more. -/
theorem exists_extended {α : Type} {child : RowRef} (h : child ∉ rest.map Prod.snd)
    (f : RowRef → α) (a : α) : ∃ g : RowRef → α, g child = a ∧ ∀ e ∈ rest, g e.2 = f e.2 := by
  refine ⟨fun r => if r = child then a else f r, if_pos rfl, fun e he => if_neg fun heq => h ?_⟩
  rw [← heq]
  exact List.mem_map_of_mem he

section

variable {base : Row} {given given' final : RowRef → Row}

theorem AllSaved.congr (h : AllSaved base given final children s t)
    (hgiven : ∀ e ∈ children, given e.2 = given' e.2) : AllSaved base given' final children s t := by
  induction h with
  | nil => exact .nil
  | cons hwrote _ ih =>
    obtain ⟨hfirst, hrest⟩ := List.forall_mem_cons.mp hgiven
    exact .cons (hfirst ▸ hwrote) (ih hrest)

/-- Each of them was written at some time, with the same supply of keys. -/
theorem AllSaved.wrote (h : AllSaved base given final children s t) :
    ∀ e ∈ children, ∃ s₀ s₁, s₀.supply = s.supply ∧
      e.1.child.Wrote .save (e.1.carried base (given e.2)) s₀ (final e.2) s₁ := by
  induction h with
  | nil => exact fun e he => nomatch he
  | cons hwrote _ ih =>
    refine List.forall_mem_cons.mpr ⟨⟨_, _, rfl, hwrote⟩, fun e he => ?_⟩
    obtain ⟨s₀, s₁, hsupply, hlater⟩ := ih e he
    exact ⟨s₀, s₁, hsupply.trans hwrote.supply, hlater⟩

/-- A child row that was saved found the stored row: it has got nothing but the parent's values in
the link's columns, and the stored row has its keys and its tenant. -/
structure Found (l : Link) (parent child row : Row) (stored : StoredRow) : Prop where
  carried : row = l.carried parent child
  fits : row.length = l.child.schema.fields.length
  keys : stored.agrees (l.child.identity row) = true

/-- Saving child rows leaves every stored row at its place, unless one of them found it. -/
theorem AllSaved.stays (h : AllSaved base given final children s t) :
    s.StaysBut (fun name stored => ∃ e ∈ children, e.1.child.table = name ∧
      Found e.1 base (given e.2) (final e.2) stored) t := by
  induction h with
  | nil => exact (Alike.refl _).stays.stays
  | cons hwrote _ ih =>
    refine StaysBut.trans (hwrote.stays.mono ?_) (ih.mono ?_)
    · rintro name stored ⟨rfl, hagrees, hsame⟩
      refine ⟨_, List.mem_cons_self, rfl, hsame, ?_, hsame ▸ hagrees⟩
      exact hwrote.sameButKey.length_eq.trans hwrote.fits
    · exact fun name stored ⟨e, he, hfound⟩ => ⟨e, List.mem_cons_of_mem _ he, hfound⟩

end

/-- Child rows were all saved up to one, and nothing was stored behind these. If all is done, there
is none behind them. -/
theorem ChildrenSaved.split (h : ChildrenSaved parent children rows s rows' t done)
    (hdistinct : (parent :: children.map Prod.snd).Nodup) : ∃ saved rest s', children = saved ++ rest ∧
      AllSaved (rows.getD parent []) (rows.getD · []) (rows'.getD · []) saved s s' ∧ s'.Stays t ∧
      (done = true → rest = [] ∧ s' = t) := by
  induction h with
  | done => exact ⟨[], [], _, rfl, .nil, (Alike.refl _).stays, fun _ => ⟨rfl, rfl⟩⟩
  | stopped _ hstays => exact ⟨[], _, _, rfl, .nil, hstays, nofun⟩
  | @saved l child rest rows rows' s s₁ t row done hwrote hrest ih =>
    simp only [List.map_cons, List.nodup_cons, List.mem_cons, not_or] at hdistinct
    obtain ⟨⟨hparent, hrestParent⟩, hchild, hnodup⟩ := hdistinct
    obtain ⟨saved, behind, s', hsplit, hsaved, hend⟩ :=
      ih (List.nodup_cons.mpr ⟨hrestParent, hnodup⟩)
    have hrow : rows'.getD child [] = row := by
      rw [hrest.row_of_notMem hchild]
      exact getD_set_row (hwrote.sameButKey.length_eq.trans (Link.length_carry ..))
    rw [getD_set_of_ne _ hparent] at hsaved
    refine ⟨(l, child) :: saved, behind, s', congrArg _ hsplit, ?_, hend⟩
    refine .cons (hrow.symm ▸ hwrote) (hsaved.congr fun e he => ?_)
    have hne : e.2 ≠ child := fun heq => hchild <| by
      rw [hsplit, ← heq]
      exact List.mem_map_of_mem (List.mem_append_left _ he)
    exact getD_set_of_ne _ hne ..

theorem ChildrenSaved.stays (h : ChildrenSaved parent children rows s rows' t done)
    (hdistinct : (parent :: children.map Prod.snd).Nodup) :
    s.StaysBut (fun name stored => ∃ e ∈ children, e.1.child.table = name ∧
      Found e.1 (rows.getD parent []) (rows.getD e.2 []) (rows'.getD e.2 []) stored) t := by
  obtain ⟨saved, rest, s', rfl, hsaved, hstays, -⟩ := h.split hdistinct
  refine (hsaved.stays.mono ?_).trans hstays.stays
  exact fun name stored ⟨e, he, hfound⟩ => ⟨e, List.mem_append_left _ he, hfound⟩

section

variable {d : Dialect}

/-- A note that tells a row by its keys, after which an operation says that it was not done. -/
theorem keeps_noteKeys {σ : Type} {h : Handle σ} {P : Fact σ} (hP : Unlogged P)
    {schema : RecordSchema} {r : RowRef} {level : Log.Level} {source : Log.Source}
    {text : String → String} :
    Ensures h P
      (do
        let keys ← lift (schema.emitKeys (← Work.row r))
        note level source (text keys)
        return false)
      (fun done w t => done = false ∧ P w t) P := by
  refine (ensures_row (p := fun _ => True) fun _ _ _ => trivial).bind fun row => ensures_of fun _ => ?_
  refine (ensures_lift fun _ _ => id).bind fun keys => ensures_of fun _ => ?_
  exact (ensures_note hP).bind fun _ => ensures_pure fun _ _ hpre => ⟨rfl, hpre⟩

/-- What is known after child rows were to be saved. -/
def SavedAt (parent : RowRef) (children : List (Link × RowRef)) (rows : List Row) (s : TableStore)
    (done : Bool) : Fact TableStore :=
  fun w t => ChildrenSaved parent children rows s w.rows t done

theorem savedAt_of_at (w : Workspace) (t : TableStore) (h : At rows s w t) :
    SavedAt parent children rows s false w t :=
  .stopped (fun r _ => by rw [h.1]) (stays_of_tables fun name => by rw [h.2])

/-- A child row is written with the parent's values in it, or no more is done. -/
theorem ensures_saveRow {l : Link} {child : RowRef} [d.Knows l.child.statements]
    (hne : parent ≠ child) : Ensures d.handle (At rows s)
      (do l.copyValues parent child; l.child.save child)
      (fun done w t => done = true ∧ (∃ row, l.child.Wrote .save
            (l.carried (rows.getD parent []) (rows.getD child [])) s row t ∧
          w.rows = rows.set child row) ∨
        done = false ∧ (∃ row, w.rows = rows.set child row) ∧ s.Stays t)
      (fun w t => (∃ row, w.rows = rows.set child row) ∧ s.Stays t) := by
  have hrow : (Link.copied parent child l.pairs rows).getD child [] = _ := Link.getD_copied l hne
  have hset : ∀ row, (Link.copied parent child l.pairs rows).set child row = rows.set child row :=
    fun row => by rw [Link.copied_eq _ hne, List.set_set]
  have hleft : ∀ {w : Workspace} {t : TableStore},
      w.rows = Link.copied parent child l.pairs rows ∧ s.Stays t →
        (∃ row, w.rows = rows.set child row) ∧ s.Stays t :=
    fun hpre => ⟨⟨_, hpre.1.trans (Link.copied_eq _ hne _)⟩, hpre.2⟩
  refine (Link.ensures_copies.imp (fun _ _ => id) (fun _ _ _ => id) ?_).bind fun _ => ?_
  · rintro w t ⟨hrows, rfl⟩
    exact ⟨hrows, (Alike.refl _).stays⟩
  · refine (Mapping.ensures_saveAlike (show Mapping.RowOperation.save ≠ .insert from nofun)
      nofun).imp (fun _ _ => id) ?_ fun w t => hleft
    rintro done w t (⟨hdone, row, hwrote, hrows⟩ | ⟨hdone, hpre⟩)
    · rw [hrow] at hwrote
      exact .inl ⟨hdone, row, hwrote, hrows.trans (hset row)⟩
    · exact .inr ⟨hdone, hleft hpre⟩

/-- The child rows of one link are saved up to one that is not. -/
theorem ensures_saveRows {l : Link} [d.Knows l.child.statements] {rs : List RowRef} {i : Nat}
    (hne : parent ∉ rs) :
    Ensures d.handle (At rows s) (l.saveRows parent rs i)
      (SavedAt parent (rs.map (l, ·)) rows s) (SavedAt parent (rs.map (l, ·)) rows s false) := by
  induction rs generalizing rows s i with
  | nil =>
    refine ensures_pure ?_
    rintro w t ⟨hrows, rfl⟩
    show ChildrenSaved ..
    rw [hrows]
    exact .done
  | cons r rs ih =>
    obtain ⟨hr, hrs⟩ := not_or.mp fun hor => hne (List.mem_cons.mpr hor)
    have hstopped : ∀ (w : Workspace) (t : TableStore),
        (∃ row, w.rows = rows.set r row) ∧ s.Stays t →
          SavedAt parent ((r :: rs).map (l, ·)) rows s false w t := by
      rintro w t ⟨⟨row, hrows⟩, hstays⟩
      refine .stopped (fun o ho => ?_) hstays
      have hne : o ≠ r := fun heq => ho (by simp [heq])
      rw [hrows, getD_set_of_ne _ hne]
    unfold Link.saveRows
    rw [← bind_assoc]
    refine ((ensures_saveRow hr).imp (fun _ _ => id) (fun _ _ _ => id) hstopped).bind fun done => ?_
    cases done with
    | true =>
      rintro w t (⟨-, row, hwrote, hrows⟩ | ⟨⟨⟩, -⟩)
      refine (ih hrs).imp (fun _ _ => id) ?_ ?_ w t ⟨hrows, rfl⟩
      · exact fun _ _ _ hsaved => .saved hwrote hsaved
      · exact fun _ _ hsaved => .saved hwrote hsaved
    | false =>
      have hfact : Unlogged fun w t => (∃ row, w.rows = rows.set r row) ∧ s.Stays t :=
        fun _ _ _ hpre => hpre
      refine (keeps_noteKeys hfact).imp ?_ (fun _ w t hpre => ?_) hstopped
      · rintro w t (⟨⟨⟩, -⟩ | ⟨-, hpre⟩)
        exact hpre
      · obtain ⟨rfl, hpre⟩ := hpre
        exact hstopped w t hpre

theorem ensures_saveChecked {l : Link} [d.Knows l.child.statements] {rs : List RowRef}
    (hne : parent ∉ rs) :
    Ensures d.handle (At rows s) (l.saveChecked parent rs)
      (SavedAt parent (rs.map (l, ·)) rows s) (SavedAt parent (rs.map (l, ·)) rows s false) := by
  have hsaved : Ensures d.handle (At rows s) (l.saveRows parent rs 0)
      (SavedAt parent (rs.map (l, ·)) rows s) (SavedAt parent (rs.map (l, ·)) rows s false) :=
    ensures_saveRows hne
  unfold Link.saveChecked
  refine (ensures_check Mapping.unlogged_at savedAt_of_at).bind fun ok => ensures_of fun _ => ?_
  split
  · exact ensures_pure savedAt_of_at
  · split
    · exact (ensures_note Mapping.unlogged_at).bind fun _ => hsaved
    · exact hsaved

theorem ensures_saveLink {t : LinkTree} [d.Knows t.link.child.statements] {rs : List RowRef}
    (hne : parent ∉ rs) :
    Ensures d.handle (At rows s) (t.save parent rs)
      (SavedAt parent (rs.map (t.link, ·)) rows s)
      (SavedAt parent (rs.map (t.link, ·)) rows s false) := by
  unfold LinkTree.save
  refine (ensures_checkLink (fun _ _ _ => ensures_note Mapping.unlogged_at) t "save").bind fun ok =>
    ensures_of fun _ => ?_
  split
  · exact ensures_saveChecked hne
  · exact ensures_pure savedAt_of_at

/-- The child rows under all links are saved up to one that is not. -/
theorem ensures_saveChildren {tree : RowTree RowRef} {ts : List LinkTree}
    (hknown : ∀ t ∈ ts, d.Knows t.link.child.statements)
    (hne : tree.row ∉ (childRows tree ts).map Prod.snd) :
    Ensures d.handle (At rows s) (saveChildren tree ts)
      (SavedAt tree.row (childRows tree ts) rows s)
      (SavedAt tree.row (childRows tree ts) rows s false) := by
  induction ts generalizing rows s with
  | nil =>
    refine ensures_pure ?_
    rintro w t ⟨hrows, rfl⟩
    exact hrows ▸ .done
  | cons t ts ih =>
    obtain ⟨ht, hts⟩ := List.forall_mem_cons.mp hknown
    rw [childRows, List.flatMap_cons, List.map_append, List.mem_append, not_or] at hne
    have hfirst : tree.row ∉ rowsUnder tree t := fun hm => hne.1 (by simpa using hm)
    unfold saveChildren childRows
    rw [List.flatMap_cons]
    refine ((ensures_saveLink hfirst).imp (fun _ _ => id) (fun _ _ _ => id)
      fun _ _ hsaved => hsaved.stop).bind fun done => ?_
    cases done with
    | false => exact ensures_pure fun _ _ hsaved => hsaved.stop
    | true =>
      intro w u hsaved
      refine (ih hts hne.2).imp (fun _ _ => id) ?_ ?_ w u ⟨rfl, rfl⟩
      · exact fun _ _ _ hrest => hsaved.append hrest
      · exact fun _ _ hrest => hsaved.append hrest

end

/-! ## A row with its child rows -/

/-- The statements by which rows are written, with their child rows. -/
def writing (lr : LinkedRecord) : List Statement :=
  lr.mapping.statements ++ lr.links.flatMap fun t => t.link.child.statements

/-- The rows of a tree are rows of their own: none of them stands at two places. -/
def Distinct (lr : LinkedRecord) (tree : RowTree RowRef) : Prop :=
  (tree.row :: (childRows tree lr.links).map Prod.snd).Nodup

instance (lr : LinkedRecord) (tree : RowTree RowRef) : Decidable (lr.Distinct tree) :=
  inferInstanceAs (Decidable (List.Nodup _))

/-- How a write with children ends: nothing is written and all stored rows stay, or the row is
written and its child rows are saved, where all links admit their rows. -/
inductive Written (lr : LinkedRecord) (op : TreeOperation) (tree : RowTree RowRef) (rows : List Row)
    (s : TableStore) : List Row → TableStore → Bool → Prop
  | unwritten {t : TableStore} : s.Stays t → lr.Written op tree rows s rows t false
  | written {row : Row} {rows' : List Row} {s₁ t : TableStore} {done : Bool} :
      (∀ t ∈ lr.links, t.isWritable = true) → (∀ t ∈ lr.links, Admitted tree t) →
      lr.mapping.Wrote op.onRow (rows.getD tree.row []) s row s₁ →
      ChildrenSaved tree.row (childRows tree lr.links) (rows.set tree.row row) s₁ rows' t done →
      lr.Written op tree rows s rows' t done

/-- After a write with children that was done, the row is as it was written, and its child rows
were all saved with the row's values in them. -/
theorem Written.of_true {lr : LinkedRecord} {op : TreeOperation} {tree : RowTree RowRef}
    (h : lr.Written op tree rows s rows' t true) (hdistinct : lr.Distinct tree) :
    ∃ s₁, ((∀ t ∈ lr.links, t.isWritable = true) ∧ ∀ t ∈ lr.links, Admitted tree t) ∧
      lr.mapping.Wrote op.onRow (rows.getD tree.row []) s (rows'.getD tree.row []) s₁ ∧
      AllSaved (rows'.getD tree.row []) (rows.getD · []) (rows'.getD · [])
        (childRows tree lr.links) s₁ t := by
  cases h with
  | @written row _ s₁ _ _ hwritable hadmitted hwrote hsaved =>
    obtain ⟨hparent, -⟩ := List.nodup_cons.mp hdistinct
    have hrow : (rows.set tree.row row).getD tree.row [] = row :=
      getD_set_row hwrote.sameButKey.length_eq
    have hkept : rows'.getD tree.row [] = row := (hsaved.row_of_notMem hparent).trans hrow
    obtain ⟨saved, rest, s', hsplit, hall, -, hdone⟩ := hsaved.split hdistinct
    obtain ⟨rfl, rfl⟩ := hdone rfl
    rw [List.append_nil] at hsplit
    refine ⟨s₁, ⟨hwritable, hadmitted⟩, hkept.symm ▸ hwrote, ?_⟩
    rw [hsplit, hkept, ← hrow]
    refine hall.congr fun e he => ?_
    have hne : e.2 ≠ tree.row := fun heq => hparent (heq ▸ List.mem_map_of_mem (hsplit ▸ he))
    exact getD_set_of_ne _ hne ..

/-- A write with children ends in one of its ways, whether it says that it was done, says that it
was not, or fails. -/
theorem ensures_write {d : Dialect} {lr : LinkedRecord} [hd : d.Knows lr.writing]
    (op : TreeOperation) {tree : RowTree RowRef} (hdistinct : lr.Distinct tree) :
    Ensures d.handle (At rows s) (lr.write op tree)
      (fun done w t => lr.Written op tree rows s w.rows t done)
      (fun w t => lr.Written op tree rows s w.rows t false) := by
  have hmapping : d.Knows lr.mapping.statements := hd.mono (List.subset_append_left ..)
  have hchildren : ∀ t ∈ lr.links, d.Knows t.link.child.statements := fun t ht =>
    hd.mono fun st hst => List.mem_append_right _ (List.mem_flatMap.mpr ⟨t, ht, hst⟩)
  have hleft : ∀ (w : Workspace) (t : TableStore), w.rows = rows ∧ s.Stays t →
      lr.Written op tree rows s w.rows t false := by
    rintro w t ⟨rfl, hstays⟩
    exact .unwritten hstays
  have hunwritten : ∀ (w : Workspace) (t : TableStore), At rows s w t →
      lr.Written op tree rows s w.rows t false := fun w t hpre =>
    hleft w t ⟨hpre.1, stays_of_tables fun name => by rw [hpre.2]⟩
  unfold write
  refine (ensures_checkWritable (fun _ _ _ => ensures_note Mapping.unlogged_at) op.name
    lr.links).bind fun ok => ensures_of fun hok => ?_
  cases ok with
  | false => exact ensures_pure hunwritten
  | true =>
    have hwritable : ∀ t ∈ lr.links, t.isWritable = true := List.all_eq_true.mp hok.symm
    refine (ensures_check Mapping.unlogged_at hunwritten).bind fun ok => ensures_of fun hreturns => ?_
    cases ok with
    | false => exact ensures_pure hunwritten
    | true =>
      have hadmitted : ∀ t ∈ lr.links, Admitted tree t := by
        obtain ⟨j, k, hreturns⟩ := hreturns
        obtain ⟨k', _, hvalidate, -⟩ := lr.returns_validate tree j
        have hpair := (Prod.mk.inj (hreturns.symm.trans hvalidate)).1
        exact of_decide_eq_true (Except.ok.inj hpair).symm
      refine ((Mapping.ensures_perform (by cases op <;> nofun) (by cases op <;> nofun)).imp
        (fun _ _ => id) (fun _ _ _ => id) hleft).bind fun done => ?_
      cases done with
      | true =>
        rintro w t (⟨-, row, hwrote, hrows⟩ | ⟨⟨⟩, -⟩)
        refine (ensures_saveChildren hchildren (List.nodup_cons.mp hdistinct).1).imp
          (fun _ _ => id) ?_ ?_ w t ⟨hrows, rfl⟩
        · exact fun _ _ _ hsaved => .written hwritable hadmitted hwrote hsaved
        · exact fun _ _ hsaved => .written hwritable hadmitted hwrote hsaved
      | false =>
        have hfact : Unlogged fun w t => w.rows = rows ∧ s.Stays t := fun _ _ _ hpre => hpre
        refine (keeps_noteKeys hfact).imp ?_ (fun _ w t hpre => ?_) hleft
        · rintro w t (⟨⟨⟩, -⟩ | ⟨-, hpre⟩)
          exact hpre
        · obtain ⟨rfl, hpre⟩ := hpre
          exact hleft w t hpre

end LinkedRecord

end Tablewright
