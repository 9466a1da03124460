import Tablewright.Proofs.Link.Copying
import Tablewright.Proofs.Mapping.Heard

/-! Saving the child rows of a row. They are saved one after the other, under one link after the
other, each with the row's values copied into its link columns before; the first that can neither
be updated nor inserted is the last that the handle hears of. -/

namespace Tablewright

open Work

/-- A call that updates or inserts a child row of the link. The row's link columns hold the
values of a parent row. -/
def Link.Writes (l : Link) (parent : Row) (c : Call) : Prop :=
  ∃ child : Row, (c = l.child.updateCall child ∨ c = l.child.insertCall child) ∧
    ∀ f ∈ l.childFields, ∃ p, (p, f) ∈ l.pairs ∧
      child.getD f.index .null = parent.getD p.index .null

namespace LinkedRecord

/-! ## What is heard of child rows -/

/-- The child rows of a tree with their links, in the order in which they are saved. -/
def childRows (tree : RowTree RowRef) (ts : List LinkTree) : List (Link × RowRef) :=
  ts.flatMap fun t => (rowsUnder tree t).map (t.link, ·)

/-- What is heard of saving child rows one after the other, what it leaves of all rows, and
whether every child row was saved. Each has the parent's values copied into it before its save;
the first that is not saved is the last that anything is heard of. -/
inductive ChildrenHeard (parent : RowRef) :
    List (Link × RowRef) → List Row → List AnsweredCall → List Row → Bool → Prop
  | done {rows : List Row} : ChildrenHeard parent [] rows [] rows true
  | stopped {l : Link} {child : RowRef} {rest : List (Link × RowRef)} {rows : List Row}
      {calls : List AnsweredCall} {row : Row} :
      l.child.SaveHeard ((Link.copied parent child l.pairs rows).getD child []) calls row false →
      ChildrenHeard parent ((l, child) :: rest) rows calls
        ((Link.copied parent child l.pairs rows).set child row) false
  | saved {l : Link} {child : RowRef} {rest : List (Link × RowRef)} {rows rows' : List Row}
      {calls more : List AnsweredCall} {row : Row} {done : Bool} :
      l.child.SaveHeard ((Link.copied parent child l.pairs rows).getD child []) calls row true →
      ChildrenHeard parent rest ((Link.copied parent child l.pairs rows).set child row) more rows'
        done →
      ChildrenHeard parent ((l, child) :: rest) rows (calls ++ more) rows' done

theorem mem_childRows {tree : RowTree RowRef} {ts : List LinkTree} {e : Link × RowRef}
    (h : e ∈ childRows tree ts) : ∃ t ∈ ts, e.1 = t.link ∧ e.2 ∈ rowsUnder tree t := by
  obtain ⟨t, ht, he⟩ := List.mem_flatMap.mp h
  obtain ⟨r, hr, rfl⟩ := List.mem_map.mp he
  exact ⟨t, ht, rfl, hr⟩

theorem childRows_mem {tree : RowTree RowRef} {ts : List LinkTree} {t : LinkTree} (ht : t ∈ ts)
    {r : RowRef} (hr : r ∈ rowsUnder tree t) : (t.link, r) ∈ childRows tree ts :=
  List.mem_flatMap.mpr ⟨t, ht, List.mem_map_of_mem hr⟩

variable {parent : RowRef} {children rest : List (Link × RowRef)} {rows rows' rows'' : List Row}
  {calls more : List AnsweredCall} {done : Bool}

theorem ChildrenHeard.append (h : ChildrenHeard parent children rows calls rows' true)
    (hrest : ChildrenHeard parent rest rows' more rows'' done) :
    ChildrenHeard parent (children ++ rest) rows (calls ++ more) rows'' done := by
  generalize htrue : true = all at h
  induction h with
  | done => exact hrest
  | stopped => cases htrue
  | saved hsave _ ih =>
    rw [List.append_assoc]
    exact .saved hsave (ih hrest htrue)

theorem ChildrenHeard.stop (h : ChildrenHeard parent children rows calls rows' false) :
    ChildrenHeard parent (children ++ rest) rows calls rows' false := by
  generalize hfalse : false = all at h
  induction h with
  | done => cases hfalse
  | stopped hsave => exact .stopped hsave
  | saved hsave _ ih => exact .saved hsave (ih hfalse)

theorem sameLengths_saved {m : Mapping} {row : Row} {child : RowRef} {pairs : List (Field × Field)}
    (h : m.SaveHeard ((Link.copied parent child pairs rows).getD child []) calls row done) :
    SameLengths rows ((Link.copied parent child pairs rows).set child row) :=
  Link.sameLengths_copied.trans (sameLengths_set h.length_eq)

theorem ChildrenHeard.sameLengths (h : ChildrenHeard parent children rows calls rows' done) :
    SameLengths rows rows' := by
  induction h with
  | done => exact fun _ => rfl
  | stopped hsave => exact sameLengths_saved hsave
  | saved hsave _ ih => exact (sameLengths_saved hsave).trans ih

/-- Every statement about a child row binds the parent's values in the link columns. -/
theorem ChildrenHeard.writes {schema : RecordSchema}
    (h : ChildrenHeard parent children rows calls rows' done)
    (hchildren : ∀ e ∈ children, e.1.Built schema ∧ parent ≠ e.2 ∧
      (rows.getD e.2 []).length = e.1.child.schema.fields.length) :
    ∀ e ∈ calls, ∃ l r, (l, r) ∈ children ∧ l.Writes (rows.getD parent []) e.call := by
  have hwrites : ∀ {l : Link} {child : RowRef} {rows : List Row} {calls : List AnsweredCall}
      {row : Row} {done : Bool}, l.Built schema → parent ≠ child →
      (rows.getD child []).length = l.child.schema.fields.length →
      l.child.SaveHeard ((Link.copied parent child l.pairs rows).getD child []) calls row done →
      ∀ e ∈ calls, l.Writes (rows.getD parent []) e.call := by
    intro l child rows calls row done hl hne hlen hsave e he
    rw [Link.getD_copied l hne] at hsave
    exact ⟨_, hsave.call_eq he, fun f hf => Link.carried_columns hl hlen hf⟩
  induction h with
  | done => simp
  | stopped hsave =>
    obtain ⟨hl, hne, hlen⟩ := hchildren _ List.mem_cons_self
    exact fun e he => ⟨_, _, List.mem_cons_self, hwrites hl hne hlen hsave e he⟩
  | @saved l child rest rows rows' calls more row done hsave _ ih =>
    obtain ⟨⟨hl, hne, hlen⟩, hrest⟩ := List.forall_mem_cons.mp hchildren
    intro e he
    rcases List.mem_append.mp he with he | he
    · exact ⟨_, _, List.mem_cons_self, hwrites hl hne hlen hsave e he⟩
    · obtain ⟨l', r, hmem, hw⟩ := ih (fun e he => ⟨(hrest e he).1, (hrest e he).2.1,
        (sameLengths_saved hsave e.2).trans (hrest e he).2.2⟩) e he
      rw [getD_set_of_ne _ hne, Link.copied_of_ne hne] at hw
      exact ⟨l', r, List.mem_cons_of_mem _ hmem, hw⟩

/-! ## Links that can be written through -/

section

variable {σ : Type} {h : Handle σ} {P E : Fact σ}

/-- Whether a link can be written through is known without any call. -/
theorem ensures_checkLink
    (hnote : ∀ level source text, Ensures h P (note level source text) (fun _ => P) E)
    (t : LinkTree) (operation : String) : Ensures h P (t.checkWritable operation)
      (fun ok w s => ok = t.isWritable ∧ P w s) E := by
  unfold LinkTree.checkWritable LinkTree.isWritable
  cases t.link.isLinked with
  | false => exact (hnote _ _ _).bind fun _ => ensures_pure fun w s hpre => ⟨rfl, hpre⟩
  | true =>
    cases t.children.isEmpty with
    | false => exact (hnote _ _ _).bind fun _ => ensures_pure fun w s hpre => ⟨rfl, hpre⟩
    | true => exact ensures_pure fun w s hpre => ⟨rfl, hpre⟩

/-- Where a link can be written through, child rows are deleted. -/
theorem ensures_deleteLink {t : LinkTree} {parent : RowRef} {Q : Fact σ} (hP : Unlogged P)
    (ht : t.isWritable = true) (hrows : Ensures h P (t.link.deleteRows parent) (fun _ => Q) E) :
    Ensures h P (t.delete parent) (fun _ => Q) E := by
  unfold LinkTree.delete
  refine (ensures_checkLink (fun _ _ _ => ensures_note hP) t "delete").bind fun ok =>
    ensures_of fun hok => ?_
  rw [hok, ht]
  exact hrows.bind fun _ => ensures_pure fun _ _ => id

theorem ensures_checkWritable
    (hnote : ∀ level source text, Ensures h P (note level source text) (fun _ => P) E)
    (operation : String) (ts : List LinkTree) : Ensures h P (checkWritable operation ts)
      (fun ok w s => ok = ts.all LinkTree.isWritable ∧ P w s) E := by
  induction ts with
  | nil => exact ensures_pure fun w s hpre => ⟨rfl, hpre⟩
  | cons t ts ih =>
    unfold checkWritable
    refine (ensures_checkLink hnote t operation).bind fun ok => ensures_of fun hok => ?_
    rw [List.all_cons, ← hok]
    cases ok with
    | true => exact ih
    | false => exact ensures_pure fun w s hpre => ⟨rfl, hpre⟩

end

/-! ## Saving child rows -/

/-- What is known after child rows were saved, up to one that was not. -/
def Saved {σ : Type} (parent : RowRef) (children : List (Link × RowRef)) (rows : List Row)
    (messages : List Message) (heard : List AnsweredCall) (done : Bool) :
    Fact (List AnsweredCall × σ) :=
  fun w s => ∃ calls rows', ChildrenHeard parent children rows calls rows' done ∧
    Heard rows' messages (heard ++ calls) w s

/-- A link through which the rows of a tree can be saved: it is known to admit them, they fit the
child record, and the handle answers for it. -/
structure Savable {σ : Type} (h : Handle σ) (schema : RecordSchema) (tree : RowTree RowRef)
    (rows : List Row) (t : LinkTree) : Prop where
  built : t.link.Built schema
  answered : t.link.child.AnsweredBy h
  writable : t.isWritable = true
  admitted : Admitted tree t
  fits : ∀ r ∈ rowsUnder tree t, (rows.getD r []).length = t.link.child.schema.fields.length

theorem Savable.of_sameLengths {σ : Type} {h : Handle σ} {schema : RecordSchema}
    {tree : RowTree RowRef} {t : LinkTree} (ht : Savable h schema tree rows t)
    (hlen : SameLengths rows rows') : Savable h schema tree rows' t :=
  ⟨ht.built, ht.answered, ht.writable, ht.admitted, fun r hr => (hlen r).trans (ht.fits r hr)⟩

section

variable {σ : Type} {h : Handle σ} {schema : RecordSchema} {messages : List Message}
  {heard : List AnsweredCall} {lr : LinkedRecord} {tree : RowTree RowRef}

/-- The child rows of one link are saved up to one that is not. -/
theorem tells_saveRows {l : Link} (hl : l.Built schema) (hh : l.child.AnsweredBy h)
    {rs : List RowRef} {i : Nat} (hparent : (rows.getD parent []).length = schema.fields.length)
    (hrows : ∀ r ∈ rs, (rows.getD r []).length = l.child.schema.fields.length) :
    Tells h (Heard rows messages heard) (l.saveRows parent rs i)
      (Saved parent (rs.map (l, ·)) rows messages heard) := by
  have hp := hl.parent.sound
  have hc := hl.child.sound
  induction rs generalizing rows heard i with
  | nil => exact ensures_pure fun w s hpre => ⟨[], rows, .done, by rwa [List.append_nil]⟩
  | cons r rs ih =>
    obtain ⟨hrow, hrows⟩ := List.forall_mem_cons.mp hrows
    have hcopied : SameLengths rows (Link.copied parent r l.pairs rows) := Link.sameLengths_copied
    unfold Link.saveRows
    refine (Link.tells_copies (fun e he => ?_) fun e he => ?_).bind fun _ => ?_
    · rw [hparent]
      exact hp.index_lt (hl.sound.parents _ (List.mem_map_of_mem he))
    · rw [hrow]
      exact hc.index_lt (hl.sound.children _ (List.mem_map_of_mem he))
    refine (Mapping.tells_save hc hh ((hcopied r).trans hrow)).bind fun done =>
      ensures_exists fun calls => ensures_exists fun row => ensures_of fun hsave => ?_
    have hlen := sameLengths_saved hsave
    cases done with
    | true =>
      refine (ih ((hlen parent).trans hparent) fun o ho => (hlen o).trans (hrows o ho)).weaken ?_
      rintro done w s ⟨more, rows', hmore, hpre⟩
      exact ⟨_, rows', .saved hsave hmore, by rwa [← List.append_assoc]⟩
    | false =>
      refine (Mapping.tells_noteKeys hc ((hlen r).trans hrow)).weaken ?_
      rintro done w s ⟨rfl, hpre⟩
      exact ⟨calls, _, .stopped hsave, hpre⟩

/-- A link's rows are not checked to any effect once the link is known to admit them. -/
theorem tells_saveChecked {l : Link} (hl : l.Built schema) (hh : l.child.AnsweredBy h)
    {rs : List RowRef} (hadmits : l.Admits rs.length)
    (hparent : (rows.getD parent []).length = schema.fields.length)
    (hrows : ∀ r ∈ rs, (rows.getD r []).length = l.child.schema.fields.length) :
    Tells h (Heard rows messages heard) (l.saveChecked parent rs)
      (Saved parent (rs.map (l, ·)) rows messages heard) := by
  unfold Link.saveChecked
  rw [Link.validate_of_admits hadmits]
  have hsaved : Tells h (Heard rows messages heard) (l.saveRows parent rs 0)
      (Saved parent (rs.map (l, ·)) rows messages heard) := tells_saveRows hl hh hparent hrows
  have hchecked : Tells h (Heard rows messages heard) (check (pure true))
      (fun ok w s => ok = true ∧ Heard rows messages heard w s) := fun _ _ hpre => ⟨rfl, hpre⟩
  refine hchecked.bind fun ok => ensures_of fun hok => ?_
  subst hok
  rw [if_neg (by simp)]
  split
  · exact tells_note.bind fun _ => hsaved
  · exact hsaved

theorem tells_save {t : LinkTree} (ht : Savable h schema tree rows t)
    (hparent : (rows.getD parent []).length = schema.fields.length) :
    Tells h (Heard rows messages heard) (t.save parent (rowsUnder tree t))
      (Saved parent ((rowsUnder tree t).map (t.link, ·)) rows messages heard) := by
  unfold LinkTree.save
  refine (ensures_checkLink (fun _ _ _ => tells_note) t "save").bind fun ok =>
    ensures_of fun hok => ?_
  rw [hok, ht.writable]
  exact tells_saveChecked ht.built ht.answered ht.admitted hparent ht.fits

/-- The child rows under all links are saved up to one that is not. -/
theorem tells_saveChildren {ts : List LinkTree} (hts : ∀ t ∈ ts, Savable h schema tree rows t)
    (hparent : (rows.getD tree.row []).length = schema.fields.length) :
    Tells h (Heard rows messages heard) (saveChildren tree ts)
      (Saved tree.row (childRows tree ts) rows messages heard) := by
  induction ts generalizing rows heard with
  | nil => exact ensures_pure fun w s hpre => ⟨[], rows, .done, by rwa [List.append_nil]⟩
  | cons t ts ih =>
    obtain ⟨ht, hts⟩ := List.forall_mem_cons.mp hts
    unfold saveChildren childRows
    rw [List.flatMap_cons]
    refine (tells_save ht hparent).bind fun done => ensures_exists fun calls =>
      ensures_exists fun rows' => ensures_of fun hfirst => ?_
    cases done with
    | false => exact ensures_pure fun w s hpre => ⟨calls, rows', hfirst.stop, hpre⟩
    | true =>
      have hlen := hfirst.sameLengths
      refine (ih (fun t ht => (hts t ht).of_sameLengths hlen) ((hlen _).trans hparent)).weaken ?_
      rintro done w s ⟨more, rows'', hmore, hpre⟩
      exact ⟨_, rows'', hfirst.append hmore, by rwa [← List.append_assoc]⟩

end

end LinkedRecord

end Tablewright
