import Tablewright.Proofs.Link.Calls
import Tablewright.Proofs.Link.Cascade

/-! Deleting a row with its child rows. Under each link the stored rows go that are linked to the
row at hand, then the row that has its keys. What a statement deletes does not depend on what the
others did, so what is left in a table is what none of them finds. -/

namespace Tablewright

open Work TableStore

namespace Link

variable {l : Link}

/-- The store without the child rows of a row. -/
def swept (l : Link) (row : Row) (s : TableStore) : TableStore :=
  (s.delete l.child.table (l.conditions row)).2

theorem rows_swept (l : Link) (row : Row) (s : TableStore) (name : String) :
    ((l.swept row s).table name).rows = (s.table name).rows.filter fun stored =>
      !(l.child.table == name && stored.agrees (l.conditions row)) := rows_delete ..

variable {d : Dialect} {known : List Statement} {rows : List Row} {s : TableStore} {r : RowRef}

theorem ensures_deleteRows [hd : d.Knows known] (hl : l.deletion ∈ known)
    (hp : ∀ p ∈ l.parentFields, p.index < (rows.getD r []).length) :
    Ensures d.handle (At rows s) (l.deleteRows r)
      (fun _ => At rows (l.swept (rows.getD r []) s)) (fun _ _ => False) := by
  unfold deleteRows
  refine (ensures_knownValues hp).bind fun values => ensures_of fun hvalues => ?_
  subst hvalues
  have hperform : s.perform (l.values (rows.getD r [])) none l.deletion.stored =
      (.ok ((s.delete l.child.table (l.conditions (rows.getD r []))).1, .null),
        l.swept (rows.getD r []) s) := by
    rw [swept, ← zip_values]
    rfl
  refine (Mapping.ensures_count hl hperform).bind fun n => ensures_of fun _ => ?_
  exact ensures_note Mapping.unlogged_at

end Link

theorem LinkTree.ensures_delete {t : LinkTree} {d : Dialect} {known : List Statement}
    {rows : List Row} {s : TableStore} {r : RowRef} [hd : d.Knows known]
    (hl : t.link.deletion ∈ known) (ht : t.isWritable = true)
    (hp : ∀ p ∈ t.link.parentFields, p.index < (rows.getD r []).length) :
    Ensures d.handle (At rows s) (t.delete r)
      (fun _ => At rows (t.link.swept (rows.getD r []) s)) (fun _ _ => False) :=
  LinkedRecord.ensures_deleteLink Mapping.unlogged_at ht (Link.ensures_deleteRows hl hp)

namespace LinkedRecord

variable {lr : LinkedRecord} {s : TableStore}

/-- The statements by which a row is deleted with its child rows. -/
def deleting (lr : LinkedRecord) : List Statement :=
  lr.mapping.statements ++ lr.links.map fun t => t.link.deletion

/-! ## The store after the child rows are deleted -/

/-- The store without the child rows of a row under some links. -/
def sweptAll (ts : List LinkTree) (row : Row) (s : TableStore) : TableStore :=
  ts.foldl (fun s t => t.link.swept row s) s

theorem rows_sweptAll (ts : List LinkTree) (row : Row) (s : TableStore) (name : String) :
    ((sweptAll ts row s).table name).rows = (s.table name).rows.filter fun stored =>
      !ts.any fun t => t.link.child.table == name && stored.agrees (t.link.conditions row) := by
  induction ts generalizing s with
  | nil => simp [sweptAll]
  | cons t ts ih =>
    have hrest : ((sweptAll (t :: ts) row s).table name).rows = _ := ih (t.link.swept row s)
    rw [hrest, Link.rows_swept, List.filter_filter]
    refine List.filter_congr fun stored _ => ?_
    rw [List.any_cons, Bool.not_or, Bool.and_comm]

/-- The store without a stored row and its child rows, as the row at hand finds them. -/
def cleared (lr : LinkedRecord) (row : Row) (s : TableStore) : TableStore :=
  (lr.mapping.deleted row (sweptAll lr.links row s)).2

theorem rows_cleared (lr : LinkedRecord) (row : Row) (s : TableStore) (name : String) :
    ((lr.cleared row s).table name).rows = (s.table name).rows.filter fun stored =>
      !(lr.mapping.table == name && stored.agrees (lr.mapping.identity row)) &&
        !lr.links.any fun t => t.link.child.table == name &&
          stored.agrees (t.link.conditions row) := by
  have hrows : ((lr.cleared row s).table name).rows = _ := rows_delete ..
  rw [hrows, rows_sweptAll, List.filter_filter]

section

variable {d : Dialect} {rows : List Row} {r : RowRef}

theorem ensures_deleteChildren {known : List Statement} [hd : d.Knows known] {ts : List LinkTree}
    (hl : ∀ t ∈ ts, t.link.deletion ∈ known) (hwritable : ∀ t ∈ ts, t.isWritable = true)
    (hp : ∀ t ∈ ts, ∀ p ∈ t.link.parentFields, p.index < (rows.getD r []).length) :
    Ensures d.handle (At rows s) (ts.forM fun t => do let _ ← t.delete r)
      (fun _ => At rows (sweptAll ts (rows.getD r []) s)) (fun _ _ => False) := by
  induction ts generalizing s with
  | nil => exact ensures_pure fun _ _ => id
  | cons t ts ih =>
    obtain ⟨hl₁, hl⟩ := List.forall_mem_cons.mp hl
    obtain ⟨ht, hwritable⟩ := List.forall_mem_cons.mp hwritable
    obtain ⟨hp₁, hp⟩ := List.forall_mem_cons.mp hp
    refine Ensures.bind (Q := fun _ => At rows (t.link.swept (rows.getD r []) s)) ?_ fun _ =>
      ih hl hwritable hp
    exact (LinkTree.ensures_delete hl₁ ht hp₁).bind fun _ => ensures_pure fun _ _ => id

/-- If all links can be written through, the child rows are deleted under each of them and then the
row, and it is said whether it was still there. -/
theorem ensures_delete [hd : d.Knows lr.deleting] (hl : lr.Built)
    (hwritable : ∀ t ∈ lr.links, t.isWritable = true) (hk : lr.mapping.hasKeys = true)
    (hlen : (rows.getD r []).length = lr.mapping.schema.fields.length) :
    Ensures d.handle (At rows s) (lr.delete r)
      (fun done w t =>
        done = decide (∃ stored ∈ lr.mapping.rowsIn (sweptAll lr.links (rows.getD r []) s),
          stored.agrees (lr.mapping.identity (rows.getD r [])) = true) ∧
        At rows (lr.cleared (rows.getD r []) s) w t)
      (fun _ _ => False) := by
  have hmapping : d.Knows lr.mapping.statements := hd.mono (List.subset_append_left ..)
  have hlinks : ∀ t ∈ lr.links, t.link.deletion ∈ lr.deleting := fun t ht =>
    List.mem_append_right _ (List.mem_map_of_mem ht)
  unfold delete
  refine (ensures_checkWritable (fun _ _ _ => ensures_note Mapping.unlogged_at) "delete"
    lr.links).bind fun ok => ensures_of fun hok => ?_
  rw [hok, List.all_eq_true.mpr hwritable]
  refine Ensures.bind (ensures_deleteChildren hlinks hwritable fun t ht =>
    (hl.links t ht).parent_lt hlen) fun _ => ?_
  refine (Mapping.ensures_delete hk).imp (fun _ _ => id) ?_ ?_
  · intro done w t hpre
    obtain ⟨-, hdone, hend⟩ := hpre
    refine ⟨?_, hend⟩
    rw [hdone]
    exact decide_eq_decide.mpr Mapping.deleted_pos_iff
  · intro w t hpre
    exact absurd hlen hpre.1

end

end LinkedRecord

end Tablewright
