import Tablewright.Proofs.Link.Cascade
import Tablewright.Proofs.Mapping.Unsupported

/-! Operations on a row with its children that cannot be carried out. Links are looked at before
anything else is done, and a row is written before its children, so reading and writing stop
before they ask for anything. Deleting goes the other way, from the children to the row: what the
row's record does not support comes out when the child rows are gone. -/

namespace Tablewright

open Work

namespace LinkTree

variable {t : LinkTree} {w : Workspace}

/-- Whether a link can be written through is told without any call. -/
theorem checkWritable_idle (t : LinkTree) (operation : String) (w : Workspace) :
    (t.checkWritable operation).Idle w t.isWritable := by
  unfold checkWritable isWritable
  cases t.link.isLinked with
  | false => exact idle_note.bind fun _ _ => idle_pure
  | true =>
    cases t.children.isEmpty with
    | false => exact idle_note.bind fun _ _ => idle_pure
    | true => exact idle_pure

/-- Child rows are not deleted without a call. -/
theorem not_returns_delete (h : t.isWritable = true) {parent : RowRef} {done : Bool}
    {w' : Workspace} : ¬ (t.delete parent).Returns w done w' := by
  intro hdelete
  obtain ⟨ok, w₁, hok, hdelete⟩ := returns_bind.mp hdelete
  obtain rfl : ok = true := ((t.checkWritable_idle "delete" w).eq_of_returns hok).trans h
  obtain ⟨_, _, hrows, -⟩ := returns_bind.mp hdelete
  obtain ⟨values, _, -, hrows⟩ := returns_bind.mp hrows
  obtain ⟨n, _, hcall, -⟩ := returns_bind.mp hrows
  exact not_returns_ask hcall

end LinkTree

namespace LinkedRecord

variable {lr : LinkedRecord} {w : Workspace}

theorem checkWritable_idle (operation : String) (ts : List LinkTree) (w : Workspace) :
    (checkWritable operation ts).Idle w (ts.all LinkTree.isWritable) := by
  induction ts generalizing w with
  | nil => exact idle_pure
  | cons t ts ih =>
    unfold checkWritable
    refine (t.checkWritable_idle operation w).bind fun w' _ => ?_
    cases h : t.isWritable with
    | false =>
      rw [List.all_cons, h]
      exact idle_pure
    | true =>
      rw [List.all_cons, h]
      exact ih w'

theorem not_all_isWritable {ts : List LinkTree} (h : ∃ t ∈ ts, t.isWritable = false) :
    ts.all LinkTree.isWritable = false := by simpa using h

/-- Work that goes on only if every link can be written through. -/
theorem idle_of_unwritable {operation : String} {ts : List LinkTree} {rest : Work Bool}
    (h : ∃ t ∈ ts, t.isWritable = false) (w : Workspace) :
    (do
      if !(← checkWritable operation ts) then return false
      rest : Work Bool).Idle w false := by
  have hcheck := checkWritable_idle operation ts w
  rw [not_all_isWritable h] at hcheck
  exact hcheck.bind fun _ _ => idle_pure

theorem read_idle (h : lr.mapping.supports .read = false) (r : RowRef) (w : Workspace) :
    (lr.read r).Idle w none :=
  (Mapping.perform_idle h r w).bind fun _ _ => idle_pure

/-- The row is written before its children, so nothing is. -/
theorem write_idle (hs : lr.mapping.schema.Sound) {op : TreeOperation}
    (h : lr.mapping.supports op.onRow = false) {tree : RowTree RowRef}
    (hlen : (w.row tree.row).length = lr.mapping.schema.fields.length) :
    (lr.write op tree).Idle w false := by
  unfold write
  refine (checkWritable_idle op.name lr.links w).bind fun w₁ hrows₁ => ?_
  cases lr.links.all LinkTree.isWritable with
  | false => exact idle_pure
  | true =>
    obtain ⟨k, -, hvalid, -⟩ := lr.returns_validate tree w₁.journal
    refine (idle_check hvalid).bind fun w₂ hrows₂ => ?_
    cases decide (∀ t ∈ lr.links, Admitted tree t) with
    | false => exact idle_pure
    | true =>
      refine (Mapping.perform_idle h tree.row w₂).bind fun w₃ hrows₃ => ?_
      have hrow : w₃.row tree.row = w.row tree.row :=
        congrArg (List.getD · tree.row []) (hrows₃.trans (hrows₂.trans hrows₁))
      obtain ⟨keys, hkeys⟩ := hs.emitKeys_of_length ((congrArg List.length hrow).trans hlen)
      exact idle_row.bind fun _ _ => (idle_lift hkeys).bind fun _ _ =>
        idle_note.bind fun _ _ => idle_pure

/-- Without keys a row cannot be deleted, but its child rows can, and they come first. -/
theorem delete_idle_iff (h : lr.mapping.supports .delete = false) (r : RowRef) (w : Workspace) :
    (lr.delete r).Idle w false ↔ lr.links = [] ∨ ∃ t ∈ lr.links, t.isWritable = false := by
  by_cases hall : ∃ t ∈ lr.links, t.isWritable = false
  · exact iff_of_true (idle_of_unwritable hall w) (.inr hall)
  · have hcheck := checkWritable_idle "delete" lr.links w
    rw [List.all_eq_true.mpr (by simpa using hall)] at hcheck
    cases hlinks : lr.links with
    | nil =>
      refine iff_of_true ?_ (.inl rfl)
      unfold delete
      refine hcheck.bind fun w₁ _ => ?_
      rw [hlinks]
      exact Mapping.perform_idle h r w₁
    | cons t ts =>
      have ht : t.isWritable = true := by simp_all
      refine iff_of_false ?_ (by simp_all)
      intro hidle
      obtain ⟨w', hdelete, -⟩ := hidle
      obtain ⟨ok, w₁, hok, hdelete⟩ := returns_bind.mp hdelete
      obtain rfl : ok = true := hcheck.eq_of_returns hok
      rw [hlinks] at hdelete
      obtain ⟨_, _, hchildren, -⟩ := returns_bind.mp hdelete
      obtain ⟨_, _, hfirst, -⟩ := returns_bind.mp hchildren
      obtain ⟨_, _, hfirst, -⟩ := returns_bind.mp hfirst
      exact LinkTree.not_returns_delete ht hfirst

/-- An operation that a record does not support, or that cannot be carried out under its links,
ends with `false`, asks for nothing and leaves every row as it is: each operation on a row or on
several, and reading and writing with children. Only deleting a row without keys is different. It
does nothing exactly if there are no links, or one of them cannot be written through; else the
rows of the first child are deleted before it is noted that the row itself cannot be. -/
theorem unsupported_idle (lr : LinkedRecord) (hv : lr.mapping.schema.Valid) (w : Workspace) :
    (∀ op r, lr.mapping.supports op = false → (lr.mapping.perform op r).Idle w false) ∧
    (∀ rs, lr.mapping.supports .insert = false → (lr.mapping.insertAll rs).Idle w false) ∧
    (∀ rs, lr.mapping.supports .update = false → (lr.mapping.updateAll rs).Idle w false) ∧
    (∀ rs, lr.mapping.supports .save = false → (lr.mapping.saveAll rs).Idle w false) ∧
    (∀ r, lr.mapping.supports .read = false → (lr.read r).Idle w none) ∧
    (∀ op tree, (∃ t ∈ lr.links, t.isWritable = false) → (lr.write op tree).Idle w false) ∧
    (∀ op tree, lr.mapping.supports (TreeOperation.onRow op) = false →
      (w.row tree.row).length = lr.mapping.schema.fields.length →
      (lr.write op tree).Idle w false) ∧
    (∀ r, (∃ t ∈ lr.links, t.isWritable = false) → (lr.delete r).Idle w false) ∧
    (∀ r, lr.mapping.supports .delete = false → ((lr.delete r).Idle w false ↔
      lr.links = [] ∨ ∃ t ∈ lr.links, t.isWritable = false)) where
  left _ r h := Mapping.perform_idle h r w
  right := ⟨fun rs h => Mapping.insertAll_idle h rs w, fun rs h => Mapping.updateAll_idle h rs w,
    fun rs h => Mapping.saveAll_idle h rs w, fun r h => read_idle h r w,
    fun _ _ h => idle_of_unwritable h w, fun _ _ h hlen => write_idle hv.sound h hlen,
    fun _ h => idle_of_unwritable h w, fun r h => delete_idle_iff h r w⟩

/-! ## Pages without keys, and the visits to them -/

def pageDeclaration : RecordDeclaration where
  name := "page"
  nameInDb := some "pages"
  useTimestampCheck := false
  operations := []
  fields := [RecordSchema.invoiceColumn "address" "address" .text .requiredData]

def visitDeclaration : RecordDeclaration where
  name := "visit"
  nameInDb := some "visits"
  useTimestampCheck := false
  operations := []
  fields := [
    RecordSchema.invoiceColumn "id" "id" .integer .generatedPrimaryKey,
    RecordSchema.invoiceColumn "page" "page" .text .requiredData]

def pages : Mapping := ⟨RecordSchema.declared pageDeclaration, false, "CURRENT_TIMESTAMP"⟩

def visits : Mapping := ⟨RecordSchema.declared visitDeclaration, false, "CURRENT_TIMESTAMP"⟩

def visitsDeclaration : LinkDeclaration where
  name := "visits"
  parent := "page"
  child := "visit"
  parentFields := ["address"]
  childFields := ["page"]
  isMultiRow := true
  minRows := 0
  maxRows := 0
  errorMessageId := none

def visitsLink : Link := ((Link.build visitsDeclaration pages visits).result? {}).getD default

def pageRecord : LinkedRecord := ⟨pages, [.node visitsLink []]⟩

def pageRows : Workspace where
  rows := [["/home"].map .text, [.null, .null]]

/-- A page and its visit. -/
def pageTree : RowTree RowRef := .node 0 [("visits", [.leaf 1])]

/-- Saving a page and its visit does nothing, since pages have no keys. Deleting the page does
something all the same. -/
theorem unsupported_idle_page : pages.supports .save = false ∧
    ((pageRecord.write .save pageTree).start pageRows).heard counting [] = [] ∧
    ¬ (pageRecord.delete 0).Idle pageRows false := by
  have hkeys : pages.hasKeys = false := by decide +kernel
  have hwritable : (LinkTree.node visitsLink []).isWritable = true := by decide +kernel
  have hlength : (pageRows.row pageTree.row).length = pages.schema.fields.length := by decide +kernel
  have hvalid : pages.schema.Valid := RecordSchema.valid_declared (by decide +kernel)
  obtain ⟨-, -, -, -, -, -, hwrite, -, hdelete⟩ := unsupported_idle pageRecord hvalid pageRows
  refine ⟨hkeys, ((hwrite .save pageTree hkeys hlength).run counting []).1, fun hidle => ?_⟩
  rcases (hdelete 0 hkeys).mp hidle with hnone | ⟨t, ht, hfalse⟩
  · cases hnone
  · rw [List.mem_singleton.mp ht, hwritable] at hfalse
    cases hfalse

end LinkedRecord

end Tablewright
