import Tablewright.Proofs.Link.Deleting
import Tablewright.Proofs.Link.Unsupported
import Tablewright.Proofs.Schema.Keys
import Tablewright.Proofs.Store.Taken

/-! Deleting a row by its keys. Child rows are looked for with the values of the row at hand, the
stored row itself with its keys. A row that was made from keys has what is stored if links are over
keys; then every stored child row goes with the stored row, and nothing else does. A link over any
other field leaves child rows behind. -/

namespace Tablewright

open Work TableStore

namespace Link

variable {l : Link} {row : Row} {parent child : StoredRow}

/-- A stored row is a child row of a stored parent row: it equals it in the columns of the link. -/
def Owns (l : Link) (parent child : StoredRow) : Prop :=
  ∀ e ∈ l.pairs, (child.column e.2.columnName).same (parent.column e.1.columnName) = true

instance : Decidable (l.Owns parent child) := inferInstanceAs (Decidable (∀ e ∈ l.pairs, _))

/-- The row at hand has the values of a stored row that the link is over. -/
def Mirrors (l : Link) (row : Row) (parent : StoredRow) : Prop :=
  ∀ e ∈ l.pairs, (row.getD e.1.index .null).isPlain = true ∧
    (parent.column e.1.columnName).same (row.getD e.1.index .null) = true

/-- What has the values of a stored row finds the child rows of this one. -/
theorem Mirrors.agrees_iff (h : l.Mirrors row parent) :
    child.agrees (l.conditions row) = true ↔ l.Owns parent child := by
  rw [agrees_conditions]
  refine forall₂_congr fun e he => ?_
  obtain ⟨hplain, hparent⟩ := h e he
  constructor
  · intro hchild
    exact Value.same_of_same hplain hchild hparent
  · intro hchild
    exact Value.same_trans hplain hchild hparent

end Link

namespace LinkedRecord

variable {lr : LinkedRecord} {row : Row} {parent stored : StoredRow} {s : TableStore} {name : String}

/-- A stored row goes with a stored parent row: it is this row, or one of its child rows. -/
def GoesWith (lr : LinkedRecord) (parent : StoredRow) (name : String) (stored : StoredRow) : Prop :=
  name = lr.mapping.table ∧ stored = parent ∨
    ∃ t ∈ lr.links, t.link.child.table = name ∧ t.link.Owns parent stored

open scoped Classical in
/-- The rows of a table that do not go with a stored parent row. -/
noncomputable def remaining (lr : LinkedRecord) (parent : StoredRow) (name : String)
    (rows : List StoredRow) : List StoredRow :=
  rows.filter fun stored => ¬ lr.GoesWith parent name stored

theorem mem_remaining {rows : List StoredRow} : stored ∈ lr.remaining parent name rows ↔
    stored ∈ rows ∧ ¬ lr.GoesWith parent name stored := by simp [remaining]

theorem filter_eq_remaining {rows : List StoredRow} {q : StoredRow → Bool}
    (h : ∀ stored ∈ rows, q stored = true ↔ ¬ lr.GoesWith parent name stored) :
    rows.filter q = lr.remaining parent name rows := by
  refine List.filter_congr fun stored hm => ?_
  rw [Bool.eq_iff_iff, h stored hm]
  simp

/-- The row at hand follows a stored row: what links are over is a key, or as it is stored. -/
def Follows (lr : LinkedRecord) (row : Row) (parent : StoredRow) : Prop :=
  ∀ t ∈ lr.links, ∀ e ∈ t.link.pairs, e.1 ∈ lr.mapping.schema.keyFields ∨
    (parent.column e.1.columnName).same (row.getD e.1.index .null) = true

/-- A row of keys has what is stored at the keys. -/
theorem Follows.mirrors (h : lr.Follows row parent) (hrow : lr.mapping.schema.OfKeys row)
    (hfound : parent.agrees (lr.mapping.identity row) = true) :
    ∀ t ∈ lr.links, t.link.Mirrors row parent := by
  intro t ht e he
  refine ⟨hrow.plain _, ?_⟩
  rcases h t ht e he with hkey | hsame
  · have hwhere : e.1 ∈ lr.mapping.whereFields := by
      rw [Mapping.whereFields, if_pos hrow.hasKeys]
      exact List.mem_append_left _ hkey
    have hbound : lr.mapping.boundValue e.1 row = row.getD e.1.index .null :=
      Mapping.fill_of_not_null (hrow.known e.1 hkey).2
    exact hbound ▸ Mapping.same_of_identity hfound hwhere
  · exact hsame

/-- What a row finds under its links is a child row of the stored row whose values it has. -/
theorem owned_iff (h : ∀ t ∈ lr.links, t.link.Mirrors row parent) :
    (lr.links.any fun t => t.link.child.table == name && stored.agrees (t.link.conditions row)) =
      true ↔ ∃ t ∈ lr.links, t.link.child.table = name ∧ t.link.Owns parent stored := by
  rw [List.any_eq_true]
  refine exists_congr fun t => and_congr_right fun ht => ?_
  rw [Bool.and_eq_true, beq_iff_eq, (h t ht).agrees_iff]

section

variable (hmirrors : ∀ t ∈ lr.links, t.link.Mirrors row parent)
  (hidentity : ∀ stored ∈ lr.mapping.rowsIn s,
    stored.agrees (lr.mapping.identity row) = true ↔ stored = parent)
include hmirrors hidentity

/-- What is left is what does not go with the stored row that the keys find. -/
theorem rows_remaining (name : String) :
    ((lr.cleared row s).table name).rows = lr.remaining parent name (s.table name).rows := by
  rw [rows_cleared]
  refine filter_eq_remaining fun stored hstored => ?_
  have hself : (lr.mapping.table == name && stored.agrees (lr.mapping.identity row)) = true ↔
      name = lr.mapping.table ∧ stored = parent := by
    rw [Bool.and_eq_true, beq_iff_eq, eq_comm]
    refine and_congr_right fun hname => hidentity stored ?_
    rwa [hname] at hstored
  rw [← Bool.not_or, Bool.not_eq_true', ← Bool.not_eq_true, Bool.or_eq_true, hself,
    owned_iff hmirrors]
  rfl

/-- The stored row outlasts its child rows, unless it is one of them. -/
theorem found_after_children (hparent : parent ∈ lr.mapping.rowsIn s) :
    (∃ stored ∈ lr.mapping.rowsIn (sweptAll lr.links row s),
      stored.agrees (lr.mapping.identity row) = true) ↔
    ∀ t ∈ lr.links, t.link.child.table = lr.mapping.table → ¬ t.link.Owns parent parent := by
  have hleft : parent ∈ lr.mapping.rowsIn (sweptAll lr.links row s) ↔
      ∀ t ∈ lr.links, t.link.child.table = lr.mapping.table → ¬ t.link.Owns parent parent := by
    rw [Mapping.rowsIn, rows_sweptAll, List.mem_filter, Bool.not_eq_true', ← Bool.not_eq_true,
      owned_iff hmirrors]
    refine (and_iff_right hparent).trans ?_
    simp
  rw [← hleft]
  constructor
  · intro hsome
    obtain ⟨stored, hstored, hfound⟩ := hsome
    have hbefore : stored ∈ lr.mapping.rowsIn s := by
      rw [Mapping.rowsIn, rows_sweptAll] at hstored
      exact List.mem_of_mem_filter hstored
    rwa [(hidentity stored hbefore).mp hfound] at hstored
  · intro hstill
    exact ⟨parent, hstill, (hidentity parent hparent).mpr rfl⟩

end

/-- A row is deleted by its keys. Take the stored row that has them, and no other has, and let all
links be over keys or over what the row at hand has as it is stored. Then the stored row and its
child rows are gone, and every table has its other rows as before. It is said that the row was
there, unless it was deleted already as a child row of its own. -/
theorem delete_leaves_no_orphans {lr : LinkedRecord} (hl : lr.Built)
    (hwritable : ∀ t ∈ lr.links, t.isWritable = true) (d : Dialect) [d.Knows lr.deleting]
    {ctx : RequestContext}
    (htenant : lr.mapping.schema.tenantField.isSome = true → ctx.tenant.isPlain = true)
    {payload : Value} {row : Row} {j k : Journal}
    (hparse : (lr.mapping.schema.parseKeys ctx payload).Returns j (some row) k)
    {w : Workspace} {r : RowRef} (hrow : w.row r = row) {s : TableStore}
    (hunique : (lr.mapping.rowsIn s).Pairwise fun x y => ¬ lr.mapping.KeyedAlike x y)
    {parent : StoredRow} (hparent : parent ∈ lr.mapping.rowsIn s)
    (hfound : parent.agrees (lr.mapping.identity row) = true) (hfollows : lr.Follows row parent) :
    ∃ done w' t, ((lr.delete r).start w).run d.handle s = ((.ok done, w'), t) ∧
      (done = true ↔ ∀ u ∈ lr.links, u.link.child.table = lr.mapping.table →
        ¬ u.link.Owns parent parent) ∧
      parent ∉ lr.mapping.rowsIn t ∧
      (∀ u ∈ lr.links, ∀ child ∈ u.link.child.rowsIn t, ¬ u.link.Owns parent child) ∧
      ∀ name, (t.table name).rows = lr.remaining parent name (s.table name).rows := by
  subst hrow
  have hkeys := RecordSchema.returns_parseKeys hl.valid htenant hparse
  have hmirrors := hfollows.mirrors hkeys hfound
  have hidentity : ∀ stored ∈ lr.mapping.rowsIn s,
      stored.agrees (lr.mapping.identity (w.row r)) = true ↔ stored = parent := by
    intro stored hstored
    constructor
    · intro hagrees
      exact Mapping.eq_of_keyedAlike hunique hstored hparent
        (Mapping.keyedAlike_of_identity (fun g _ => hkeys.plain g.index) hagrees hfound)
    · intro heq
      rw [heq]
      exact hfound
  have hrows := rows_remaining hmirrors hidentity
  obtain ⟨⟨⟨result, w'⟩, t⟩, hrun⟩ : ∃ out, ((lr.delete r).start w).run d.handle s = out := ⟨_, rfl⟩
  have hlen : (w.rows.getD r []).length = lr.mapping.schema.fields.length := hkeys.length
  have hend := (ensures_delete hl hwritable hkeys.hasKeys hlen).of_run hrun ⟨rfl, rfl⟩
  cases result with
  | error e => exact hend.elim
  | ok done =>
    obtain ⟨hdone, -, rfl⟩ := hend
    have hgoes : ∀ name, ∀ stored ∈ ((lr.cleared (w.row r) s).table name).rows,
        ¬ lr.GoesWith parent name stored := by
      intro name stored hstored
      rw [hrows] at hstored
      exact (mem_remaining.mp hstored).2
    refine ⟨done, w', _, hrun, ?_, fun hm => ?_, fun u hu child hm howns => ?_, hrows⟩
    · rw [hdone, decide_eq_true_iff]
      exact found_after_children hmirrors hidentity hparent
    · exact hgoes _ parent hm (.inl ⟨rfl, rfl⟩)
    · exact hgoes _ child hm (.inr ⟨u, hu, rfl, howns⟩)

/-! ## An order by its number -/

def orderBook : TableStore where
  tables := [
    ("orders", { key := ["id"], rows := [
      [("id", .int 1), ("customer", .text "Ada")],
      [("id", .int 2), ("customer", .text "Bob")]] }),
    ("order_lines", { key := ["order_id", "line_no"], rows := [
      [("order_id", .int 1), ("line_no", .int 1), ("product", .text "bolts")],
      [("order_id", .int 2), ("line_no", .int 1), ("product", .text "nuts")]] })]

/-- The number of the second order. -/
def secondOrder : Value := .map [("id", .text "2")]

/-- The row that the number makes. -/
def secondOrderRow : Row := (((orders.schema.parseKeys {} secondOrder).result? {}).bind id).getD []

/-- The dialect that knows how rows are deleted with their child rows. -/
def deletingDialect (lr : LinkedRecord) : Dialect := .reference lr.deleting .ascii fun _ => none

/-- The number of an order is its key. -/
theorem follows_number (row : Row) (parent : StoredRow) : orderRecord.Follows row parent := by
  intro t ht e he
  rw [List.mem_singleton.mp ht] at he
  have hs : orders.schema.Sound := orderRecord_built.valid.sound
  have hplaces : ∀ e ∈ linesLink.pairs, e.1.index ∈ orders.schema.keyFields.map (·.index) := by
    decide +kernel
  have hfield : e.1 ∈ orders.schema.fields :=
    linesLink_built.2.sound.parents e.1 (List.mem_map_of_mem he)
  exact .inl (hs.mem_of_index (fun f hf => (hs.key_mem hf).1) hfield (hplaces e he))

/-- The second order and its line are deleted, the first order and its line are not. -/
theorem delete_leaves_no_orphans_order : ∃ w' t,
    ((orderRecord.delete 0).start { rows := [secondOrderRow] }).run
      orderRecord.deletingDialect.handle orderBook = ((.ok true, w'), t) ∧
    [("id", .int 2), ("customer", .text "Bob")] ∉ orders.rowsIn t ∧
    [("id", .int 1), ("customer", .text "Ada")] ∈ orders.rowsIn t ∧
    [("order_id", .int 1), ("line_no", .int 1), ("product", .text "bolts")] ∈ lines.rowsIn t ∧
    ∀ line ∈ lines.rowsIn t, ¬ linesLink.Owns [("id", .int 2), ("customer", .text "Bob")] line := by
  have hknown : orderRecord.deletingDialect.Knows orderRecord.deleting :=
    Dialect.knows_reference (by decide +kernel) ..
  obtain ⟨row, k, hparse, hrow⟩ := Check.returns_of_found
    (c := orders.schema.parseKeys {} secondOrder) (j := {}) (by decide +kernel)
  obtain rfl : secondOrderRow = row := congrArg (Option.getD · []) hrow
  have hunique : (orders.rowsIn orderBook).Pairwise fun x y => ¬ orders.KeyedAlike x y := by
    decide +kernel
  have hfound : StoredRow.agrees [("id", .int 2), ("customer", .text "Bob")]
      (orders.identity secondOrderRow) = true := by decide +kernel
  have htables : ∀ u ∈ orderRecord.links, u.link.child.table ≠ orderRecord.mapping.table := by
    decide +kernel
  obtain ⟨done, w', t, hrun, hdone, hgone, hlines, hrest⟩ := delete_leaves_no_orphans
    orderRecord_built (by decide +kernel) orderRecord.deletingDialect (fun _ => rfl) hparse
    (w := { rows := [secondOrderRow] }) (r := 0) rfl hunique (.tail _ (.head _)) hfound
    (follows_number _ _)
  obtain rfl : done = true := hdone.mpr fun u hu htable => absurd htable (htables u hu)
  have hchild : linesLink.child = lines := linesLink_built.1
  refine ⟨w', t, hrun, hgone, ?_, ?_, ?_⟩
  · rw [Mapping.rowsIn, hrest]
    refine mem_remaining.mpr ⟨.head _, fun hgoes => ?_⟩
    rcases hgoes with ⟨-, hsame⟩ | ⟨u, hu, htable, -⟩
    · simp at hsame
    · exact htables u hu htable
  · rw [Mapping.rowsIn, hrest]
    refine mem_remaining.mpr ⟨.head _, fun hgoes => ?_⟩
    rcases hgoes with ⟨hname, -⟩ | ⟨u, hu, -, howns⟩
    · exact htables _ List.mem_cons_self (hchild ▸ hname)
    · rw [List.mem_singleton.mp hu] at howns
      exact absurd howns (by decide +kernel)
  · have hmine := hlines _ List.mem_cons_self
    rwa [show (LinkTree.node linesLink []).link.child = lines from hchild] at hmine

/-! ## A site whose visits stay -/

def siteDeclaration : RecordDeclaration where
  name := "site"
  nameInDb := some "sites"
  useTimestampCheck := false
  operations := []
  fields := [
    RecordSchema.invoiceColumn "number" "number" .integer .primaryKey,
    RecordSchema.invoiceColumn "address" "address" .text .requiredData]

def sites : Mapping := ⟨RecordSchema.declared siteDeclaration, false, "CURRENT_TIMESTAMP"⟩

/-- The visits to a site, by its address and not by its number. -/
def siteVisits : Link :=
  ((Link.build { visitsDeclaration with parent := "site" } sites visits).result? {}).getD default

theorem siteVisits_built : siteVisits.child = visits ∧ siteVisits.Built sites.schema :=
  Link.built_of_result (RecordSchema.valid_declared (by decide +kernel))
    (RecordSchema.valid_declared (by decide +kernel)) (by decide +kernel)

def siteRecord : LinkedRecord := ⟨sites, [.node siteVisits []]⟩

theorem siteRecord_built : siteRecord.Built where
  valid := RecordSchema.valid_declared (by decide +kernel)
  links := by
    intro t ht
    rw [List.mem_singleton.mp ht]
    exact siteVisits_built.2

def siteBook : TableStore where
  tables := [
    ("sites", { key := ["number"], rows := [[("number", .int 1), ("address", .text "/home")]] }),
    ("visits", { key := ["id"], rows := [[("id", .int 1), ("page", .text "/home")]] })]

def firstSite : Value := .map [("number", .int 1)]

def firstSiteRow : Row := (((sites.schema.parseKeys {} firstSite).result? {}).bind id).getD []

/-- How the site is deleted by its number. -/
def siteDeleted : (Except Failure Bool × Workspace) × TableStore :=
  ((siteRecord.delete 0).start { rows := [firstSiteRow] }).run siteRecord.deletingDialect.handle
    siteBook

/-- The number says nothing of the address. The site is deleted, and a visit to it is left. -/
theorem visits_outlive_site : siteRecord.Built ∧ (∀ t ∈ siteRecord.links, t.isWritable = true) ∧
    siteRecord.deletingDialect.Knows siteRecord.deleting ∧
    (∃ k, (sites.schema.parseKeys {} firstSite).Returns {} (some firstSiteRow) k) ∧
    ((sites.rowsIn siteBook).Pairwise fun x y => ¬ sites.KeyedAlike x y) ∧
    ∃ site ∈ sites.rowsIn siteBook, site.agrees (sites.identity firstSiteRow) = true ∧
      ∃ w' t, ((siteRecord.delete 0).start { rows := [firstSiteRow] }).run
          siteRecord.deletingDialect.handle siteBook = ((.ok true, w'), t) ∧
        ∃ visit ∈ visits.rowsIn t, siteVisits.Owns site visit := by
  refine ⟨siteRecord_built, by decide +kernel, Dialect.knows_reference (by decide +kernel) .., ?_,
    by decide +kernel, [("number", .int 1), ("address", .text "/home")], .head _, by decide +kernel, ?_⟩
  · obtain ⟨row, k, hparse, hrow⟩ := Check.returns_of_found
      (c := sites.schema.parseKeys {} firstSite) (j := {}) (by decide +kernel)
    obtain rfl : firstSiteRow = row := congrArg (Option.getD · []) hrow
    exact ⟨k, hparse⟩
  · have hresult : siteDeleted.1.1.toOption = some true := by decide +kernel
    have hleft : ∃ visit ∈ visits.rowsIn siteDeleted.2,
        siteVisits.Owns [("number", .int 1), ("address", .text "/home")] visit := by decide +kernel
    obtain ⟨⟨⟨result, w'⟩, t⟩, hrun⟩ : ∃ out, siteDeleted = out := ⟨_, rfl⟩
    rw [hrun] at hresult hleft
    obtain rfl := eq_ok_of_toOption hresult
    exact ⟨w', t, hrun, hleft⟩

end LinkedRecord

end Tablewright
