import Tablewright.Link.Payload
import Tablewright.Proofs.Link.Bounds
import Tablewright.Proofs.Schema.Accumulation

/-! Nested payloads of any shape. The parent and all children are read, one after the other, and a
tree comes out exactly if there was nothing to report about any of them. This needs every item under
a link to be an object: the first that is none, where the child has something to be read, ends it
all without a result and without a message of its own. -/

namespace Tablewright

open Check RecordSchema

namespace Link

variable {l : Link} {forInsert : Bool} {vs : List Value} {i : Nat} {es : List (String × Value)}

/-- The items that a payload has under a link, with their positions. -/
def items (l : Link) (es : List (String × Value)) : List (Value × Nat) :=
  (payloads (Value.ofOption (Entries.get? l.name es))).zipIdx

/-- Nothing in an item is a failure to read. -/
def Readable (l : Link) (forInsert : Bool) (item : Value × Nat) : Prop :=
  l.child.schema.Readable (l.inputMode forInsert item.2) item.1

/-- A child row can be looked for in an item. -/
def Suits (l : Link) (forInsert : Bool) (item : Value × Nat) : Prop :=
  l.child.schema.Suits (l.inputMode forInsert item.2) item.1

/-- What is reported about an item. -/
def itemProblems (l : Link) (ctx : RequestContext) (forInsert : Bool) (item : Value × Nat) :
    List Message :=
  (l.child.schema.parseRow ctx (l.inputMode forInsert item.2) item.1).problems

/-- An item is read to its end, and its row comes out exactly if nothing was reported about it. -/
def Judged (l : Link) (ctx : RequestContext) (forInsert : Bool) (item : Value × Nat) : Prop :=
  (l.child.schema.parseRow ctx (l.inputMode forInsert item.2) item.1).Judges True
    (fun row => row.isSome = true) (l.itemProblems ctx forInsert item)

theorem judged_of_readable (ctx : RequestContext) {item : Value × Nat}
    (hr : l.Readable forInsert item) (hs : l.Suits forInsert item) : l.Judged ctx forInsert item := by
  obtain ⟨ms, hjudges, -⟩ := judges_parseRow ctx hr hs
  rwa [Judged, itemProblems, hjudges.problems_eq]

/-- Whatever is reported about an item tells the link and the position. -/
theorem names_itemProblems (ctx : RequestContext) {item : Value × Nat}
    (hr : l.Readable forInsert item) {m : Message} (hm : m ∈ l.itemProblems ctx forInsert item) :
    m.object = some l.name ∧ m.row = some (item.2 : Int) := by
  by_cases hs : l.Suits forInsert item
  · obtain ⟨ms, hjudges, hnames⟩ := judges_parseRow ctx hr hs
    rw [itemProblems, hjudges.problems_eq] at hm
    exact hnames m hm
  · rw [itemProblems, (ends_parseRow_notAMap hs).problems_eq] at hm
    cases hm

/-- All items are read, and everything about them is reported. -/
theorem judges_parseRows {ctx : RequestContext}
    (h : ∀ item ∈ vs.zipIdx i, l.Judged ctx forInsert item) :
    (l.parseRows ctx forInsert vs i).Judges True (fun rows => rows.2 = true)
      ((vs.zipIdx i).flatMap (l.itemProblems ctx forInsert)) := by
  induction vs generalizing i with
  | nil => exact judges_pure (iff_of_true rfl trivial)
  | cons v vs ih =>
    obtain ⟨hitem, hrest⟩ := List.forall_mem_cons.mp h
    obtain ⟨row, hrow, hsome⟩ := hitem.elim trivial
    obtain ⟨⟨rows, ok⟩, hrows, hok⟩ := (ih hrest).elim trivial
    refine ⟨(row.toList ++ rows, row.isSome && ok), hrow.bind hrows.map, ?_⟩
    show (row.isSome && ok) = true ↔ _
    rw [Bool.and_eq_true, List.zipIdx_cons, List.flatMap_cons, List.append_eq_nil_iff, true_and]
    exact and_congr hsome hok

/-- An item that is no object ends the reading of its link. -/
theorem ends_parseRows_notAMap (ctx : RequestContext)
    (hr : ∀ item ∈ vs.zipIdx i, l.Readable forInsert item)
    (h : ∃ item ∈ vs.zipIdx i, ¬ l.Suits forInsert item) :
    ∃ ms, (l.parseRows ctx forInsert vs i).Ends (.error .notAMap) ms := by
  induction vs generalizing i with
  | nil => exact absurd h (by simp)
  | cons v vs ih =>
    obtain ⟨hitem, hrest⟩ := List.forall_mem_cons.mp hr
    by_cases hs : l.Suits forInsert (v, i)
    · obtain ⟨row, hrow, -⟩ := judged_of_readable ctx hitem hs
      obtain ⟨bad, hbad, hnot⟩ := h
      rcases List.mem_cons.mp hbad with rfl | hbad
      · exact absurd hs hnot
      · obtain ⟨ms, hrows⟩ := ih hrest ⟨bad, hbad, hnot⟩
        exact ⟨_, hrow.bind hrows.bind_error⟩
    · exact ⟨_, (ends_parseRow_notAMap hs).bind_error⟩

end Link

namespace LinkedRecord

variable {lr : LinkedRecord} {forInsert : Bool} {es : List (String × Value)} {ts : List LinkTree}

/-- What is reported about the children in a payload. -/
def childProblems (ctx : RequestContext) (forInsert : Bool) (es : List (String × Value))
    (ts : List LinkTree) : List Message :=
  ts.flatMap fun t => (t.link.items es).flatMap (t.link.itemProblems ctx forInsert)

/-- The children that are read under a link. A link with null for its items has none. -/
theorem parseChildren_cons (ctx : RequestContext) (t : LinkTree)
    (found : List (String × List (RowTree Row))) (ok : Bool) :
    parseChildren ctx forInsert (.map es) (t :: ts) found ok =
      if (Value.ofOption (Entries.get? t.name es)).isNull then
        parseChildren ctx forInsert (.map es) ts found ok
      else
        t.link.parseRows ctx forInsert (Link.payloads (Value.ofOption (Entries.get? t.name es))) 0
          >>= fun rows => parseChildren ctx forInsert (.map es) ts
            (Entries.put t.name (rows.1.map .leaf) found) (rows.2 && ok) := rfl

theorem items_eq_nil_of_null {l : Link}
    (h : (Value.ofOption (Entries.get? l.name es)).isNull = true) : l.items es = [] := by
  rw [Link.items]
  cases hv : Value.ofOption (Entries.get? l.name es) with
  | null => rfl
  | _ =>
    rw [hv] at h
    cases h

theorem judges_parseChildren {ctx : RequestContext}
    (h : ∀ t ∈ ts, ∀ item ∈ t.link.items es, t.link.Judged ctx forInsert item)
    (found : List (String × List (RowTree Row))) (ok : Bool) :
    (parseChildren ctx forInsert (.map es) ts found ok).Judges (ok = true)
      (fun children => children.2 = true) (childProblems ctx forInsert es ts) := by
  induction ts generalizing found ok with
  | nil => exact judges_pure Iff.rfl
  | cons t ts ih =>
    obtain ⟨ht, hts⟩ := List.forall_mem_cons.mp h
    rw [parseChildren_cons, childProblems, List.flatMap_cons]
    split
    · rename_i hnull
      rw [items_eq_nil_of_null hnull]
      exact ih hts found ok
    · obtain ⟨rows, hrows, hgood⟩ := (Link.judges_parseRows ht).elim trivial
      obtain ⟨children, hchildren, hgood'⟩ := ih hts _ (rows.2 && ok)
      refine ⟨children, hrows.bind hchildren, ?_⟩
      have hnone : rows.2 = true ↔
          (t.link.items es).flatMap (t.link.itemProblems ctx forInsert) = [] := hgood
      rw [hgood', Bool.and_eq_true, hnone, List.append_eq_nil_iff, and_assoc, and_left_comm]
      exact Iff.rfl

/-- An item that is no object ends the reading of all links. -/
theorem ends_parseChildren_notAMap (ctx : RequestContext)
    (hr : ∀ t ∈ ts, ∀ item ∈ t.link.items es, t.link.Readable forInsert item)
    (h : ∃ t ∈ ts, ∃ item ∈ t.link.items es, ¬ t.link.Suits forInsert item)
    (found : List (String × List (RowTree Row))) (ok : Bool) :
    ∃ ms, (parseChildren ctx forInsert (.map es) ts found ok).Ends (.error .notAMap) ms := by
  induction ts generalizing found ok with
  | nil => exact absurd h (by simp)
  | cons t ts ih =>
    obtain ⟨ht, hts⟩ := List.forall_mem_cons.mp hr
    rw [parseChildren_cons]
    by_cases hbad : ∃ item ∈ t.link.items es, ¬ t.link.Suits forInsert item
    · split
      · rename_i hnull
        rw [items_eq_nil_of_null hnull] at hbad
        exact absurd hbad (by simp)
      · obtain ⟨ms, hrows⟩ := Link.ends_parseRows_notAMap ctx ht hbad
        exact ⟨ms, hrows.bind_error⟩
    · push Not at hbad
      have hrest : ∃ u ∈ ts, ∃ item ∈ u.link.items es, ¬ u.link.Suits forInsert item := by
        obtain ⟨u, hu, item, hitem, hnot⟩ := h
        rcases List.mem_cons.mp hu with rfl | hu
        · exact absurd (hbad item hitem) hnot
        · exact ⟨u, hu, item, hitem, hnot⟩
      split
      · exact ih hts hrest found ok
      · obtain ⟨rows, hrows, -⟩ :=
          Link.judges_parseRows fun item hitem =>
            Link.judged_of_readable ctx (ht item hitem) (hbad item hitem)
        obtain ⟨ms, hchildren⟩ := ih hts hrest _ (rows.2 && ok)
        exact ⟨_, hrows.bind hchildren⟩

/-- What is reported about a payload: first the parent, then the children. -/
def problems (lr : LinkedRecord) (ctx : RequestContext) (forInsert : Bool)
    (es : List (String × Value)) : List Message :=
  (lr.mapping.schema.parseRow ctx { forInsert := forInsert } (.map es)).problems ++
    childProblems ctx forInsert es lr.links

/-- Nothing in a payload is a failure to read, neither in the parent nor in any child. -/
structure Readable (lr : LinkedRecord) (forInsert : Bool) (es : List (String × Value)) : Prop where
  parent : lr.mapping.schema.Readable { forInsert := forInsert } (.map es)
  children : ∀ t ∈ lr.links, ∀ item ∈ t.link.items es, t.link.Readable forInsert item

/-- Every item under a link is an object, unless the child has nothing to be read from it. -/
def Suits (lr : LinkedRecord) (forInsert : Bool) (es : List (String × Value)) : Prop :=
  ∀ t ∈ lr.links, ∀ item ∈ t.link.items es, t.link.Suits forInsert item

/-- The row of the parent comes out with children, if it comes out and all items are judged well. -/
theorem ends_parse_of_judged {ctx : RequestContext} {row : Option Row} {ms : List Message}
    (hparent : (lr.mapping.schema.parseRow ctx { forInsert := forInsert } (.map es)).Ends
      (.ok row) ms)
    (hitems : ∀ t ∈ lr.links, ∀ item ∈ t.link.items es, t.link.Judged ctx forInsert item) :
    ∃ children ok, (lr.parse ctx forInsert (.map es)).Ends
        (.ok (if ok = true then row.map (.node · children) else none))
        (ms ++ childProblems ctx forInsert es lr.links) ∧
      (ok = true ↔ childProblems ctx forInsert es lr.links = []) := by
  obtain ⟨⟨children, ok⟩, hchildren, hok⟩ := (judges_parseChildren hitems [] true).elim rfl
  exact ⟨children, ok, hparent.bind hchildren.map, hok⟩

theorem judges_parse (ctx : RequestContext) (hr : lr.Readable forInsert es)
    (hs : lr.Suits forInsert es) : (lr.parse ctx forInsert (.map es)).Judges True
      (fun tree => tree.isSome = true) (lr.problems ctx forInsert es) := by
  obtain ⟨ms, hparent, -⟩ := judges_parseRow ctx hr.parent (.inl ⟨es, rfl⟩)
  rw [problems, hparent.problems_eq]
  obtain ⟨row, hrow, hsome⟩ := hparent.elim trivial
  obtain ⟨children, ok, hends, hok⟩ := ends_parse_of_judged hrow fun t ht item hitem =>
    Link.judged_of_readable ctx (hr.children t ht item hitem) (hs t ht item hitem)
  refine ⟨_, hends, ?_⟩
  have htree : (if ok = true then row.map (RowTree.node · children) else none).isSome = true ↔
      row.isSome = true ∧ ok = true := by
    cases ok <;> simp
  rw [true_and, List.append_eq_nil_iff]
  exact htree.trans (and_congr hsome hok)

theorem ends_parse_notAMap (ctx : RequestContext) (hr : lr.Readable forInsert es)
    (hs : ¬ lr.Suits forInsert es) :
    ∃ ms, (lr.parse ctx forInsert (.map es)).Ends (.error .notAMap) ms := by
  have hbad : ∃ t ∈ lr.links, ∃ item ∈ t.link.items es, ¬ t.link.Suits forInsert item := by
    by_contra hnone
    push Not at hnone
    exact hs hnone
  obtain ⟨ms, ⟨row, hrow, -⟩, -⟩ := judges_parseRow ctx hr.parent (.inl ⟨es, rfl⟩)
  obtain ⟨ms', hchildren⟩ := ends_parseChildren_notAMap ctx hr.children hbad [] true
  exact ⟨_, hrow.bind hchildren.bind_error⟩

/-- Parsing a nested payload reports everything. If every item under a link is an object, a result
comes out, it is none exactly if there are messages, and the messages are those about the parent and
about each child in turn; a message about a child has the link's name and the child's position. If
some item is no object, and its child has something to be read, parsing ends with a failure. -/
theorem parse_reports (ctx : RequestContext) (hr : lr.Readable forInsert es) :
    (lr.Suits forInsert es → ∃ tree, (lr.parse ctx forInsert (.map es)).Ends (.ok tree)
        (lr.problems ctx forInsert es) ∧ (tree = none ↔ lr.problems ctx forInsert es ≠ [])) ∧
    (¬ lr.Suits forInsert es → ∃ ms, (lr.parse ctx forInsert (.map es)).Ends (.error .notAMap) ms) ∧
    ∀ t ∈ lr.links, ∀ item ∈ t.link.items es, ∀ m ∈ t.link.itemProblems ctx forInsert item,
      m.object = some t.name ∧ m.row = some (item.2 : Int) := by
  refine ⟨fun hs => ?_, fun hs => ends_parse_notAMap ctx hr hs, fun t ht item hitem m hm => ?_⟩
  · obtain ⟨tree, hends, hsome⟩ := (judges_parse ctx hr hs).elim trivial
    refine ⟨tree, hends, ?_⟩
    rw [← Option.not_isSome_iff_eq_none]
    exact not_congr hsome
  · exact Link.names_itemProblems ctx (hr.children t ht item hitem) hm

/-! ## Baskets of goods -/

def basketDeclaration : RecordDeclaration where
  name := "basket"
  nameInDb := some "baskets"
  useTimestampCheck := false
  operations := []
  fields := [RecordSchema.invoiceColumn "name" "name" .text .primaryKey]

def goodDeclaration : RecordDeclaration where
  name := "good"
  nameInDb := some "goods"
  useTimestampCheck := false
  operations := []
  fields := [
    RecordSchema.invoiceColumn "basket" "basket" .text .primaryKey,
    RecordSchema.invoiceColumn "product" "product" .text .primaryKey]

def baskets : Mapping := ⟨RecordSchema.declared basketDeclaration, false, "CURRENT_TIMESTAMP"⟩

def goods : Mapping := ⟨RecordSchema.declared goodDeclaration, false, "CURRENT_TIMESTAMP"⟩

def goodsDeclaration : LinkDeclaration where
  name := "goods"
  parent := "basket"
  child := "good"
  parentFields := ["name"]
  childFields := ["basket"]
  isMultiRow := true
  minRows := 0
  maxRows := 0
  errorMessageId := none

def goodsLink : Link := ((Link.build goodsDeclaration baskets goods).result? {}).getD default

theorem goodsLink_name : goodsLink.name = "goods" := by decide +kernel

def basketRecord : LinkedRecord := ⟨baskets, [.node goodsLink []]⟩

theorem total_of_baskets : (∀ f ∈ baskets.schema.fields, f.Total) ∧
    ∀ f ∈ goodsLink.child.schema.fields, f.Total := by
  have htexts : ∀ f ∈ baskets.schema.fields ++ goodsLink.child.schema.fields,
      f.valueType = .text ∧ f.schema.pattern = none := by
    decide +kernel
  have htotal : ∀ f ∈ baskets.schema.fields ++ goodsLink.child.schema.fields, f.Total :=
    fun f hf => Field.total_of_text (htexts f hf).1 (htexts f hf).2
  exact List.forall_mem_append.mp htotal

theorem basketRecord_readable (forInsert : Bool) (es : List (String × Value)) :
    basketRecord.Readable forInsert es where
  parent := readable_of_total total_of_baskets.1
  children := by
    intro t ht item _
    rw [List.mem_singleton.mp ht]
    exact readable_of_total total_of_baskets.2

/-- A basket with a good that is named and one that is not. -/
def weekly : List (String × Value) :=
  [("name", .text "weekly"),
    ("goods", .list [.map [("product", .text "milk")], .map [("product", .text " ")]])]

theorem parse_reports_basket : (basketRecord.parse {} true (.map weekly)).Ends (.ok none)
      (basketRecord.problems {} true weekly) ∧
    (basketRecord.problems {} true weekly).map (fun m => (m.object, m.row)) =
      [(some "goods", some 1)] := by
  have hplaces : (basketRecord.problems {} true weekly).map (fun m => (m.object, m.row)) =
      [(some "goods", some 1)] := by
    decide +kernel
  obtain ⟨hends, -, -⟩ := parse_reports {} (basketRecord_readable true weekly)
  obtain ⟨tree, hends, hnone⟩ := hends fun t ht item hitem => by
    rw [List.mem_singleton.mp ht] at hitem ⊢
    rw [LinkTree.link, Link.items, goodsLink_name] at hitem
    rcases List.mem_pair.mp hitem with rfl | rfl <;> exact .inl ⟨_, rfl⟩
  have hsome : basketRecord.problems {} true weekly ≠ [] := fun h => by
    rw [h] at hplaces
    cases hplaces
  rw [hnone.mpr hsome] at hends
  exact ⟨hends, hplaces⟩

/-- A basket with a good that is given by its bare name. -/
def bareWeekly : List (String × Value) :=
  [("name", .text "weekly"), ("goods", .list [.text "milk"])]

/-- A good that is given by its bare name, where an object is expected, ends the reading of its
basket, although every field reads whatever is given for it. Nothing has been reported then. -/
theorem bare_good_ends_basket : (∀ f ∈ baskets.schema.fields, f.Total) ∧
    (∀ f ∈ goodsLink.child.schema.fields, f.Total) ∧
    (∃ ms, (basketRecord.parse {} true (.map bareWeekly)).Ends (.error .notAMap) ms) ∧
    (basketRecord.parse {} true (.map bareWeekly)).problems = [] := by
  refine ⟨total_of_baskets.1, total_of_baskets.2, ?_, by decide +kernel⟩
  refine ends_parse_notAMap {} (basketRecord_readable true _) fun hs => ?_
  have hbare : goodsLink.Suits true (.text "milk", 0) := by
    refine hs (.node goodsLink []) (List.mem_singleton.mpr rfl) _ ?_
    rw [LinkTree.link, Link.items, goodsLink_name]
    exact List.mem_singleton.mpr rfl
  rcases hbare with ⟨es, hes⟩ | hreads
  · cases hes
  · have hproduct : goodsLink.child.schema.fields.any
        (readsPayload (goodsLink.inputMode true 0)) = true := by
      decide +kernel
    obtain ⟨f, hf, hread⟩ := List.any_eq_true.mp hproduct
    cases (hreads f hf).symm.trans hread

end LinkedRecord

end Tablewright
