import Tablewright.Proofs.Link.Accumulation
import Tablewright.Proofs.Link.Copying
import Tablewright.Proofs.Schema.Obeying

/-! Keyed lists of child records. The columns of a link are filled in from the parent when a child
is saved, and until then have their defaults in the child's row. Keyed lists are asked before that,
while the payload is read. For a field whose list is selected by no column of the link this makes no
difference: it is asked for the list that the completed row selects. -/

namespace Tablewright

open Check RecordSchema

namespace RecordSchema

variable {s : RecordSchema} {ctx : RequestContext} {mode : InputMode} {payload : Value}

theorem LegibleRow.judges (h : s.LegibleRow ctx mode payload) (hs : s.Sound) :
    (s.parseRow ctx mode payload).Judges True (fun row => row.isSome = true)
      (s.problemsOf ctx mode payload) := by
  refine ⟨_, h.ends hs, ?_⟩
  rw [true_and, ← List.isEmpty_iff]
  cases (s.problemsOf ctx mode payload).isEmpty <;> simp

end RecordSchema

namespace Link

variable {l : Link} {ctx : RequestContext} {forInsert : Bool} {parent row : Row}
  {item : Value × Nat} {f : Field}

/-- Of the fields that are read from an item, none has its list selected by a column of the link. -/
def KeysUnlinked (l : Link) : Prop :=
  ∀ f ∈ l.child.schema.fields, f.index ∉ Mapping.places l.childFields →
    ∀ i ∈ f.listKey, i ∉ Mapping.places l.childFields

/-- The row of an item with the parent's values in the columns of the link. -/
def completed (l : Link) (ctx : RequestContext) (forInsert : Bool) (parent : Row)
    (item : Value × Nat) : Row :=
  l.carried parent (l.child.schema.rowOf ctx (l.inputMode forInsert item.2) item.1)

/-- An item can be read to its end. -/
def Legible (l : Link) (ctx : RequestContext) (forInsert : Bool) (item : Value × Nat) : Prop :=
  l.child.schema.LegibleRow ctx (l.inputMode forInsert item.2) item.1

/-- Something that an item gives for a field is refused. -/
def Refuses (l : Link) (forInsert : Bool) (item : Value × Nat) (f : Field) : Prop :=
  RecordSchema.Refuses (l.inputMode forInsert item.2) item.1 f

/-- The completed row of an item has for a field that is no column of the link a value outside the
keyed list that it selects. -/
def Misfits (l : Link) (ctx : RequestContext) (forInsert : Bool) (parent : Row)
    (item : Value × Nat) (f : Field) : Prop :=
  l.child.schema.Misfits (l.inputMode forInsert item.2) (l.completed ctx forInsert parent item) f

instance : Decidable l.KeysUnlinked :=
  inferInstanceAs (Decidable (∀ f ∈ l.child.schema.fields,
    f.index ∉ Mapping.places l.childFields → ∀ i ∈ f.listKey, i ∉ Mapping.places l.childFields))

instance : Decidable (l.Refuses forInsert item f) :=
  inferInstanceAs (Decidable (RecordSchema.Refuses _ _ _))

instance : Decidable (l.Misfits ctx forInsert parent item f) :=
  inferInstanceAs (Decidable (l.child.schema.Misfits _ _ _))

theorem legible_of_result (hs : l.child.schema.Sound) (h : ((l.child.schema.parseRow ctx
    (l.inputMode forInsert item.2) item.1).result? {}).isSome = true) :
    l.Legible ctx forInsert item := by
  obtain ⟨row, k, hrow, -⟩ := returns_of_result h
  exact hs.legibleRow_of_returns hrow

theorem getD_carried {i : Nat} (hi : i ∉ Mapping.places l.childFields) (hlt : i < row.length) :
    (l.carried parent row).getD i .null = row.getD i .null := by
  rcases carry_place parent l.pairs row hlt with ⟨p, c, hpair, rfl, -⟩ | ⟨-, hkept⟩
  · exact absurd (List.mem_map_of_mem (List.mem_map_of_mem hpair)) hi
  · exact hkept

/-- What is outside its list in the completed row is outside it in the row that was read. -/
theorem misfits_iff (hs : l.child.schema.Sound) (hkeys : l.KeysUnlinked)
    (hf : f ∈ l.child.schema.fields) : l.Misfits ctx forInsert parent item f ↔
      l.child.schema.Misfits (l.inputMode forInsert item.2)
        (l.child.schema.rowOf ctx (l.inputMode forInsert item.2) item.1) f := by
  refine and_congr_right fun hunlinked => ?_
  have hlen : (l.child.schema.rowOf ctx (l.inputMode forInsert item.2) item.1).length =
      l.child.schema.fields.length := List.length_map _
  -- The link writes neither the place of the field nor that of the field which selects its list.
  rw [completed, getD_carried hunlinked (hlen ▸ hs.index_lt hf)]
  refine exists_congr fun list => exists_congr fun g => and_congr_right fun _ =>
    and_congr_right fun hg => ?_
  obtain ⟨i, hi, hat⟩ := Option.bind_eq_some_iff.mp hg
  obtain rfl := hs.index_eq i g hat
  rw [getD_carried (hkeys f hf hunlinked _ hi) (hlen ▸ hs.index_lt (List.mem_of_getElem? hat))]

theorem itemProblems_eq (hs : l.child.schema.Sound) (h : l.Legible ctx forInsert item) :
    l.itemProblems ctx forInsert item =
      l.child.schema.problemsOf ctx (l.inputMode forInsert item.2) item.1 :=
  (h.ends hs).problems_eq

theorem judged_of_legible (hs : l.child.schema.Sound) (h : l.Legible ctx forInsert item) :
    l.Judged ctx forInsert item := by
  rw [Judged, itemProblems_eq hs h]
  exact h.judges hs

/-- There is nothing to report about an item of which nothing is refused, and whose completed row
has all values in their lists. -/
theorem itemProblems_eq_nil (hs : l.child.schema.Sound) (hkeys : l.KeysUnlinked)
    (h : l.Legible ctx forInsert item)
    (hgood : ∀ f ∈ l.child.schema.fields,
      ¬ l.Refuses forInsert item f ∧ ¬ l.Misfits ctx forInsert parent item f) :
    l.itemProblems ctx forInsert item = [] := by
  rw [itemProblems_eq hs h, problemsOf_eq_nil_iff]
  refine ⟨fun f hf hrejected => ?_, fun f hf hmisfits => ?_⟩
  · exact (hgood f hf).1 ((rejected_iff ctx (h.places f hf)).mp hrejected)
  · exact (hgood f hf).2 ((misfits_iff hs hkeys hf).mpr hmisfits)

/-- A value outside its list in the completed row of an item is reported, with the name of its field
and the place of the item. -/
theorem reports_misfit (hs : l.child.schema.Sound) (hkeys : l.KeysUnlinked)
    (h : l.Legible ctx forInsert item) (hf : f ∈ l.child.schema.fields)
    (hmisfits : l.Misfits ctx forInsert parent item f) :
    ∃ m ∈ l.itemProblems ctx forInsert item,
      m.field = some f.name ∧ m.object = some l.name ∧ m.row = some (item.2 : Int) := by
  have hmisfits := (misfits_iff hs hkeys hf).mp hmisfits
  rcases l.child.schema.dependentProblems_cases (l.inputMode forInsert item.2)
    (l.child.schema.rowOf ctx (l.inputMode forInsert item.2) item.1) f with
    ⟨-, hfits⟩ | ⟨⟨m, hone, hfield⟩, -⟩
  · exact absurd hmisfits hfits
  · have hm : m ∈ l.child.schema.dependentProblems (l.inputMode forInsert item.2)
        (l.child.schema.rowOf ctx (l.inputMode forInsert item.2) item.1) f := by
      rw [hone]
      exact List.mem_singleton_self m
    refine ⟨m, ?_, hfield, names_dependentProblems hm⟩
    rw [itemProblems_eq hs h, problemsOf, dependentProblems_flatMap]
    exact List.mem_append_right _ (List.mem_flatMap.mpr ⟨f, hf, hm⟩)

end Link

namespace LinkedRecord

variable {lr : LinkedRecord} {ctx : RequestContext} {forInsert : Bool} {es : List (String × Value)}
  {parent : Row} {j k : Journal}

/-- Where no column of a link selects a list for another field of the child, keyed lists are as good
as asked about the rows that are saved. If the parent is accepted and nothing that an item gives is
refused, a tree comes out as soon as every item, completed with the values of the parent, has all
its values in the lists that it selects. An item that, completed so, has a value outside its list is
reported with the name of the field, the link and its position, and no tree comes out. -/
theorem parse_asks_keyed_lists (hs : lr.mapping.schema.Valid)
    (hlinks : ∀ t ∈ lr.links, t.link.child.schema.Valid ∧ t.link.KeysUnlinked)
    (hparent : (lr.mapping.schema.parseRow ctx { forInsert := forInsert } (.map es)).Returns j
      (some parent) k)
    (hitems : ∀ t ∈ lr.links, ∀ item ∈ t.link.items es, t.link.Legible ctx forInsert item) :
    ((∀ t ∈ lr.links, ∀ item ∈ t.link.items es, ∀ f ∈ t.link.child.schema.fields,
        ¬ t.link.Refuses forInsert item f ∧ ¬ t.link.Misfits ctx forInsert parent item f) →
      ∃ children,
        (lr.parse ctx forInsert (.map es)).Ends (.ok (some (.node parent children))) []) ∧
    ∀ t ∈ lr.links, ∀ item ∈ t.link.items es, ∀ f ∈ t.link.child.schema.fields,
      t.link.Misfits ctx forInsert parent item f →
        ∃ ms, (lr.parse ctx forInsert (.map es)).Ends (.ok none) ms ∧ ∃ m ∈ ms,
          m.field = some f.name ∧ m.object = some t.name ∧ m.row = some (item.2 : Int) := by
  obtain ⟨rfl, haccepts⟩ := hs.sound.accepts hparent
  have hjudged : ∀ t ∈ lr.links, ∀ item ∈ t.link.items es, t.link.Judged ctx forInsert item :=
    fun t ht item hitem =>
      Link.judged_of_legible (hlinks t ht).1.sound (hitems t ht item hitem)
  obtain ⟨children, ok, hends, hok⟩ := ends_parse_of_judged (haccepts.ends hs.sound) hjudged
  rw [List.nil_append] at hends
  refine ⟨fun hgood => ?_, fun t ht item hitem f hf hmisfits => ?_⟩
  · have hnone : childProblems ctx forInsert es lr.links = [] :=
      List.flatMap_eq_nil_iff.mpr fun t ht => List.flatMap_eq_nil_iff.mpr fun item hitem =>
        Link.itemProblems_eq_nil (hlinks t ht).1.sound (hlinks t ht).2 (hitems t ht item hitem)
          (hgood t ht item hitem)
    rw [hok.mpr hnone, hnone] at hends
    exact ⟨children, hends⟩
  · obtain ⟨m, hm, hnames⟩ := Link.reports_misfit (hlinks t ht).1.sound (hlinks t ht).2
      (hitems t ht item hitem) hf hmisfits
    have hmem : m ∈ childProblems ctx forInsert es lr.links :=
      List.mem_flatMap.mpr ⟨t, ht, List.mem_flatMap.mpr ⟨item, hitem, hm⟩⟩
    have hbad : ok = false := Bool.eq_false_iff.mpr fun hgood => by
      rw [hok.mp hgood] at hmem
      cases hmem
    rw [hbad] at hends
    exact ⟨_, hends, m, hmem, hnames⟩

/-! ## Houses of owners and of regions -/

def houseDeclaration : RecordDeclaration where
  name := "house"
  nameInDb := some "houses"
  useTimestampCheck := false
  operations := []
  fields := [
    invoiceColumn "number" "number" .integer .primaryKey,
    invoiceColumn "owner" "owner" .text .optionalData,
    invoiceColumn "state" "state" .text .requiredData,
    { invoiceColumn "district" "district" .text .optionalData with
      listKey := some "state"
      valueList := some ⟨"districts", [], [("KA", ["BLR", "MYS"]), ("TN", ["MAA"])]⟩ }]

def ownerDeclaration : RecordDeclaration where
  name := "owner"
  nameInDb := some "owners"
  useTimestampCheck := false
  operations := []
  fields := [invoiceColumn "name" "name" .text .primaryKey]

def regionDeclaration : RecordDeclaration where
  name := "region"
  nameInDb := some "regions"
  useTimestampCheck := false
  operations := []
  fields := [invoiceColumn "state" "state" .text .primaryKey]

def houses : Mapping := ⟨declared houseDeclaration, false, "CURRENT_TIMESTAMP"⟩

def owners : Mapping := ⟨declared ownerDeclaration, false, "CURRENT_TIMESTAMP"⟩

def regions : Mapping := ⟨declared regionDeclaration, false, "CURRENT_TIMESTAMP"⟩

/-- The houses of a parent, by one column. -/
def housesOf (parent : Mapping) (field column : String) : Link :=
  ((Link.build {
    name := "houses"
    parent := parent.schema.name
    child := "house"
    parentFields := [field]
    childFields := [column]
    isMultiRow := true
    minRows := 0
    maxRows := 0
    errorMessageId := none } parent houses).result? {}).getD default

def ownerRecord : LinkedRecord := ⟨owners, [.node (housesOf owners "name" "owner") []]⟩

def regionRecord : LinkedRecord := ⟨regions, [.node (housesOf regions "state" "state") []]⟩

/-- The house of an owner, in a district of its state. -/
def oneHouse : List (String × Value) :=
  [("name", .text "Ada"), ("houses", .list [
    .map [("number", .int 1), ("state", .text "KA"), ("district", .text "MYS")]])]

/-- The houses of an owner, of which the second is in a district of another state. -/
def twoHouses : List (String × Value) :=
  [("name", .text "Ada"), ("houses", .list [
    .map [("number", .int 1), ("state", .text "KA"), ("district", .text "MYS")],
    .map [("number", .int 2), ("state", .text "TN"), ("district", .text "MYS")]])]

theorem ownerRecord_valid : ownerRecord.mapping.schema.Valid ∧
    ∀ t ∈ ownerRecord.links, t.link.child.schema.Valid ∧ t.link.KeysUnlinked := by
  refine ⟨valid_declared (d := ownerDeclaration) (by decide +kernel), fun t ht => ?_⟩
  rw [List.mem_singleton.mp ht]
  exact ⟨valid_declared (d := houseDeclaration) (by decide +kernel), by decide +kernel⟩

/-- The items of a record whose reading gives a result can be read. -/
theorem legible_of_results (hvalid : ∀ t ∈ lr.links, t.link.child.schema.Valid)
    (h : ∀ t ∈ lr.links, ∀ item ∈ t.link.items es, ((t.link.child.schema.parseRow ctx
      (t.link.inputMode forInsert item.2) item.1).result? {}).isSome = true) :
    ∀ t ∈ lr.links, ∀ item ∈ t.link.items es, t.link.Legible ctx forInsert item :=
  fun t ht item hitem => Link.legible_of_result (hvalid t ht).sound (h t ht item hitem)

theorem parse_asks_keyed_lists_owner :
    (∃ tree, (ownerRecord.parse {} true (.map oneHouse)).Ends (.ok (some tree)) []) ∧
    ∃ ms, (ownerRecord.parse {} true (.map twoHouses)).Ends (.ok none) ms ∧
      ∃ m ∈ ms, ∃ name, m.field = some name ∧ m.object = some "houses" ∧ m.row = some 1 := by
  obtain ⟨hvalid, hlinks⟩ := ownerRecord_valid
  have hchildren := fun t ht => (hlinks t ht).1
  constructor
  · obtain ⟨parent, k, hparent, -⟩ := returns_of_found (j := {})
      (c := owners.schema.parseRow {} {} (.map oneHouse)) (by decide +kernel)
    have hgood : ∀ t ∈ ownerRecord.links, ∀ item ∈ t.link.items oneHouse,
        ∀ f ∈ t.link.child.schema.fields, ¬ t.link.Refuses true item f ∧
          ¬ t.link.Misfits {} true (owners.schema.rowOf {} {} (.map oneHouse)) item f := by
      decide +kernel
    obtain ⟨rfl, -⟩ := hvalid.sound.accepts hparent
    obtain ⟨children, hends⟩ := (parse_asks_keyed_lists hvalid hlinks hparent
      (legible_of_results hchildren (by decide +kernel))).1 hgood
    exact ⟨_, hends⟩
  · obtain ⟨parent, k, hparent, -⟩ := returns_of_found (j := {})
      (c := owners.schema.parseRow {} {} (.map twoHouses)) (by decide +kernel)
    have hbad : ∃ t ∈ ownerRecord.links, t.name = "houses" ∧ ∃ item ∈ t.link.items twoHouses,
        item.2 = 1 ∧ ∃ f ∈ t.link.child.schema.fields,
          t.link.Misfits {} true (owners.schema.rowOf {} {} (.map twoHouses)) item f := by
      decide +kernel
    obtain ⟨rfl, -⟩ := hvalid.sound.accepts hparent
    obtain ⟨t, ht, hname, item, hitem, hsecond, f, hf, hmisfits⟩ := hbad
    obtain ⟨ms, hends, m, hm, hfield, hobject, hrow⟩ :=
      (parse_asks_keyed_lists hvalid hlinks hparent
        (legible_of_results hchildren (by decide +kernel))).2 t ht item hitem f hf hmisfits
    rw [hname] at hobject
    rw [hsecond] at hrow
    exact ⟨ms, hends, m, hm, f.name, hfield, hobject, hrow⟩

/-- A house in a district of the region that it is given for. -/
def regionHouse : List (String × Value) :=
  [("state", .text "KA"), ("houses", .list [
    .map [("number", .int 1), ("district", .text "MYS")]])]

/-- If the state of a house is filled in from its region, the district is still looked up among those
of no state at all. The region is not read, although all is well with the house once it is filled
in. -/
theorem linked_key_unseen : ∃ parent k k',
    (regions.schema.parseRow {} {} (.map regionHouse)).Returns {} (some parent) k ∧
    (∀ t ∈ regionRecord.links, ∀ item ∈ t.link.items regionHouse, t.link.Legible {} true item ∧
      ∀ f ∈ t.link.child.schema.fields,
        ¬ t.link.Refuses true item f ∧ ¬ t.link.Misfits {} true parent item f) ∧
    (regionRecord.parse {} true (.map regionHouse)).Returns {} none k' := by
  have hvalid : regions.schema.Valid := valid_declared (d := regionDeclaration) (by decide +kernel)
  have hchildren : ∀ t ∈ regionRecord.links, t.link.child.schema.Valid := fun t ht => by
    rw [List.mem_singleton.mp ht]
    exact valid_declared (d := houseDeclaration) (by decide +kernel)
  have hlegible : ∀ t ∈ regionRecord.links, ∀ item ∈ t.link.items regionHouse,
      t.link.Legible {} true item := legible_of_results hchildren (by decide +kernel)
  have hgood : ∀ t ∈ regionRecord.links, ∀ item ∈ t.link.items regionHouse,
      ∀ f ∈ t.link.child.schema.fields, ¬ t.link.Refuses true item f ∧
        ¬ t.link.Misfits {} true (regions.schema.rowOf {} {} (.map regionHouse)) item f := by
    decide +kernel
  obtain ⟨parent, k, hparent, -⟩ := returns_of_found (j := {})
    (c := regions.schema.parseRow {} {} (.map regionHouse)) (by decide +kernel)
  obtain ⟨k', hnone⟩ := returns_of_missed (j := {})
    (c := regionRecord.parse {} true (.map regionHouse)) (by decide +kernel)
  obtain ⟨rfl, -⟩ := hvalid.sound.accepts hparent
  exact ⟨_, k, k', hparent, fun t ht item hitem =>
    ⟨hlegible t ht item hitem, hgood t ht item hitem⟩, hnone⟩

end LinkedRecord

end Tablewright
