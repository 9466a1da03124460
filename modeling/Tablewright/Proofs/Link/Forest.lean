import Tablewright.Link.Reading
import Tablewright.Proofs.Link.Bounds
import Tablewright.Proofs.Store.Shown

/-! What hangs below a row in a store. Under each link are the stored rows of the child's table
that equal the row in the columns of the link, and below each of them is what hangs below it in
turn. Nothing is said here of how it is read: two trees that hang below the same row are the
same, so all ways of reading have to come to it. -/

namespace Tablewright

namespace RowTree

variable {α β γ : Type}

mutual

/-- A tree with other rows at its places. -/
def map (f : α → β) : RowTree α → RowTree β
  | node r children => node (f r) (mapChildren f children)

def mapChildren (f : α → β) : List (String × List (RowTree α)) → List (String × List (RowTree β))
  | [] => []
  | (name, trees) :: rest => (name, mapAll f trees) :: mapChildren f rest

def mapAll (f : α → β) : List (RowTree α) → List (RowTree β)
  | [] => []
  | t :: ts => map f t :: mapAll f ts

end

@[simp] theorem row_map (f : α → β) (t : RowTree α) : (t.map f).row = f t.row := by
  cases t
  rw [map, row, row]

@[simp] theorem children_map (f : α → β) (t : RowTree α) :
    (t.map f).children = mapChildren f t.children := by
  cases t
  rw [map, children, children]

theorem mapAll_eq (f : α → β) (ts : List (RowTree α)) : mapAll f ts = ts.map (map f) := by
  induction ts with
  | nil => rfl
  | cons t ts ih => rw [mapAll, ih, List.map_cons]

/-- What is seen of some rows through their references is the same however many rows come behind
them. -/
def Lasts (rows : List Row) (view : (RowRef → Row) → γ) : Prop :=
  ∀ more, view ((rows ++ more).getD · []) = view (rows.getD · [])

theorem Lasts.append {rows : List Row} {view : (RowRef → Row) → γ} (h : Lasts rows view)
    (more : List Row) : Lasts (rows ++ more) view := fun later => by
  rw [List.append_assoc, h, h]

theorem lasts_row {rows : List Row} {r : RowRef} (hr : r < rows.length) :
    Lasts rows fun g => g r := fun more => List.getD_append rows more [] r hr

theorem lasts_node {rows : List Row} {r : RowRef} {cs : List (String × List (RowTree RowRef))}
    (hr : r < rows.length) (hcs : Lasts rows (mapChildren · cs)) :
    Lasts rows ((node r cs).map ·) := fun more => congrArg₂ node (lasts_row hr more) (hcs more)

theorem lasts_all {rows : List Row} {ts : List (RowTree RowRef)}
    (h : ∀ t ∈ ts, Lasts rows (t.map ·)) : Lasts rows (mapAll · ts) := fun later => by
  beta_reduce
  rw [mapAll_eq, mapAll_eq]
  exact List.map_congr_left fun t ht => h t ht later

end RowTree

/-! ## What a row is linked to -/

namespace Link

/-- The columns of the link with the values that a parent row has for them. -/
def conditions (l : Link) (parent : Row) : List (String × Value) :=
  l.pairs.map fun (p, c) => (c.columnName, parent.getD p.index .null)

/-- A stored row is linked to a parent row if it equals it in each of the link's columns. -/
theorem agrees_conditions {l : Link} {parent : Row} {stored : StoredRow} :
    stored.agrees (l.conditions parent) = true ↔ ∀ e ∈ l.pairs,
      (stored.column e.2.columnName).same (parent.getD e.1.index .null) = true := by
  rw [StoredRow.agrees, conditions, List.all_map, List.all_eq_true]
  rfl

/-- The stored rows that a link leads to from a parent row: those that equal it in the link's
columns, of which a link of one row has the first. A link without pairs leads nowhere. -/
def linked (l : Link) (s : TableStore) (parent : Row) : List StoredRow :=
  if !l.isLinked then []
  else if l.isMultiRow then (l.child.rowsIn s).filter (·.agrees (l.conditions parent))
  else ((l.child.rowsIn s).filter (·.agrees (l.conditions parent))).take 1

/-- The query for the child rows of a parent row. -/
def query (l : Link) : Statement :=
  .select l.child.table (Mapping.columns l.child.selectFields) (Mapping.columns l.childFields)

end Link

namespace LinkTree

mutual

/-- Trees are the join of a link with the stored rows, seen from a parent row: one tree for each
stored row that the link leads to, in the order of the store. -/
def Joins (s : TableStore) : LinkTree → Row → List (RowTree Row) → Prop
  | node l below, parent, trees => List.Forall₂ (fun stored tree =>
      l.child.shown stored = .ok tree.row ∧ JoinsAll s below tree.row tree.children)
      (l.linked s parent) trees

/-- What is below a row is the join of every link, under the links' names. -/
def JoinsAll (s : TableStore) : List LinkTree → Row → List (String × List (RowTree Row)) → Prop
  | [], _, below => below = []
  | t :: ts, row, below => ∃ trees rest, below = (t.name, trees) :: rest ∧ t.Joins s row trees ∧
      JoinsAll s ts row rest

end

mutual

/-- A link that was built for a record, with all links below it; no two side by side have the
same name. -/
def Built (schema : RecordSchema) : LinkTree → Prop
  | node l below => l.Built schema ∧ BuiltAll l.child.schema below

def BuiltAll (schema : RecordSchema) : List LinkTree → Prop
  | [] => True
  | t :: ts => t.Built schema ∧ t.name ∉ ts.map name ∧ BuiltAll schema ts

end

mutual

/-- The queries by which a link and all links below it are read. -/
def queries : LinkTree → List Statement
  | node l below => (if l.isLinked then [l.query] else []) ++ queriesAll below

def queriesAll : List LinkTree → List Statement
  | [] => []
  | t :: ts => t.queries ++ queriesAll ts

end

variable {s : TableStore}

/-- Every stored row that a link leads to has its tree in the join. -/
theorem Joins.exists_tree {l : Link} {below : List LinkTree} {parent : Row}
    {trees : List (RowTree Row)} (h : (node l below).Joins s parent trees) {stored : StoredRow}
    (hm : stored ∈ l.linked s parent) :
    ∃ tree : RowTree Row, l.child.shown stored = .ok tree.row ∧
      JoinsAll s below tree.row tree.children := by
  rw [Joins] at h
  obtain ⟨i, hi, rfl⟩ := List.getElem_of_mem hm
  exact ⟨_, h.get hi (h.length_eq ▸ hi)⟩

mutual

/-- There is one join at the most. -/
theorem Joins.unique : ∀ {t : LinkTree} {parent : Row} {trees trees' : List (RowTree Row)},
    t.Joins s parent trees → t.Joins s parent trees' → trees = trees'
  | node l below, parent, trees, trees', h, h' => by
    have hrow : Relator.RightUnique fun (stored : StoredRow) (tree : RowTree Row) =>
        l.child.shown stored = .ok tree.row ∧ JoinsAll s below tree.row tree.children := by
      rintro stored ⟨row, cs⟩ ⟨row', cs'⟩ ⟨hshown, hbelow⟩ ⟨hshown', hbelow'⟩
      obtain rfl : row = row' := Except.ok.inj (hshown.symm.trans hshown')
      exact congrArg _ (JoinsAll.unique hbelow hbelow')
    rw [Joins] at h h'
    exact hrow.forall₂ h h'

theorem JoinsAll.unique : ∀ {ts : List LinkTree} {row : Row}
    {below below' : List (String × List (RowTree Row))},
    JoinsAll s ts row below → JoinsAll s ts row below' → below = below'
  | [], _, _, _, h, h' => by
    rw [JoinsAll] at h h'
    rw [h, h']
  | t :: ts, row, _, _, h, h' => by
    rw [JoinsAll] at h h'
    obtain ⟨trees, rest, rfl, htrees, hrest⟩ := h
    obtain ⟨trees', rest', rfl, htrees', hrest'⟩ := h'
    rw [Joins.unique htrees htrees', JoinsAll.unique hrest hrest']

end

end LinkTree

end Tablewright
