import Mathlib.Data.List.Forall2
import Tablewright.Mapping.ByClause
import Tablewright.Mapping.ByKey
import Tablewright.Proofs.Asking
import Tablewright.Proofs.Schema.Valid

/-! Values between rows and statements. What a row binds is one value for each field, and
what a result leaves in a row stands at the places of the fields that were selected, with
everything else as it was. -/

namespace Tablewright

/-- A place of a list of which one place was written over. -/
theorem getD_set {α : Type} (l : List α) (i j : Nat) (a d : α) :
    j = i ∧ (l.set i a).getD j d = a ∨ (l.set i a).getD j d = l.getD j d := by
  by_cases hne : i = j
  · subst hne
    by_cases hlt : i < l.length
    · left
      simp [hlt]
    · right
      rw [List.set_eq_of_length_le (Nat.le_of_not_lt hlt)]
  · right
    simp [List.getD_eq_getElem?_getD, List.getElem?_set_ne hne]

theorem getD_set_self {α : Type} {l : List α} {i : Nat} (h : i < l.length) (a d : α) :
    (l.set i a).getD i d = a := by
  rw [List.getD_eq_getElem?_getD, List.getElem?_set_self h, Option.getD_some]

theorem getD_set_of_ne {α : Type} (l : List α) {i j : Nat} (h : j ≠ i) (a d : α) :
    (l.set i a).getD j d = l.getD j d :=
  (getD_set l i j a d).resolve_left fun hj => h hj.1

theorem set_getD {α : Type} (l : List α) (i : Nat) (d : α) : l.set i (l.getD i d) = l := by
  by_cases h : i < l.length
  · simp [h]
  · exact List.set_eq_of_length_le (Nat.le_of_not_lt h)

namespace Workspace

variable {w : Workspace} {r o : RowRef} {row : Row}

theorem lt_of_row {i : Nat} (h : i < (w.row r).length) : r < w.rows.length := by
  refine Nat.lt_of_not_le fun hr => ?_
  rw [Workspace.row, List.getD_eq_getElem?_getD, List.getElem?_eq_none hr] at h
  cases h

theorem row_setRow_self (h : r < w.rows.length) : (w.setRow r row).row r = row := by
  simp [Workspace.row, setRow, List.getD_eq_getElem?_getD, h]

theorem row_setRow_of_ne (h : r ≠ o) : (w.setRow r row).row o = w.row o := by
  simp [Workspace.row, setRow, List.getD_eq_getElem?_getD, h]

/-- The workspace with one more row. -/
def withRow (w : Workspace) (row : Row) : Workspace := { w with rows := w.rows ++ [row] }

end Workspace

namespace Mapping

open Work

variable {m : Mapping} {fields : List Field} {row base : Row}

theorem fill_of_not_null {t : ValueType} {v : Value} (h : v.isNull = false) : m.fill t v = v := by
  rw [fill, h]
  rfl

/-- The values that a row binds for some fields. -/
def boundValues (m : Mapping) (fields : List Field) (row : Row) : List Value :=
  fields.map fun f => m.fill f.valueType (row.getD f.index .null)

theorem bindRow_eq {values : List Value} (h : m.bindRow fields row = .ok values) :
    row.length = m.schema.fields.length ∧ values = m.boundValues fields row := by
  unfold bindRow at h
  split at h
  · rename_i hlen
    exact ⟨hlen, (Except.ok.inj h).symm⟩
  · cases h

theorem bindRow_error {e : Failure} (h : m.bindRow fields row = .error e) :
    row.length ≠ m.schema.fields.length := by
  intro hlen
  rw [bindRow, if_pos hlen] at h
  cases h

/-- A row with a generated key in its place, if a usable one was given. -/
def keyed (m : Mapping) (key : Value) (row : Row) : Except Failure Row :=
  match m.schema.generatedKey with
  | none => .ok row
  | some g =>
    if isNoKey key then .ok row else (g.valueType.fromDatabase key).map (row.set g.index ·)

/-- A key that came back has left the row as it was, or stands at its place in the row. -/
theorem keyed_cases {key : Value} {row' : Row} (h : m.keyed key row = .ok row') :
    row' = row ∧ (∀ g, m.schema.generatedKey = some g → isNoKey key = true) ∨
      ∃ g v, m.schema.generatedKey = some g ∧ g.valueType.fromDatabase key = .ok v ∧
        row' = row.set g.index v := by
  unfold keyed at h
  split at h
  · rename_i hg
    refine .inl ⟨(Except.ok.inj h).symm, fun g hsome => ?_⟩
    rw [hg] at hsome
    cases hsome
  · rename_i g hg
    split at h
    · rename_i hno
      exact .inl ⟨(Except.ok.inj h).symm, fun _ _ => hno⟩
    · cases hv : g.valueType.fromDatabase key with
      | error e =>
        rw [hv] at h
        cases h
      | ok v =>
        rw [hv] at h
        exact .inr ⟨g, v, hg, hv, (Except.ok.inj h).symm⟩

/-- A row with some values copied to the places of their fields, one after the other. -/
def copied (m : Mapping) (pairs : List (Value × Field)) (row : Row) : Except Failure Row :=
  pairs.foldlM (fun row (v, f) => (m.extract f.valueType v).map (row.set f.index ·)) row

theorem copied_cons (v : Value) (f : Field) (pairs : List (Value × Field)) (row : Row) :
    m.copied ((v, f) :: pairs) row =
      (m.extract f.valueType v).bind fun x => m.copied pairs (row.set f.index x) := by
  rw [copied, List.foldlM_cons]
  dsimp only
  cases m.extract f.valueType v <;> rfl

/-- What copying leaves at a place is what was there, or a value of the field of that place. -/
theorem copied_place {pairs : List (Value × Field)} (h : m.copied pairs base = .ok row) (i : Nat) :
    row.getD i .null = base.getD i .null ∨ ∃ v f, (v, f) ∈ pairs ∧ f.index = i ∧
      m.extract f.valueType v = .ok (row.getD i .null) := by
  induction pairs generalizing base with
  | nil =>
    obtain rfl := Except.ok.inj h
    exact .inl rfl
  | cons e pairs ih =>
    obtain ⟨v, f⟩ := e
    rw [copied_cons] at h
    cases hx : m.extract f.valueType v with
    | error e =>
      rw [hx] at h
      cases h
    | ok x =>
      rw [hx] at h
      rcases ih h with hrest | ⟨v', g, hm, hi, hg⟩
      · rcases getD_set base f.index i x .null with ⟨hi, hset⟩ | hset
        · exact .inr ⟨v, f, List.mem_cons_self, hi.symm, by rw [hx, hrest, hset]⟩
        · exact .inl (hrest.trans hset)
      · exact .inr ⟨v', g, List.mem_cons_of_mem _ hm, hi, hg⟩

/-- Columns that can all be brought into their native form are copied. -/
theorem copied_of_extracts {pairs : List (Value × Field)} (h : ∀ e ∈ pairs, ∃ x,
    m.extract e.2.valueType e.1 = .ok x) (base : Row) : ∃ row, m.copied pairs base = .ok row := by
  induction pairs generalizing base with
  | nil => exact ⟨base, rfl⟩
  | cons e pairs ih =>
    obtain ⟨⟨x, hx⟩, hpairs⟩ := List.forall_mem_cons.mp h
    rw [copied_cons, hx]
    exact ih hpairs _

/-- What a row shows of some columns: at the places of their fields what is in them, and
elsewhere what was there before. -/
structure Shows (m : Mapping) (fields : List Field) (column : String → Value) (base row : Row) :
    Prop where
  columns : ∀ f ∈ fields, ∃ v, m.extract f.valueType (column f.columnName) = .ok v ∧
    row[f.index]? = some v
  elsewhere : ∀ i, i ∉ places fields → row[i]? = base[i]?

theorem shows_copied (hs : m.schema.Sound) (hf : ∀ f ∈ fields, f ∈ m.schema.fields)
    (hlen : base.length = m.schema.fields.length) {column : String → Value}
    (h : m.copied (fields.map fun f => (column f.columnName, f)) base = .ok row) :
    m.Shows fields column base row := by
  induction fields generalizing base with
  | nil =>
    cases h
    exact ⟨by simp, fun _ _ => rfl⟩
  | cons f fields ih =>
    rw [List.map_cons, copied_cons] at h
    cases hv : m.extract f.valueType (column f.columnName) with
    | error e =>
      rw [hv] at h
      cases h
    | ok v =>
      rw [hv] at h
      have hfields := List.forall_mem_cons.mp hf
      obtain ⟨hcolumns, helsewhere⟩ := ih hfields.2 (by rw [List.length_set, hlen]) h
      refine ⟨?_, ?_⟩
      · intro g hg
        by_cases hm : g ∈ fields
        · exact hcolumns g hm
        · obtain rfl : g = f := (List.mem_cons.mp hg).resolve_right hm
          have hplace : g.index ∉ places fields := by
            intro hi
            obtain ⟨o, ho, hindex⟩ := List.mem_map.mp hi
            exact hm (hs.eq_of_index (hfields.2 o ho) hfields.1 hindex ▸ ho)
          have hlt : g.index < base.length := hlen ▸ hs.index_lt hfields.1
          refine ⟨v, hv, ?_⟩
          rw [helsewhere g.index hplace, List.getElem?_set_self hlt]
      · intro i hi
        simp only [places, List.map_cons, List.mem_cons, not_or] at hi
        rw [helsewhere i hi.2, List.getElem?_set_ne (Ne.symm hi.1)]

theorem zip_columns (column : String → Value) (fields : List Field) :
    ((columns fields).map column).zip fields = fields.map fun f => (column f.columnName, f) := by
  induction fields with
  | nil => rfl
  | cons f fields ih => simpa [columns] using ih

/-- Fields that are named by their places. -/
theorem fieldsAt_places (hs : m.schema.Sound) (hf : ∀ f ∈ fields, f ∈ m.schema.fields) :
    m.fieldsAt (places fields) = .ok fields := by
  induction fields with
  | nil => rfl
  | cons f fields ih =>
    have hfields := List.forall_mem_cons.mp hf
    have hrest : (places fields).mapM _ = _ := ih hfields.2
    rw [places, List.map_cons, fieldsAt, List.mapM_cons, hs.at_index hfields.1]
    dsimp only
    rw [← places, hrest]
    rfl

variable {σ : Type} {h : Handle σ} {K : σ → Prop}

theorem ensures_refuse {rows : List Row} {operation : String} {E : Fact σ} :
    Ensures h (Standing rows K) (m.refuse operation)
      (fun done w s => done = false ∧ Standing rows K w s) E :=
  (ensures_note unlogged_standing).bind fun _ => ensures_pure fun _ _ hpre => ⟨rfl, hpre⟩

/-- What the row binds, if it has a value for each field. -/
theorem ensures_values {rows : List Row} {r : RowRef} : Ensures h (Standing rows K)
    (do lift (m.bindRow fields (← Work.row r)))
    (fun values w s => ((rows.getD r []).length = m.schema.fields.length ∧
      values = m.boundValues fields (rows.getD r [])) ∧ Standing rows K w s)
    (fun w s => (rows.getD r []).length ≠ m.schema.fields.length ∧ Standing rows K w s) := by
  refine ensures_rowAt.bind fun row => ensures_of fun hrow => ?_
  subst hrow
  refine (ensures_lift_of fun e he w s hpre => ⟨bindRow_error he, hpre⟩).imp (fun _ _ => id)
    ?_ fun _ _ => id
  exact fun values w s hpre => ⟨bindRow_eq hpre.1, hpre.2⟩

/-- Values are copied without a call. -/
theorem asks_copyInto {p : Call → Prop} {r : RowRef} {result : List Value} :
    Asks p (m.copyInto r fields result) :=
  asks_forM fun _ => asks_lift.bind fun _ => asks_setAt

/-- Copying into a row leaves the copy in it, if all values can be copied. -/
theorem ensures_copy {r : RowRef} {pairs : List (Value × Field)} :
    Ensures h (fun w s => w.row r = base ∧ K s)
      (pairs.forM fun (v, f) => do setAt r f.index (← lift (m.extract f.valueType v)))
      (fun _ w s => m.copied pairs base = .ok (w.row r) ∧ K s) (fun _ s => K s) := by
  induction pairs generalizing base with
  | nil => exact ensures_pure fun w s hpre => ⟨congrArg Except.ok hpre.1.symm, hpre.2⟩
  | cons e pairs ih =>
    obtain ⟨v, f⟩ := e
    have hset : Ensures h (fun w s => w.row r = base ∧ K s)
        (do setAt r f.index (← lift (m.extract f.valueType v)))
        (fun _ w s => (∃ x, m.extract f.valueType v = .ok x ∧ w.row r = base.set f.index x) ∧ K s)
        (fun _ s => K s) := by
      refine (ensures_lift fun _ _ hpre => hpre.2).bind fun x => ensures_of fun hx => ?_
      refine ensures_setAt ?_ fun _ _ hpre => hpre.2
      rintro w s ⟨rfl, hK⟩ hlt
      exact ⟨⟨x, hx, Workspace.row_setRow_self (Workspace.lt_of_row hlt)⟩, hK⟩
    refine hset.bind fun _ => ?_
    rintro w s ⟨⟨x, hx, hrow⟩, hK⟩
    rw [copied_cons, hx]
    exact ih w s ⟨hrow, hK⟩

/-! ## Rows of results -/

/-- Behind some rows stand the rows that are made of some results, one for each. -/
def Kept (m : Mapping) (fields : List Field) (rows : List Row) (results : List (List Value))
    (rs : List RowRef) (w : Workspace) : Prop :=
  ∃ made, List.Forall₂ (fun result row => m.rowOf fields result = .ok row) results made ∧
    w.rows = rows ++ made ∧ rs = List.range' rows.length made.length

theorem kept_nil {rows : List Row} {w : Workspace} (h : w.rows = rows) :
    m.Kept fields rows [] [] w := ⟨[], .nil, by rw [h, List.append_nil], rfl⟩

theorem Kept.withRow {rows : List Row} {results : List (List Value)} {result : List Value}
    {rs : List RowRef} {w : Workspace} (hk : m.Kept fields rows results rs w)
    (hrow : m.rowOf fields result = .ok row) :
    m.Kept fields rows (results ++ [result]) (rs ++ [w.rows.length]) (w.withRow row) := by
  obtain ⟨made, hmade, hrows, rfl⟩ := hk
  refine ⟨made ++ [row], List.rel_append hmade (.cons hrow .nil), ?_, ?_⟩
  · rw [Workspace.withRow, hrows, List.append_assoc]
  · rw [hrows, List.length_append, List.length_append, List.length_singleton, List.range'_1_concat]

/-- Each of these rows is made of its result, and stands behind those that were there. -/
theorem Kept.made {rows : List Row} {results : List (List Value)} {rs : List RowRef} {w : Workspace}
    (hk : m.Kept fields rows results rs w) : List.Forall₂ (fun result r =>
      rows.length ≤ r ∧ r < w.rows.length ∧ m.rowOf fields result = .ok (w.row r)) results rs := by
  obtain ⟨made, hmade, hrows, rfl⟩ := hk
  rw [List.forall₂_iff_get]
  refine ⟨by rw [hmade.length_eq, List.length_range'], fun i hi hi' => ?_⟩
  have hlt : i < made.length := by simpa using hi'
  have hplace : (List.range' rows.length made.length).get ⟨i, hi'⟩ = rows.length + i := by simp
  have hrow : w.row (rows.length + i) = made.get ⟨i, hlt⟩ := by
    simp [Workspace.row, hrows, List.getD_eq_getElem?_getD, hlt]
  rw [hplace, hrow, hrows, List.length_append]
  exact ⟨Nat.le_add_right .., Nat.add_lt_add_left hlt _, hmade.get hi hlt⟩

theorem asks_keepRow {p : Call → Prop} {result : List Value} : Asks p (m.keepRow fields result) :=
  asks_lift.bind fun _ => asks_addRow

/-- A row is made of a result, or the result cannot be brought into its native form. -/
theorem ensures_keepRow {rows : List Row} {result : List Value} (results : List (List Value))
    {rs : List RowRef} :
    Ensures h (fun w s => m.Kept fields rows results rs w ∧ K s) (m.keepRow fields result)
      (fun r w s => m.Kept fields rows (results ++ [result]) (rs ++ [r]) w ∧ K s)
      (fun _ s => (∃ e, m.rowOf fields result = .error e) ∧ K s) := by
  refine (ensures_lift_of fun e he _ _ hpre => ⟨⟨e, he⟩, hpre.2⟩).bind fun row =>
    ensures_of fun hrow => ?_
  exact ensures_addRow fun w s hpre => ⟨hpre.1.withRow hrow, hpre.2⟩

theorem ensures_keepRows {rows : List Row} (results : List (List Value)) {more : List (List Value)}
    {rs : List RowRef} {count : Int} :
    Ensures h (fun w s => m.Kept fields rows results rs w ∧ K s)
      (throughRows (fun rows result => do return (rows ++ [← m.keepRow fields result], true))
        (more.map .ok) count rs)
      (fun out w s => m.Kept fields rows (results ++ more) out.2 w ∧ K s)
      (fun _ s => (∃ result ∈ more, ∃ e, m.rowOf fields result = .error e) ∧ K s) := by
  induction more generalizing results rs count with
  | nil =>
    rw [List.append_nil]
    exact ensures_pure fun w s hpre => hpre
  | cons result more ih =>
    have hround : Ensures h (fun w s => m.Kept fields rows results rs w ∧ K s)
        (do return (rs ++ [← m.keepRow fields result], true))
        (fun out w s => (out.2 = true ∧ m.Kept fields rows (results ++ [result]) out.1 w) ∧ K s)
        (fun _ s => (∃ other ∈ result :: more, ∃ e, m.rowOf fields other = .error e) ∧ K s) := by
      refine ((ensures_keepRow results).imp (fun _ _ => id) (fun _ _ _ => id) ?_).bind fun r =>
        ensures_pure fun w s hpre => ⟨⟨rfl, hpre.1⟩, hpre.2⟩
      exact fun w s hpre => ⟨⟨result, List.mem_cons_self, hpre.1⟩, hpre.2⟩
    refine (ensures_lift_of (r := .ok result) nofun).bind fun result' => ensures_of fun heq => ?_
    obtain rfl := Except.ok.inj heq
    refine hround.bind ?_
    rintro ⟨rs', goesOn⟩ w s ⟨⟨rfl, hkept⟩, hK⟩
    refine (ih _).imp (fun _ _ => id) ?_ ?_ w s ⟨hkept, hK⟩
    · intro out w' s' hpre
      rwa [List.append_cons]
    · rintro w' s' ⟨⟨other, hm, he⟩, hK'⟩
      exact ⟨⟨other, List.mem_cons_of_mem _ hm, he⟩, hK'⟩

end Mapping

end Tablewright
