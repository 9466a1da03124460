import Tablewright.Handle.Connection
import Tablewright.Mapping.ByClause
import Tablewright.Mapping.ByKey
import Tablewright.Proofs.Idle
import Tablewright.Proofs.Mapping.Marshal
import Tablewright.Proofs.Schema.NormalForm

/-! What becomes of rows that are converted twice. The handle of a connection brings each row into
the native form of the columns' types, and a mapping does the same to the rows that any handle
gives it. A native value is its own native form, so a mapping reads the same rows through a handle
that converts them and through one that passes them on as they are. -/

namespace Tablewright

variable {α β γ σ : Type}

/-! ## Handles that convert and handles that do not -/

namespace Call

/-- A reply with its rows in the native form of the output types. -/
def convertReply : (c : Call) → c.Reply → Except Failure c.Reply
  | read _ _ _ output, found => match (found : Option (List Value)) with
    | none => .ok (none : Option (List Value))
    | some row => (convertRow output row).map some
  | readMany _ _ _ output, (rows : List (Except Failure (List Value))) =>
    .ok (rows.map (· >>= convertRow output))
  | write .., n | writeMany .., n => .ok n
  | insertKey .., reply | insertManyKey .., reply => .ok reply

/-- The reply that a cursor's results make, with the rows as the cursor has them. -/
def plainReplyOf : (c : Call) → Results → Except Failure c.Reply
  | read .., r => .ok r.rows.head?
  | readMany .., r => .ok (r.rows.map Except.ok)
  | c, r => c.replyOf r

theorem replyOf_eq (c : Call) (r : Results) :
    c.replyOf r = c.plainReplyOf r >>= c.convertReply := by
  cases c with
  | read sql values types output =>
    rw [replyOf, plainReplyOf]
    cases r.rows <;> rfl
  | readMany sql values types output =>
    show Except.ok (r.rows.map (convertRow output)) = Except.ok ((r.rows.map Except.ok).map _)
    rw [List.map_map]
    rfl
  | write | writeMany => rfl
  | insertKey | insertManyKey => exact (bind_pure _).symm

end Call

/-- A handle that answers as another one does, with all rows converted. -/
def Handle.converting (h : Handle σ) : Handle σ where
  answer c s :=
    (⟨(h.answer c s).1.outcome >>= c.convertReply, (h.answer c s).1.log⟩, (h.answer c s).2)

namespace Connection

/-- A handle that passes the rows of a connection on as they are. -/
def plainHandle (conn : Connection σ) (readonly : Bool) : Handle σ where
  answer c s :=
    if readonly && c.isWrite then (⟨.error .readonlyHandle, []⟩, s)
    else
      let (results, s) := conn.send c s
      (⟨results.bind c.plainReplyOf, [⟨.debug, .handles, c.title ++ ": " ++ c.statementText⟩]⟩,
        conn.closeCursor s)

/-- The handle of a connection does nothing to the rows but to convert them. -/
theorem handle_eq (conn : Connection σ) (readonly : Bool) :
    conn.handle readonly = (conn.plainHandle readonly).converting := by
  refine congrArg Handle.mk (funext fun c => funext fun s => ?_)
  show conn.answer readonly c s = _
  unfold answer plainHandle
  dsimp only
  split
  · rfl
  · cases (conn.send c s).1 with
    | error e => rfl
    | ok r =>
      show (Answer.mk (c.replyOf r) _, _) = _
      rw [Call.replyOf_eq]
      rfl

end Connection

/-! ## Work that ends alike -/

theorem Task.Asks.run_eq {t : Task α} (ht : t.Asks fun _ => False) (h : Handle σ) (s : σ) :
    t = .done (t.run h s).1 ∧ (t.run h s).2 = s := by
  cases t with
  | done a => exact ⟨rfl, rfl⟩
  | ask c resume => exact ht.1.elim

namespace Work

variable {h h' : Handle σ}

/-- Work that through two handles comes to the same result, with the same rows and the same state
of the handle. Where it fails through the one, it fails through the other. -/
def EndsAlike (h h' : Handle σ) (x : Work α) : Prop := ∀ w s a w' s',
  (x.start w).run h s = ((.ok a, w'), s') ↔ (x.start w).run h' s = ((.ok a, w'), s')

theorem Asks.run_iff {x : Work α} (hx : x.Asks fun _ => False) {w w' : Workspace} {s s' : σ}
    {a : α} : (x.start w).run h s = ((.ok a, w'), s') ↔ x.Returns w a w' ∧ s = s' := by
  obtain ⟨hdone, hstate⟩ := (hx w).run_eq h s
  constructor
  · intro hrun
    rw [hrun] at hdone hstate
    exact ⟨hdone, hstate.symm⟩
  · rintro ⟨hends, rfl⟩
    rw [show x.start w = _ from hends, Task.run_done]

/-- A handle that is not asked makes no difference. -/
theorem Asks.endsAlike {x : Work α} (hx : x.Asks fun _ => False) : EndsAlike h h' x :=
  fun _ _ _ _ _ => hx.run_iff.trans hx.run_iff.symm

theorem EndsAlike.bind {x : Work α} {f : α → Work β} (hx : EndsAlike h h' x)
    (hf : ∀ a, EndsAlike h h' (f a)) : EndsAlike h h' (x >>= f) := by
  intro w s b w' s'
  have hsteps (k : Handle σ) : ((x >>= f).start w).run k s = ((.ok b, w'), s') ↔
      ∃ a w₁ s₁, (x.start w).run k s = ((.ok a, w₁), s₁) ∧
        ((f a).start w₁).run k s₁ = ((.ok b, w'), s') := by
    rw [run_bind]
    obtain ⟨⟨r, w₁⟩, s₁⟩ := (x.start w).run k s
    cases r with
    | ok a => simp
    | error e => simp
  rw [hsteps, hsteps]
  simp only [hx w s _ _ _, hf _ _ _ _ _ _]

theorem lift_bind_lift (r : Except Failure α) (g : α → Except Failure β) (f : β → Work γ) :
    lift (r >>= g) >>= f = lift r >>= fun a => lift (g a) >>= f := by
  cases r <;> rfl

/-- A call, and what is made of its outcome. -/
theorem run_ask (c : Call) (f : c.Reply → Work α) (w : Workspace) (s : σ) :
    ((ask c >>= f).start w).run h s =
      ((lift (h.answer c s).1.outcome >>= f).start (w.noteAll (h.answer c s).1.log)).run h
        (h.answer c s).2 := rfl

/-- What follows a call ends alike if it makes no difference to it whether the reply has been
converted. -/
theorem endsAlike_ask {c : Call} {f : c.Reply → Work α}
    (hf : ∀ reply, (f reply).Asks fun _ => False)
    (hreply : ∀ reply w a w', (lift (c.convertReply reply) >>= f).Returns w a w' ↔
      (f reply).Returns w a w') : EndsAlike h.converting h (ask c >>= f) := by
  intro w s a w' s'
  have hrest (r : Except Failure c.Reply) : (lift r >>= f).Asks fun _ => False := asks_lift.bind hf
  rw [run_ask, run_ask, (hrest _).run_iff, (hrest _).run_iff]
  refine and_congr_left' ?_
  show (lift ((h.answer c s).1.outcome >>= c.convertReply) >>= f).Returns _ a w' ↔ _
  rw [lift_bind_lift]
  cases (h.answer c s).1.outcome with
  | error e => exact Iff.rfl
  | ok reply => exact hreply reply _ a w'

/-- Rows that were converted on the way are gone through alike, if each single one is. -/
theorem throughRows_converted {process : σ → List Value → Work (σ × Bool)}
    {g : List Value → Except Failure (List Value)}
    (hg : ∀ s row, lift (g row) >>= process s = process s row)
    (rows : List (Except Failure (List Value))) (n : Int) (s : σ) :
    throughRows process (rows.map (· >>= g)) n s = throughRows process rows n s := by
  induction rows generalizing n s with
  | nil => rfl
  | cons r rows ih =>
    rw [List.map_cons, throughRows, throughRows, lift_bind_lift]
    simp only [ih]
    refine congrArg (lift r >>= ·) (funext fun row => ?_)
    rw [← hg s row, bind_assoc]

end Work

/-! ## Rows that are converted twice -/

namespace Mapping

open Work

variable {m : Mapping} {fields : List Field} {row values : List Value} {base : Row} {r : RowRef}
  {h : Handle σ}

theorem extract_converted {t : ValueType} {v x : Value} (h : t.fromDatabase v = .ok x) :
    m.extract t x = m.extract t v := by
  rw [extract, extract, ValueType.fromDatabase_again h, h]

theorem convertRow_cons (f : Field) (fields : List Field) (v : Value) (row : List Value) :
    Call.convertRow (types (f :: fields)) (v :: row) = do
      return (← f.valueType.fromDatabase v) :: (← Call.convertRow (types fields) row) :=
  List.mapM_cons

/-- A row is copied as it would have been without the conversion. -/
theorem copied_converted (m : Mapping) (fields : List Field) (row : List Value) (base : Row) :
    (Call.convertRow (types fields) row >>= fun values => m.copied (values.zip fields) base) =
      m.copied (row.zip fields) base := by
  induction fields generalizing row base with
  | nil => cases row <;> rfl
  | cons f fields ih =>
    cases row with
    | nil => rfl
    | cons v row =>
      rw [convertRow_cons, List.zip_cons_cons, copied_cons]
      cases hx : f.valueType.fromDatabase v with
      | error e =>
        rw [extract, hx]
        rfl
      | ok x =>
        have hfill : m.extract f.valueType v = .ok (m.fill f.valueType x) := by
          rw [extract, hx]
          rfl
        have hrest (values : List Value) : m.copied ((x :: values).zip (f :: fields)) base =
            m.copied (values.zip fields) (base.set f.index (m.fill f.valueType x)) := by
          rw [List.zip_cons_cons, copied_cons, extract_converted hx, hfill]
          rfl
        rw [hfill]
        show _ = m.copied (row.zip fields) (base.set f.index (m.fill f.valueType x))
        rw [← ih]
        cases Call.convertRow (types fields) row with
        | error e => rfl
        | ok values => exact hrest values

theorem rowOf_converted (m : Mapping) (fields : List Field) (row : List Value) :
    Call.convertRow (types fields) row >>= m.rowOf fields = m.rowOf fields row :=
  copied_converted m fields row _

theorem keepRow_converted (m : Mapping) (fields : List Field) (row : List Value) :
    lift (Call.convertRow (types fields) row) >>= m.keepRow fields = m.keepRow fields row := by
  show _ = lift (m.rowOf fields row) >>= addRow
  rw [← rowOf_converted, lift_bind_lift]
  rfl

theorem copyInto_cons (m : Mapping) (r : RowRef) (f : Field) (fields : List Field) (v : Value)
    (row : List Value) : m.copyInto r (f :: fields) (v :: row) =
      lift (m.extract f.valueType v) >>= fun x => setAt r f.index x >>= fun _ =>
        m.copyInto r fields row := by
  rw [← bind_assoc]
  rfl

theorem copyInto_converted (h : Call.convertRow (types fields) row = .ok values) :
    m.copyInto r fields values = m.copyInto r fields row := by
  induction fields generalizing row values with
  | nil => rw [copyInto, copyInto, List.zip_nil_right, List.zip_nil_right]
  | cons f fields ih =>
    cases row with
    | nil =>
      cases h
      rfl
    | cons v row =>
      rw [convertRow_cons] at h
      obtain ⟨x, hx, h⟩ := ValueType.bind_eq_ok h
      obtain ⟨rest, hrest, h⟩ := ValueType.bind_eq_ok h
      obtain rfl := Except.ok.inj h
      rw [copyInto_cons, copyInto_cons, extract_converted hx, ih hrest]

/-- What could be copied can be converted. -/
theorem converts_of_copyInto {w w' : Workspace} (h : (m.copyInto r fields row).Returns w () w') :
    ∃ values, Call.convertRow (types fields) row = .ok values := by
  induction fields generalizing row w with
  | nil => cases row <;> exact ⟨[], rfl⟩
  | cons f fields ih =>
    cases row with
    | nil => exact ⟨[], rfl⟩
    | cons v row =>
      rw [copyInto_cons] at h
      obtain ⟨filled, w₁, hextract, h⟩ := returns_bind.mp h
      obtain ⟨_, w₂, -, hrest⟩ := returns_bind.mp h
      obtain ⟨x, hx, -⟩ := ValueType.map_eq_ok (returns_lift.mp hextract).1
      obtain ⟨values, hvalues⟩ := ih hrest
      refine ⟨x :: values, ?_⟩
      rw [convertRow_cons, hx, hvalues]
      rfl

/-- A row that is copied into another one leaves in it what it would have left without the
conversion. One that cannot be converted may have been copied in part. -/
theorem returns_copyInto_converted {w w' : Workspace} :
    (lift (Call.convertRow (types fields) row) >>= m.copyInto r fields).Returns w () w' ↔
      (m.copyInto r fields row).Returns w () w' := by
  cases hrow : Call.convertRow (types fields) row with
  | ok values =>
    show (m.copyInto r fields values).Returns w () w' ↔ _
    rw [copyInto_converted hrow]
  | error e =>
    refine ⟨nofun, fun hends => ?_⟩
    obtain ⟨values, hvalues⟩ := converts_of_copyInto hends
    rw [hrow] at hvalues
    cases hvalues

/-! ## What a mapping reads through either handle -/

/-- The rows that a statement finds. -/
theorem endsAlike_collectRows {sql : String} {values : List Value} {valueTypes : List ValueType} :
    EndsAlike h.converting h (m.collectRows fields sql values valueTypes) := by
  have hkeep (rows : List RowRef) (row : List Value) :
      (lift (Call.convertRow (types fields) row) >>= fun result => do
        return (rows ++ [← m.keepRow fields result], true)) =
      (do return (rows ++ [← m.keepRow fields row], true) : Work (List RowRef × Bool)) := by
    rw [← bind_assoc, keepRow_converted]
  refine endsAlike_ask (fun results => ?_)
    fun (results : List (Except Failure (List Value))) w rows w' => ?_
  · exact (asks_throughRows fun _ _ => asks_keepRow.bind fun _ => asks_pure).bind fun _ => asks_pure
  · show (throughRows _ (results.map _) 0 [] >>= _).Returns w rows w' ↔ _
    rw [throughRows_converted hkeep]

/-- What is done with the first row that a statement finds. -/
theorem endsAlike_firstRow {sql : String} {values : List Value} {valueTypes : List ValueType}
    {g : Work α} {f : List Value → Work α} (hg : g.Asks fun _ => False)
    (hf : ∀ row, (f row).Asks fun _ => False)
    (hrow : ∀ row w a w', (lift (Call.convertRow (types fields) row) >>= f).Returns w a w' ↔
      (f row).Returns w a w') :
    EndsAlike h.converting h (Work.read sql values valueTypes (types fields) >>= fun found =>
      match found with
      | none => g
      | some row => f row) := by
  refine endsAlike_ask (fun found => ?_) fun (found : Option (List Value)) w a w' => ?_
  · split
    · exact hg
    · exact hf _
  · cases found with
    | none => exact Iff.rfl
    | some row =>
      show (lift ((Call.convertRow (types fields) row).map some) >>= _).Returns w a w' ↔ _
      rw [← hrow]
      cases Call.convertRow (types fields) row <;> exact Iff.rfl

theorem endsAlike_filter {clause : Option String} {values : List Value}
    {valueTypes : Option (List ValueType)} :
    EndsAlike h.converting h (m.filter clause values valueTypes) := endsAlike_collectRows

theorem endsAlike_filterFirst {clause : Option String} {values : List Value}
    {valueTypes : Option (List ValueType)} :
    EndsAlike h.converting h (m.filterFirst clause values valueTypes) := by
  refine endsAlike_firstRow asks_pure (fun row => asks_keepRow.bind fun _ => asks_pure) ?_
  intro row w first w'
  rw [← bind_assoc, keepRow_converted]

theorem endsAlike_filterCompiled {c : CompiledFilter} :
    EndsAlike h.converting h (m.filterCompiled c) := by
  unfold filterCompiled
  split
  · exact endsAlike_filter
  · exact asks_lift.endsAlike.bind fun fields => endsAlike_collectRows

theorem endsAlike_read : EndsAlike h.converting h (m.read r) := by
  unfold read
  split
  · exact (asks_note.bind fun _ => asks_pure).endsAlike
  · refine asks_row.endsAlike.bind fun row => asks_lift.endsAlike.bind fun values => ?_
    refine endsAlike_firstRow asks_pure (fun row => asks_copyInto.bind fun _ => asks_pure) ?_
    intro row w done w'
    rw [← bind_assoc, returns_bind, returns_bind]
    exact exists_congr fun _ => exists_congr fun _ => and_congr_left' returns_copyInto_converted

/-- To convert a value twice is to convert it once. So whatever a connection returns, a mapping
reads the same through the handle that converts it and through the one that passes it on, whenever
it does not fail: the same rows are filled, made and given back, and the connection is left in the
same state. -/
theorem reads_alike_unconverted (conn : Connection σ) (readonly : Bool) (m : Mapping) :
    (∀ (t : ValueType) (v x : Value), t.fromDatabase v = .ok x → t.fromDatabase x = .ok x) ∧
    (∀ r, EndsAlike (conn.handle readonly) (conn.plainHandle readonly) (m.read r)) ∧
    (∀ clause values valueTypes, EndsAlike (conn.handle readonly) (conn.plainHandle readonly)
      (m.filter clause values valueTypes)) ∧
    (∀ clause values valueTypes, EndsAlike (conn.handle readonly) (conn.plainHandle readonly)
      (m.filterFirst clause values valueTypes)) ∧
    ∀ c, EndsAlike (conn.handle readonly) (conn.plainHandle readonly) (m.filterCompiled c) := by
  rw [conn.handle_eq readonly]
  refine ⟨fun _ _ _ => ValueType.fromDatabase_again, fun _ => endsAlike_read, ?_, ?_, ?_⟩
  · exact fun _ _ _ => endsAlike_filter
  · exact fun _ _ _ => endsAlike_filterFirst
  · exact fun _ => endsAlike_filterCompiled

/-- Invoices whose missing totals are zero. -/
def totalled : Mapping := ⟨RecordSchema.invoice, true, "CURRENT_TIMESTAMP"⟩

def dueDay : Date := { year := 2024, month := 2, day := 29 }

/-- What a connection may return for an invoice: the number as text, a total that is none, a point
in time for a day, and one column too many. -/
def returnedInvoice : List Value :=
  [.text "17", .int 3, .text "Ada", .null, .text "unknown", .timestamp ⟨dueDay, .midnight, none⟩,
    .null, .int 5, .null, .null, .bool true]

/-- Reads the invoice with number 17 over a connection that returns it. -/
def invoiceRead (h : Handle (Script ConnectionEvent)) :=
  ((totalled.read 0).start { rows := [(.int 17 :: .int 3 :: List.replicate 9 .null)] }).run h
    { items := [{ rows := [returnedInvoice] }] }

/-- Both handles leave the invoice in its row. -/
theorem reads_alike_unconverted_invoice :
    ValueType.date.fromDatabase (.timestamp ⟨dueDay, .midnight, none⟩) = .ok (.date dueDay) ∧
    ValueType.date.fromDatabase (.date dueDay) = .ok (.date dueDay) ∧
    ∃ w' s', invoiceRead (Connection.scripted.handle true) = ((.ok true, w'), s') ∧
      invoiceRead (Connection.scripted.plainHandle true) = ((.ok true, w'), s') ∧
      w'.rows = [[.int 17, .int 3, .text "Ada", .null, .decimal (.ofNat 0), .date dueDay, .null,
        .text "5", .null, .null, .null]] := by
  obtain ⟨hagain, hread, -⟩ := reads_alike_unconverted Connection.scripted true totalled
  have hresult : (invoiceRead (Connection.scripted.handle true)).1.1.toOption = some true := by rfl
  have hrows : (invoiceRead (Connection.scripted.handle true)).1.2.rows =
      [[.int 17, .int 3, .text "Ada", .null, .decimal (.ofNat 0), .date dueDay, .null,
        .text "5", .null, .null, .null]] := by rfl
  obtain ⟨⟨⟨result, w'⟩, s'⟩, hrun⟩ :
    ∃ out, invoiceRead (Connection.scripted.handle true) = out := ⟨_, rfl⟩
  rw [hrun] at hresult hrows
  obtain rfl := eq_ok_of_toOption hresult
  have hday : ValueType.date.fromDatabase (.timestamp ⟨dueDay, .midnight, none⟩) =
      .ok (.date dueDay) := rfl
  exact ⟨hday, hagain _ _ _ hday, w', s', hrun, (hread 0 _ _ true w' s').mp hrun, hrows⟩

end Mapping

end Tablewright
