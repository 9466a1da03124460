import Tablewright.Mapping.Batch
import Tablewright.Proofs.Mapping.Inserting
import Tablewright.Proofs.Mapping.Sentences

/-! Inserting several rows with one call. The batch binds for each row what the insert of the row
binds, before anything is sent, and puts the generated keys into the rows after all of them were
inserted. Against a handle that answers a batch as it answers the inserts one after the other, both
ways end alike, unless a row gets the key zero: the insert takes it for no key at all, and the
batch puts it into the row. -/

namespace Tablewright

/-- The single calls that a call stands for. -/
def Call.singles : Call → List Call
  | .writeMany sql rows types => rows.map fun values => .write sql values types
  | .insertManyKey sql rows types column =>
    rows.map fun values => .insertKey sql values types column
  | c => [c]

namespace Mapping

open Work

/-! ## Handles that answer a batch row by row -/

section

variable {σ : Type}

/-- The call by which several rows are inserted. -/
def batchCall (m : Mapping) (batch : List (List Value)) : Call :=
  match m.schema.generatedKey with
  | none => .writeMany m.insertStatement.toText batch (types m.insertBound)
  | some g => .insertManyKey m.insertStatement.toText batch (types m.insertBound) g.columnName

/-- What a handle answers to it. Where no key is generated there is none for any row. -/
def batchReply (m : Mapping) (h : Handle σ) (batch : List (List Value)) (s : σ) :
    Except Failure (Int × List Value) × σ :=
  match m.schema.generatedKey with
  | none =>
    let (a, s) := h.answer (.writeMany m.insertStatement.toText batch (types m.insertBound)) s
    (a.outcome.map (·, batch.map fun _ => .null), s)
  | some g =>
    let (a, s) := h.answer
      (.insertManyKey m.insertStatement.toText batch (types m.insertBound) g.columnName) s
    (a.outcome, s)

/-- The key of an insert, which is null where nothing was inserted. -/
def replyKey (reply : Int × Value) : Value := if reply.1 = 0 then .null else reply.2

/-- A handle to which a batch is what its inserts are one after the other: their counts are added
up, and their keys listed. -/
structure InsertsInTurn (m : Mapping) (h : Handle σ) : Prop where
  batch : ∀ values rest s, m.batchReply h (values :: rest) s =
    ((m.insertReplies h (values :: rest) s).1.map fun replies =>
      ((replies.map Prod.fst).sum, replies.map replyKey), (m.insertReplies h (values :: rest) s).2)
  count : m.InsertsOne h

end

/-! ## Keys that go into rows -/

/-- What a batch makes of a row: a key that is not null comes to its place. -/
def batchKeyed (m : Mapping) (key : Value) (row : Row) : Except Failure Row :=
  match m.schema.generatedKey with
  | none => .ok row
  | some g =>
    if key.isNull then .ok row else (g.valueType.fromDatabase key).map (row.set g.index ·)

def afterBatch (m : Mapping) (reply : Int × Value) (row : Row) : Except Failure Row :=
  m.batchKeyed (replyKey reply) row

/-- Whether a row was inserted and got the key zero. -/
def zeroKeyed (m : Mapping) (reply : Int × Value) : Bool :=
  m.schema.generatedKey.isSome && reply.1 != 0 && reply.2.same (.int 0)

variable {m : Mapping} {row row' : Row} {reply : Int × Value}

/-- Only the key zero is treated differently. -/
theorem afterBatch_eq (h : m.zeroKeyed reply = false) (row : Row) :
    m.afterBatch reply row = m.afterInsert reply row := by
  unfold afterBatch afterInsert batchKeyed keyed replyKey isNoKey
  unfold zeroKeyed at h
  cases hg : m.schema.generatedKey with
  | none => simp
  | some g =>
    by_cases hn : reply.1 = 0
    · simp [hn, Value.isNull]
    · have hzero : reply.2.same (.int 0) = false := by simpa [hg, hn] using h
      simp [hn, hzero]

/-- The key zero leaves the row as it is after the insert, and stands in it after the batch. -/
theorem after_of_zeroKeyed (h : m.zeroKeyed reply = true)
    (hafter : m.afterBatch reply row = .ok row') :
    m.afterInsert reply row = .ok row ∧ ∃ g v, m.schema.generatedKey = some g ∧
      g.valueType.fromDatabase reply.2 = .ok v ∧ row' = row.set g.index v := by
  obtain ⟨n, key⟩ := reply
  unfold zeroKeyed at h
  simp only [Bool.and_eq_true, bne_iff_ne, Option.isSome_iff_exists] at h
  obtain ⟨⟨⟨g, hg⟩, hn⟩, hzero⟩ := h
  have hnull : key.isNull = false := by
    cases key <;> first | rfl | cases hzero
  unfold afterBatch replyKey batchKeyed at hafter
  rw [hg, if_neg hn] at hafter
  dsimp only at hafter
  rw [if_neg (by simp [hnull])] at hafter
  obtain ⟨v, hv, rfl⟩ := ValueType.map_eq_ok hafter
  refine ⟨?_, g, v, hg, hv, rfl⟩
  rw [afterInsert, if_neg hn, keyed, hg]
  exact if_pos (by rw [isNoKey, hzero, Bool.or_true])

theorem afterBatch_of_keyReadable (h : m.KeyReadable reply) (row : Row) :
    ∃ row', m.afterBatch reply row = .ok row' := by
  unfold afterBatch batchKeyed replyKey
  cases hg : m.schema.generatedKey with
  | none => exact ⟨row, rfl⟩
  | some g =>
    obtain ⟨v, hv⟩ := h g hg
    by_cases hn : reply.1 = 0
    · exact ⟨row, by simp [hn, Value.isNull]⟩
    · simp only [if_neg hn, hv, Except.map]
      split <;> exact ⟨_, rfl⟩

/-! ## What the batch leads to -/

section

variable {σ : Type} {h : Handle σ} {rows : List Row} {rs : List RowRef} {r : RowRef}
  {heard asked more : List AnsweredCall} {s s' : σ} {e : Failure} {w : Workspace}

/-- The call of a batch, and what it is answered. -/
def askBatch (m : Mapping) (batch : List (List Value)) : Work (Int × List Value) :=
  match m.schema.generatedKey with
  | none => do
    return (← Work.writeMany m.insertStatement.toText batch (types m.insertBound),
      batch.map fun _ => .null)
  | some g =>
    Work.insertManyKey m.insertStatement.toText batch (types m.insertBound) g.columnName

/-- What a batch does with the keys. -/
def settleBatch (m : Mapping) (pairs : List (RowRef × Value)) : Work Unit :=
  match m.schema.generatedKey with
  | none => pure ()
  | some g => assignKeys g pairs

theorem sendInserts_eq (m : Mapping) (rs : List RowRef) : m.sendInserts rs = (do
    let batch ← m.bindRows m.insertBound rs
    let reply ← m.askBatch batch
    m.settleBatch (rs.zip reply.2)
    return reply.1) := by
  unfold sendInserts askBatch settleBatch
  cases hg : m.schema.generatedKey with
  | none => simp only [bind_assoc, pure_bind, bind_pure]
  | some g => rfl

theorem leads_askBatch (h : Handle σ) (batch : List (List Value)) (rows : List Row)
    (heard : List AnsweredCall) (s : σ) :
    ∃ a : AnsweredCall, a.call = m.batchCall batch ∧
      LeadsTo h.listening (m.askBatch batch) rows (heard, s) (m.batchReply h batch s).1 rows
        (heard ++ [a], (m.batchReply h batch s).2) := by
  unfold askBatch batchCall batchReply
  cases hg : m.schema.generatedKey with
  | none => exact ⟨⟨_, _⟩, rfl, leads_ask.map⟩
  | some g => exact ⟨⟨_, _⟩, rfl, leads_ask⟩

/-- Several rows bind what they bind one by one. -/
theorem leads_bindRows {τ : Type} {h : Handle τ} {s : τ} (rows : List Row) (rs : List RowRef) :
    LeadsTo h (m.bindRows m.insertBound rs) rows s
      (rs.mapM fun r => m.bindRow m.insertBound (rows.getD r [])) rows s :=
  leads_mapM (fun _ => leads_row.bind leads_lift) rs

theorem bindRows_of_lengths (hlen : ∀ r ∈ rs, (rows.getD r []).length = m.schema.fields.length) :
    (rs.mapM fun r => m.bindRow m.insertBound (rows.getD r [])) = .ok (m.batchOf rs rows) := by
  induction rs with
  | nil => rfl
  | cons r rs ih =>
    obtain ⟨hr, hlen⟩ := List.forall_mem_cons.mp hlen
    rw [List.mapM_cons, ih hlen, bindRow, if_pos hr]
    rfl

/-- The first row of a wrong length is the failure. -/
theorem bindRows_of_length_ne (hlen : ∃ r ∈ rs, (rows.getD r []).length ≠ m.schema.fields.length) :
    ∃ r ∈ rs, (rows.getD r []).length ≠ m.schema.fields.length ∧
      (rs.mapM fun r => m.bindRow m.insertBound (rows.getD r [])) =
        .error (.rowLength m.schema.name (rows.getD r []).length m.schema.fields.length) := by
  induction rs with
  | nil => simp at hlen
  | cons r rs ih =>
    by_cases hr : (rows.getD r []).length = m.schema.fields.length
    · obtain ⟨o, ho, hne⟩ := hlen
      have ho : o ∈ rs := (List.mem_cons.mp ho).resolve_left (by rintro rfl; exact hne hr)
      obtain ⟨o, ho, hne, herror⟩ := ih ⟨o, ho, hne⟩
      refine ⟨o, List.mem_cons_of_mem r ho, hne, ?_⟩
      rw [List.mapM_cons, herror, bindRow, if_pos hr]
      rfl
    · refine ⟨r, List.mem_cons_self, hr, ?_⟩
      rw [List.mapM_cons, bindRow, if_neg hr]
      rfl

theorem length_of_batchKeyed {key : Value} (h : m.batchKeyed key row = .ok row') :
    row'.length = row.length := by
  unfold batchKeyed at h
  split at h
  · rw [Except.ok.inj h]
  · split at h
    · rw [Except.ok.inj h]
    · obtain ⟨v, -, rfl⟩ := ValueType.map_eq_ok h
      exact List.length_set

/-- A key comes to its place in a row, unless it is null. -/
theorem leads_batchKey {τ : Type} {h : Handle τ} {s : τ} {g : Field} (hs : m.schema.Sound)
    (hg : m.schema.generatedKey = some g) (hlen : (rows.getD r []).length = m.schema.fields.length)
    (key : Value) :
    LeadsTo h (do if !key.isNull then setAt r g.index (← lift (g.valueType.fromDatabase key)))
      rows s (becoming m.batchKeyed [(r, key)] rows).1
      (becoming m.batchKeyed [(r, key)] rows).2 s := by
  simp only [becoming, batchKeyed, hg]
  cases key.isNull with
  | true =>
    simp only [if_true, set_getD]
    exact leads_pure
  | false =>
    have hindex : g.index < (rows.getD r []).length := by
      rw [hlen]
      exact hs.generated_lt hg
    cases hv : g.valueType.fromDatabase key with
    | error e => exact leads_lift.bind_error
    | ok v => exact leads_lift.bind (leads_setAt hindex)

/-- Keys that come to their places, one after the other. -/
theorem leads_assignKeys {τ : Type} {h : Handle τ} {s : τ} {g : Field} (hs : m.schema.Sound)
    (hg : m.schema.generatedKey = some g) {pairs : List (RowRef × Value)}
    (hlen : ∀ e ∈ pairs, (rows.getD e.1 []).length = m.schema.fields.length) :
    LeadsTo h (assignKeys g pairs) rows s (becoming m.batchKeyed pairs rows).1
      (becoming m.batchKeyed pairs rows).2 s := by
  induction pairs generalizing rows with
  | nil => exact leads_pure
  | cons e pairs ih =>
    obtain ⟨r, key⟩ := e
    obtain ⟨hr, hpairs⟩ := List.forall_mem_cons.mp hlen
    have hfirst := leads_batchKey hs hg hr key (h := h) (s := s)
    have hcons : assignKeys g ((r, key) :: pairs) = (do
      (do if !key.isNull then setAt r g.index (← lift (g.valueType.fromDatabase key)))
      assignKeys g pairs) := rfl
    rw [hcons]
    simp only [becoming] at hfirst ⊢
    cases hkeyed : m.batchKeyed key (rows.getD r []) with
    | error e =>
      simp only [hkeyed] at hfirst
      exact hfirst.bind_error
    | ok row =>
      simp only [hkeyed] at hfirst
      refine hfirst.bind (ih fun e he => ?_)
      rcases getD_set rows r e.1 row [] with ⟨-, hset⟩ | hset
      · rw [hset, length_of_batchKeyed hkeyed, hr]
      · rw [hset, hpairs e he]

theorem leads_settleBatch {τ : Type} {h : Handle τ} {s : τ} (hs : m.schema.Sound)
    {pairs : List (RowRef × Value)}
    (hlen : ∀ e ∈ pairs, (rows.getD e.1 []).length = m.schema.fields.length) :
    LeadsTo h (m.settleBatch pairs) rows s (becoming m.batchKeyed pairs rows).1
      (becoming m.batchKeyed pairs rows).2 s := by
  unfold settleBatch
  cases hg : m.schema.generatedKey with
  | none =>
    have hkept : ∀ key row, m.batchKeyed key row = .ok row := fun key row => by
      rw [batchKeyed, hg]
    rw [becoming_of_kept hkept]
    exact leads_pure
  | some g => exact leads_assignKeys hs hg hlen

/-- All of some inserts were done exactly if as many rows were inserted. -/
theorem count_eq_length {replies : List (Int × Value)}
    (hcounts : ∀ reply ∈ replies, reply.1 = 0 ∨ reply.1 = 1) :
    (replies.map Prod.fst).sum ≤ replies.length ∧
      ((replies.map Prod.fst).sum = replies.length ↔ (replies.map isDone).all id = true) := by
  induction replies with
  | nil => simp
  | cons reply replies ih =>
    obtain ⟨hcount, hcounts⟩ := List.forall_mem_cons.mp hcounts
    obtain ⟨hle, hiff⟩ := ih hcounts
    simp only [List.map_cons, List.sum_cons, List.length_cons, List.all_cons, id_eq,
      Bool.and_eq_true, ← hiff, isDone, decide_eq_true_eq]
    omega

theorem singles_batchCall (m : Mapping) (rs : List RowRef) (rows : List Row) :
    (m.batchCall (m.batchOf rs rows)).singles = m.callsOf rs rows := by
  unfold batchCall callsOf insertCall
  cases hg : m.schema.generatedKey with
  | none => simp [Call.singles]
  | some g => simp [Call.singles]

/-- What a batch leads to. It asks once, unless there is nothing to insert. Where the handle fails
so does the batch, and no row is changed; otherwise the rows become what they become by the
answer. -/
structure BatchLeads (m : Mapping) (h : Handle σ) (rs : List RowRef) (rows : List Row)
    (heard : List AnsweredCall) (s : σ) (more : List AnsweredCall) : Prop where
  once : more.length = min 1 rs.length
  sent : (more.map (·.call)).flatMap Call.singles = m.callsOf rs rows
  refused : ∀ e s', m.insertReplies h (m.batchOf rs rows) s = (.error e, s') →
    LeadsTo h.listening (m.insertAll rs) rows (heard, s) (.error e) rows (heard ++ more, s')
  replied : ∀ replies s', m.insertReplies h (m.batchOf rs rows) s = (.ok replies, s') →
    LeadsTo h.listening (m.insertAll rs) rows (heard, s)
      ((becoming m.afterBatch (rs.zip replies) rows).1.map fun _ => (replies.map isDone).all id)
      (becoming m.afterBatch (rs.zip replies) rows).2 (heard ++ more, s')

theorem batchLeads_nil (hk : m.hasKeys = true) (heard : List AnsweredCall) (s : σ) :
    m.BatchLeads h [] rows heard s [] := by
  have hall : m.insertAll [] = pure true := by
    unfold insertAll
    rw [if_neg (by simp [hk])]
    rfl
  refine ⟨rfl, rfl, nofun, fun replies s' hreplies => ?_⟩
  cases hreplies
  rw [hall, List.append_nil]
  exact leads_pure

theorem batchLeads (hs : m.schema.Sound) (hk : m.hasKeys = true) (hh : m.InsertsInTurn h)
    (hlen : ∀ r ∈ rs, (rows.getD r []).length = m.schema.fields.length)
    (heard : List AnsweredCall) (s : σ) : ∃ asked, m.BatchLeads h rs rows heard s asked := by
  rcases eq_or_ne rs [] with rfl | hne
  · exact ⟨[], batchLeads_nil hk heard s⟩
  obtain ⟨a, hcall, hask⟩ := m.leads_askBatch h (m.batchOf rs rows) rows heard s
  have hreply : m.batchReply h (m.batchOf rs rows) s =
      ((m.insertReplies h (m.batchOf rs rows) s).1.map fun replies =>
        ((replies.map Prod.fst).sum, replies.map replyKey),
        (m.insertReplies h (m.batchOf rs rows) s).2) := by
    obtain ⟨r, rest, rfl⟩ := List.exists_cons_of_ne_nil hne
    exact hh.batch _ _ s
  rw [hreply] at hask
  have hbind := leads_bindRows rows rs (m := m) (h := h.listening) (s := (heard, s))
  rw [bindRows_of_lengths hlen] at hbind
  have honce : 1 = min 1 rs.length := (min_eq_left (List.length_pos_iff.mpr hne)).symm
  refine ⟨[a], honce, ?_, fun e s' hreplies => ?_, fun replies s' hreplies => ?_⟩
  · rw [List.map_singleton, hcall, List.flatMap_singleton, singles_batchCall]
  · rw [hreplies] at hask
    unfold insertAll
    rw [if_neg (by simp [hk]), if_neg (by simpa using hne), sendInserts_eq]
    exact (hbind.bind hask.bind_error).bind_error
  · rw [hreplies] at hask
    obtain ⟨hlength, hcounts⟩ := of_insertReplies hh.count hreplies
    rw [List.length_map] at hlength
    have hpairs : ∀ e ∈ rs.zip (replies.map replyKey),
        (rows.getD e.1 []).length = m.schema.fields.length :=
      fun e he => hlen e.1 (List.of_mem_zip he).1
    have hsettle := leads_settleBatch hs hpairs (h := h.listening) (s := (heard ++ [a], s'))
    rw [List.zip_map_right, becoming_map] at hsettle
    have hsend : LeadsTo h.listening (m.sendInserts rs) rows (heard, s)
        ((becoming m.afterBatch (rs.zip replies) rows).1.map fun _ =>
          (replies.map Prod.fst).sum)
        (becoming m.afterBatch (rs.zip replies) rows).2 (heard ++ [a], s') := by
      rw [sendInserts_eq]
      refine hbind.bind (hask.bind ?_)
      rw [List.zip_map_right]
      exact hsettle.map
    have hall := (count_eq_length hcounts).2
    rw [hlength] at hall
    unfold insertAll
    rw [if_neg (by simp [hk]), if_neg (by simpa using hne)]
    cases hout : (becoming m.afterBatch (rs.zip replies) rows).1 with
    | error e =>
      rw [hout] at hsend
      exact hsend.bind_error
    | ok u =>
      rw [hout] at hsend
      refine hsend.bind ?_
      split
      · rename_i hcount
        rw [Except.map, hall.mp hcount]
        exact leads_pure
      · rename_i hcount
        rw [Except.map, Bool.eq_false_iff.mpr fun htrue => hcount (hall.mpr htrue)]
        exact leads_note.bind leads_pure

/-! ## The batch beside the inserts -/

/-- How a batch and the inserts of its rows, one after the other, compare. -/
structure ActsInTurn (m : Mapping) (h : Handle σ) (rs : List RowRef) (w : Workspace) (s : σ)
    (batch : Task (Except Failure Bool × Workspace))
    (inserts : Task (Except Failure (List Bool) × Workspace)) : Prop where
  /-- The batch asks once, unless there is nothing to insert. -/
  once : (batch.asked h s).length = min 1 rs.length
  /-- It stands for the call of every insert, with the same statement and the same parameters. -/
  sent : (batch.asked h s).flatMap Call.singles = m.callsOf rs w.rows
  inserted : inserts.asked h s <+: m.callsOf rs w.rows
  /-- If the handle fails so do both, and the batch has not changed any row. -/
  refused : ∀ e s', m.insertReplies h (m.batchOf rs w.rows) s = (.error e, s') →
    (∃ w', batch.run h s = ((.error e, w'), s') ∧ w'.rows = w.rows) ∧
      ∃ e', (inserts.run h s).1.1 = .error e'
  /-- If no key is zero both end alike: with the same rows, and with the same failure if a key
  cannot be brought into its native form. Otherwise the batch says whether all inserts were done. -/
  alike : ∀ replies s', m.insertReplies h (m.batchOf rs w.rows) s = (.ok replies, s') →
    (∀ reply ∈ replies, m.zeroKeyed reply = false) →
    (batch.run h s).1.1 = (inserts.run h s).1.1.map (·.all id) ∧
      (batch.run h s).1.2.rows = (inserts.run h s).1.2.rows ∧ (batch.run h s).2 = s' ∧
      ∀ done, (inserts.run h s).1.1 = .ok done →
        inserts.asked h s = m.callsOf rs w.rows ∧ (inserts.run h s).2 = s'
  /-- If all keys can be brought into their native form, the rows differ only where a key is zero:
  the insert leaves the row as it was, and the batch puts the zero into it. -/
  keyed : ∀ replies s', m.insertReplies h (m.batchOf rs w.rows) s = (.ok replies, s') →
    (∀ reply ∈ replies, m.KeyReadable reply) → ∃ done w₁ w₂,
    batch.run h s = ((.ok (done.all id), w₁), s') ∧ inserts.run h s = ((.ok done, w₂), s') ∧
      inserts.asked h s = m.callsOf rs w.rows ∧
      (∀ e ∈ rs.zip replies, m.zeroKeyed e.2 = false → w₁.row e.1 = w₂.row e.1) ∧
      (∀ e ∈ rs.zip replies, m.zeroKeyed e.2 = true → w₂.row e.1 = w.row e.1 ∧
        ∃ g v, m.schema.generatedKey = some g ∧ g.valueType.fromDatabase e.2.2 = .ok v ∧
          w₁.row e.1 = (w.row e.1).set g.index v) ∧
      ∀ o ∉ rs, w₁.row o = w.row o ∧ w₂.row o = w.row o

theorem BatchLeads.asked_eq (hb : m.BatchLeads h rs w.rows [] s asked) :
    ((m.insertAll rs).start w).asked h s = asked.map (·.call) := by
  obtain ⟨⟨out, s'⟩, hreplies⟩ : ∃ out, m.insertReplies h (m.batchOf rs w.rows) s = out := ⟨_, rfl⟩
  cases out with
  | error e => exact (hb.refused e s' hreplies).run.1
  | ok replies => exact (hb.replied replies s' hreplies).run.1

theorem InsertsLead.asked_eq (hi : m.InsertsLead h rs w.rows [] s more) :
    ((rs.mapM m.insert).start w).asked h s = more.map (·.call) := by
  obtain ⟨⟨out, s'⟩, hreplies⟩ : ∃ out, m.insertReplies h (m.batchOf rs w.rows) s = out := ⟨_, rfl⟩
  cases out with
  | error e =>
    obtain ⟨_, _, _, hlead⟩ := hi.refused e s' hreplies
    exact hlead.run.1
  | ok replies =>
    obtain ⟨⟨out, rows'⟩, hout⟩ : ∃ out, becoming m.afterInsert (rs.zip replies) w.rows = out :=
      ⟨_, rfl⟩
    cases out with
    | error e =>
      obtain ⟨_, hlead⟩ := hi.failed replies s' e rows' hreplies hout
      exact hlead.run.1
    | ok u => exact (hi.done replies s' rows' hreplies hout).2.run.1

theorem BatchLeads.actsInTurn (hrs : rs.Nodup) (hlt : ∀ r ∈ rs, r < w.rows.length)
    (hh : m.InsertsInTurn h)
    (hb : m.BatchLeads h rs w.rows [] s asked) (hi : m.InsertsLead h rs w.rows [] s more) :
    m.ActsInTurn h rs w s ((m.insertAll rs).start w) ((rs.mapM m.insert).start w) := by
  refine ⟨?_, ?_, ?_, fun e s' hreplies => ?_, fun replies s' hreplies hzero => ?_,
    fun replies s' hreplies hread => ?_⟩
  · rw [hb.asked_eq, List.length_map, hb.once]
  · rw [hb.asked_eq, hb.sent]
  · rw [hi.asked_eq]
    exact hi.calls
  · obtain ⟨e', rows', s₁, hlead⟩ := hi.refused e s' hreplies
    obtain ⟨-, w', hrun, -⟩ := hlead.run
    exact ⟨(hb.refused e s' hreplies).run.2, e', by rw [hrun]⟩
  · obtain ⟨-, w₁, hrun₁, hrows₁⟩ := (hb.replied replies s' hreplies).run
    have hsame : becoming m.afterBatch (rs.zip replies) w.rows =
        becoming m.afterInsert (rs.zip replies) w.rows :=
      becoming_congr (fun e he => afterBatch_eq (hzero e.2 (List.of_mem_zip he).2)) w.rows
    rw [hsame] at hrun₁ hrows₁
    obtain ⟨⟨out, rows'⟩, hout⟩ : ∃ out, becoming m.afterInsert (rs.zip replies) w.rows = out :=
      ⟨_, rfl⟩
    rw [hout] at hrun₁ hrows₁
    cases out with
    | error e =>
      obtain ⟨s₁, hlead⟩ := hi.failed replies s' e rows' hreplies hout
      obtain ⟨-, w₂, hrun₂, hrows₂⟩ := hlead.run
      rw [hrun₁, hrun₂]
      exact ⟨rfl, hrows₁.trans hrows₂.symm, rfl, nofun⟩
    | ok u =>
      obtain ⟨hall, hlead⟩ := hi.done replies s' rows' hreplies hout
      obtain ⟨-, w₂, hrun₂, hrows₂⟩ := hlead.run
      rw [hrun₁, hrun₂]
      exact ⟨rfl, hrows₁.trans hrows₂.symm, rfl, fun _ _ => ⟨hi.asked_eq.trans hall, rfl⟩⟩
  · have hlength : replies.length = rs.length := by
      rw [(of_insertReplies hh.count hreplies).1, List.length_map]
    have hpairs : (rs.zip replies).map Prod.fst = rs := List.map_fst_zip hlength.ge
    have hlt : ∀ e ∈ rs.zip replies, e.1 < w.rows.length :=
      fun e he => hlt e.1 (List.of_mem_zip he).1
    have hread : ∀ e ∈ rs.zip replies, m.KeyReadable e.2 :=
      fun e he => hread e.2 (List.of_mem_zip he).2
    obtain ⟨rows₁, hout₁⟩ : ∃ rows₁,
        becoming m.afterBatch (rs.zip replies) w.rows = (.ok (), rows₁) :=
      ⟨_, Prod.ext (becoming_of_ok (fun e he => afterBatch_of_keyReadable (hread e he)) _) rfl⟩
    obtain ⟨rows₂, hout₂⟩ : ∃ rows₂,
        becoming m.afterInsert (rs.zip replies) w.rows = (.ok (), rows₂) :=
      ⟨_, Prod.ext (becoming_of_ok (fun e he => afterInsert_of_keyReadable (hread e he)) _) rfl⟩
    obtain ⟨heach₁, hother₁⟩ := becoming_places hout₁ (hpairs.symm ▸ hrs) hlt
    obtain ⟨heach₂, hother₂⟩ := becoming_places hout₂ (hpairs.symm ▸ hrs) hlt
    rw [hpairs] at hother₁ hother₂
    have hlead₁ := hb.replied replies s' hreplies
    rw [hout₁] at hlead₁
    obtain ⟨-, w₁, hrun₁, rfl⟩ := hlead₁.run
    obtain ⟨hall, hlead₂⟩ := hi.done replies s' rows₂ hreplies hout₂
    obtain ⟨-, w₂, hrun₂, rfl⟩ := hlead₂.run
    refine ⟨_, w₁, w₂, hrun₁, hrun₂, hi.asked_eq.trans hall, fun e he hzero => ?_,
      fun e he hzero => ?_, fun o ho => ⟨hother₁ o ho, hother₂ o ho⟩⟩
    · have hafter := heach₁ e he
      rw [afterBatch_eq hzero, heach₂ e he] at hafter
      exact (Except.ok.inj hafter).symm
    · obtain ⟨hkept, hkeyed⟩ := after_of_zeroKeyed hzero (heach₁ e he)
      rw [heach₂ e he] at hkept
      exact ⟨Except.ok.inj hkept, hkeyed⟩

/-- Inserting distinct rows with one call is inserting them in turn, up to keys that are zero. If
some row has the wrong length nothing is sent, and no row is changed. -/
theorem insertAll_actsInTurn (hs : m.schema.Valid) (hk : m.hasKeys = true)
    (hh : m.InsertsInTurn h) (hrs : rs.Nodup) (w : Workspace) (s : σ) :
    ((∀ r ∈ rs, (w.row r).length = m.schema.fields.length) →
      m.ActsInTurn h rs w s ((m.insertAll rs).start w) ((rs.mapM m.insert).start w)) ∧
    ((∃ r ∈ rs, (w.row r).length ≠ m.schema.fields.length) →
      ((m.insertAll rs).start w).asked h s = [] ∧
      ∃ r ∈ rs, (w.row r).length ≠ m.schema.fields.length ∧ ∃ w',
        ((m.insertAll rs).start w).run h s =
          ((.error (.rowLength m.schema.name (w.row r).length m.schema.fields.length), w'), s) ∧
        w'.rows = w.rows) := by
  refine ⟨fun hlen => ?_, fun hlen => ?_⟩
  · have hfields : 0 < m.schema.fields.length := by
      obtain ⟨f, hf⟩ : ∃ f, f ∈ m.schema.keyFields := by
        simpa [hasKeys, List.isEmpty_iff, List.eq_nil_iff_forall_not_mem] using hk
      exact List.length_pos_of_mem (hs.sound.key_mem hf).1
    have hlt : ∀ r ∈ rs, r < w.rows.length := fun r hr =>
      Workspace.lt_of_row (i := 0) ((hlen r hr).symm ▸ hfields)
    obtain ⟨asked, hb⟩ := batchLeads hs.sound hk hh hlen [] s
    obtain ⟨more, hi⟩ := insertsLead hs.sound hk hh.count hrs hlen [] s
    exact hb.actsInTurn hrs hlt hh hi
  · have hlen : ∃ r ∈ rs, (w.rows.getD r []).length ≠ m.schema.fields.length := hlen
    obtain ⟨r, hr, hne, hbind⟩ := bindRows_of_length_ne hlen
    have hlead : LeadsTo h.listening (m.insertAll rs) w.rows ([], s)
        (.error (.rowLength m.schema.name (w.row r).length m.schema.fields.length)) w.rows
        ([], s) := by
      have hvalues := leads_bindRows w.rows rs (m := m) (h := h.listening) (s := ([], s))
      rw [hbind] at hvalues
      unfold insertAll
      rw [if_neg (by simp [hk]), if_neg (by simpa using List.ne_nil_of_mem hr), sendInserts_eq]
      exact hvalues.bind_error.bind_error
    obtain ⟨hasked, hrun⟩ := hlead.run
    exact ⟨hasked, r, hr, hne, hrun⟩

end

/-! ## A handle that numbers rows -/

/-- What a handle answers that numbers the rows it inserts, and inserts none that begins with
null. -/
def numbered (values : List Value) (n : Nat) : (Int × Value) × Nat :=
  if values.headD .null |>.isNull then ((0, .null), n) else ((1, .int n), n + 1)

def numberedAll : List (List Value) → Nat → List (Int × Value) × Nat
  | [], n => ([], n)
  | values :: rest, n =>
    let (reply, n) := numbered values n
    let (replies, n) := numberedAll rest n
    (reply :: replies, n)

/-- It does nothing else. -/
def numbering : Handle Nat where
  answer
    | .insertKey _ values _ _, n => (⟨.ok (numbered values n).1, []⟩, (numbered values n).2)
    | .insertManyKey _ rows _ _, n =>
      let replies := (numberedAll rows n).1
      (⟨.ok ((replies.map Prod.fst).sum, replies.map replyKey), []⟩, (numberedAll rows n).2)
    | _, n => (⟨.error (.database "unsupported"), []⟩, n)

theorem insertReplies_numbering {g : Field} (hg : m.schema.generatedKey = some g)
    (batch : List (List Value)) (n : Nat) :
    m.insertReplies numbering batch n = (.ok (numberedAll batch n).1, (numberedAll batch n).2) := by
  induction batch generalizing n with
  | nil => rfl
  | cons values batch ih =>
    simp only [insertReplies, insertReply, hg, numbering, numberedAll] at ih ⊢
    rw [ih]
    rfl

theorem numbering_inTurn {g : Field} (hg : m.schema.generatedKey = some g) :
    m.InsertsInTurn numbering where
  batch values rest n := by
    rw [insertReplies_numbering hg]
    unfold batchReply
    rw [hg]
    rfl
  count values s n key h := by
    unfold insertReply at h
    rw [hg] at h
    have h : (numbered values s).1 = (n, key) := Except.ok.inj h
    unfold numbered at h
    split at h
    · exact .inl (congrArg Prod.fst h).symm
    · exact .inr (congrArg Prod.fst h).symm

/-- Boxes with a number that is generated. -/
def boxDeclaration : RecordDeclaration where
  name := "box"
  nameInDb := some "boxes"
  useTimestampCheck := false
  operations := []
  fields := [
    RecordSchema.invoiceColumn "number" "number" .integer .generatedPrimaryKey,
    RecordSchema.invoiceColumn "label" "label" .text .optionalData]

def boxes : Mapping := mapped boxDeclaration

theorem boxes_valid : boxes.schema.Valid := RecordSchema.valid_declared (by decide +kernel)

theorem boxes_inTurn : boxes.InsertsInTurn numbering := by
  obtain ⟨g, hg⟩ : ∃ g, boxes.schema.generatedKey = some g :=
    Option.isSome_iff_exists.mp (by decide +kernel)
  exact numbering_inTurn hg

/-- Three boxes, the second without a label. -/
def boxRows : Workspace := { rows := [[.null, .text "a"], [.null, .null], [.null, .text "c"]] }

theorem boxRows_lengths : ∀ r ∈ [0, 1, 2], (boxRows.row r).length = boxes.schema.fields.length := by
  decide +kernel

/-- Numbered from one on, the boxes end in the same way as by their inserts, and not all of them are
inserted. -/
theorem insertAll_boxes : boxes.ActsInTurn numbering [0, 1, 2] boxRows 1
      ((boxes.insertAll [0, 1, 2]).start boxRows) (([0, 1, 2].mapM boxes.insert).start boxRows) ∧
    (((boxes.insertAll [0, 1, 2]).start boxRows).run numbering 1).1.2.rows =
      [[.int 1, .text "a"], [.null, .null], [.int 2, .text "c"]] := by
  refine ⟨(insertAll_actsInTurn boxes_valid (by decide +kernel) boxes_inTurn (by decide) boxRows
    1).1 boxRows_lengths, ?_⟩
  rfl

/-- Numbered from zero on, the first box has the number zero after the batch, and none after its
insert. -/
theorem zero_numbered_box : boxes.schema.Valid ∧ boxes.hasKeys = true ∧
    boxes.InsertsInTurn numbering ∧ [0].Nodup ∧
    (∀ r ∈ [0], (boxRows.row r).length = boxes.schema.fields.length) ∧
    (((boxes.insertAll [0]).start boxRows).run numbering 0).1.2.row 0 = [.int 0, .text "a"] ∧
    ((([0].mapM boxes.insert).start boxRows).run numbering 0).1.2.row 0 = [.null, .text "a"] := by
  refine ⟨boxes_valid, by decide +kernel, boxes_inTurn, by decide, by decide +kernel, ?_, ?_⟩
  · rfl
  · rfl

end Mapping

end Tablewright
