import Mathlib.Data.List.Infix
import Tablewright.Mapping.ByKey
import Tablewright.Proofs.Leading
import Tablewright.Proofs.Mapping.Heard
import Tablewright.Proofs.Schema.ValueType

/-! Inserting rows one after the other. What the handle answers to each insert decides what becomes
of its row, and the inserts stop at the first answer that is a failure or a key that cannot be
brought into its native form. -/

namespace Tablewright.Mapping

open Work

/-! ## What a handle answers -/

section

variable {σ : Type}

/-- What a handle answers to the insert of some values: how many rows were inserted, and the key. -/
def insertReply (m : Mapping) (h : Handle σ) (values : List Value) (s : σ) :
    Except Failure (Int × Value) × σ :=
  match m.schema.generatedKey with
  | none =>
    let (a, s) := h.answer (.write m.insertStatement.toText values (types m.insertBound)) s
    (a.outcome.map (·, .null), s)
  | some g =>
    let (a, s) := h.answer
      (.insertKey m.insertStatement.toText values (types m.insertBound) g.columnName) s
    (a.outcome, s)

/-- What it answers to inserts one after the other, up to one that fails. -/
def insertReplies (m : Mapping) (h : Handle σ) :
    List (List Value) → σ → Except Failure (List (Int × Value)) × σ
  | [], s => (.ok [], s)
  | values :: rest, s => match m.insertReply h values s with
    | (.error e, s) => (.error e, s)
    | (.ok reply, s) =>
      let (r, s) := m.insertReplies h rest s
      (r.map (reply :: ·), s)

/-- Whether an insert has inserted a row. -/
def isDone (reply : Int × Value) : Bool := 0 < reply.1

/-- Each insert affects one row or none, if it does not fail. -/
def InsertsOne (m : Mapping) (h : Handle σ) : Prop :=
  ∀ values s n key, (m.insertReply h values s).1 = .ok (n, key) → n = 0 ∨ n = 1

end

/-! ## Rows that become others -/

/-- What some rows become, each by its own, up to one that cannot. -/
def becoming {ι : Type} (f : ι → Row → Except Failure Row) :
    List (RowRef × ι) → List Row → Except Failure Unit × List Row
  | [], rows => (.ok (), rows)
  | (r, a) :: rest, rows => match f a (rows.getD r []) with
    | .error e => (.error e, rows)
    | .ok row => becoming f rest (rows.set r row)

/-- What the insert makes of its row. -/
def afterInsert (m : Mapping) (reply : Int × Value) (row : Row) : Except Failure Row :=
  if reply.1 = 0 then .ok row else m.keyed reply.2 row

variable {m : Mapping} {row row' : Row} {reply : Int × Value}

section

variable {ι : Type} {f g : ι → Row → Except Failure Row} {pairs : List (RowRef × ι)}
  {rows rows' : List Row}

theorem becoming_congr (h : ∀ e ∈ pairs, ∀ row, f e.2 row = g e.2 row) (rows : List Row) :
    becoming f pairs rows = becoming g pairs rows := by
  induction pairs generalizing rows with
  | nil => rfl
  | cons e pairs ih =>
    obtain ⟨he, hpairs⟩ := List.forall_mem_cons.mp h
    simp only [becoming, he, ih hpairs]

theorem becoming_map {κ : Type} (k : κ → ι) (pairs : List (RowRef × κ)) (rows : List Row) :
    becoming f (pairs.map (Prod.map id k)) rows = becoming (fun a => f (k a)) pairs rows := by
  induction pairs generalizing rows with
  | nil => rfl
  | cons e pairs ih =>
    rw [List.map_cons, becoming, becoming]
    simp only [ih, Prod.map_fst, Prod.map_snd, id_eq]

theorem becoming_of_kept (h : ∀ a row, f a row = .ok row) (pairs : List (RowRef × ι))
    (rows : List Row) : becoming f pairs rows = (.ok (), rows) := by
  induction pairs with
  | nil => rfl
  | cons e pairs ih =>
    rw [becoming, h]
    dsimp only
    rw [set_getD, ih]

/-- Where no row fails, all of them become what they can. -/
theorem becoming_of_ok (h : ∀ e ∈ pairs, ∀ row, ∃ row', f e.2 row = .ok row') (rows : List Row) :
    (becoming f pairs rows).1 = .ok () := by
  induction pairs generalizing rows with
  | nil => rfl
  | cons e pairs ih =>
    obtain ⟨he, hpairs⟩ := List.forall_mem_cons.mp h
    obtain ⟨row', hrow'⟩ := he (rows.getD e.1 [])
    simp only [becoming, hrow', ih hpairs]

/-- Rows that are told apart become what they can by themselves, and no other row changes. -/
theorem becoming_places (h : becoming f pairs rows = (.ok (), rows'))
    (hpairs : (pairs.map Prod.fst).Nodup) (hlt : ∀ e ∈ pairs, e.1 < rows.length) :
    (∀ e ∈ pairs, f e.2 (rows.getD e.1 []) = .ok (rows'.getD e.1 [])) ∧
      ∀ o, o ∉ pairs.map Prod.fst → rows'.getD o [] = rows.getD o [] := by
  induction pairs generalizing rows with
  | nil =>
    cases h
    exact ⟨nofun, fun _ _ => rfl⟩
  | cons e pairs ih =>
    obtain ⟨r, a⟩ := e
    obtain ⟨hr, hpairs⟩ := List.nodup_cons.mp hpairs
    obtain ⟨hrlt, hlt⟩ := List.forall_mem_cons.mp hlt
    unfold becoming at h
    cases hf : f a (rows.getD r []) with
    | error e =>
      rw [hf] at h
      cases h
    | ok row =>
      rw [hf] at h
      obtain ⟨heach, hother⟩ := ih h hpairs (by simpa using hlt)
      refine ⟨List.forall_mem_cons.mpr ⟨?_, fun e he => ?_⟩, fun o ho => ?_⟩
      · rw [hf, hother r hr, getD_set_self hrlt]
      · have hne : e.1 ≠ r := fun heq => hr (List.mem_map.mpr ⟨e, he, heq⟩)
        rw [← heach e he, getD_set_of_ne rows hne]
      · obtain ⟨hne, ho⟩ := not_or.mp (fun hor => ho (List.mem_cons.mpr hor))
        rw [hother o ho, getD_set_of_ne rows hne]

end

/-- A key that can be brought into its native form, if one is generated. -/
def KeyReadable (m : Mapping) (reply : Int × Value) : Prop :=
  ∀ g, m.schema.generatedKey = some g → ∃ v, g.valueType.fromDatabase reply.2 = .ok v

theorem afterInsert_of_keyReadable (h : m.KeyReadable reply) (row : Row) :
    ∃ row', m.afterInsert reply row = .ok row' := by
  unfold afterInsert keyed
  split
  · exact ⟨row, rfl⟩
  · cases hg : m.schema.generatedKey with
    | none => exact ⟨row, rfl⟩
    | some g =>
      obtain ⟨v, hv⟩ := h g hg
      simp only [hv, Except.map]
      split <;> exact ⟨_, rfl⟩

/-! ## What the inserts lead to -/

section

variable {σ : Type} {h : Handle σ} {rows : List Row} {rs : List RowRef} {r : RowRef}
  {heard asked more : List AnsweredCall} {s s' : σ} {e : Failure} {w : Workspace}

theorem leads_values {τ : Type} {h : Handle τ} {s : τ} {fields : List Field}
    (hlen : (rows.getD r []).length = m.schema.fields.length) :
    LeadsTo h (do lift (m.bindRow fields (← Work.row r))) rows s
      (.ok (m.boundValues fields (rows.getD r []))) rows s := by
  have hbind : m.bindRow fields (rows.getD r []) = .ok (m.boundValues fields (rows.getD r [])) :=
    if_pos hlen
  exact leads_row.bind (hbind ▸ leads_lift)

/-- The call of an insert, and what it is answered. -/
def askInsert (m : Mapping) (values : List Value) : Work (Int × Value) :=
  match m.schema.generatedKey with
  | none => do return (← Work.write m.insertStatement.toText values (types m.insertBound), .null)
  | some g => Work.insertKey m.insertStatement.toText values (types m.insertBound) g.columnName

/-- What an insert does with the answer. -/
def settleInsert (m : Mapping) (r : RowRef) (reply : Int × Value) : Work Bool :=
  match m.schema.generatedKey with
  | none => return 0 < reply.1
  | some g => do
    if reply.1 = 0 then return false
    m.assignKey r g reply.2
    return true

theorem insert_eq (hk : m.hasKeys = true) (r : RowRef) : m.insert r = (do
    let values ← (do lift (m.bindRow m.insertBound (← Work.row r)))
    let reply ← m.askInsert values
    m.settleInsert r reply) := by
  unfold insert askInsert settleInsert
  rw [if_neg (by simp [hk])]
  cases hg : m.schema.generatedKey with
  | none => simp only [bind_assoc, pure_bind]
  | some g => simp only [bind_assoc]

theorem leads_askInsert (h : Handle σ) (row : Row) (rows : List Row) (heard : List AnsweredCall)
    (s : σ) :
    ∃ a : AnsweredCall, a.call = m.insertCall row ∧
      LeadsTo h.listening (m.askInsert (m.boundValues m.insertBound row)) rows (heard, s)
        (m.insertReply h (m.boundValues m.insertBound row) s).1 rows
        (heard ++ [a], (m.insertReply h (m.boundValues m.insertBound row) s).2) := by
  unfold askInsert insertCall insertReply
  cases hg : m.schema.generatedKey with
  | none => exact ⟨⟨_, _⟩, rfl, leads_ask.map⟩
  | some g => exact ⟨⟨_, _⟩, rfl, leads_ask⟩

/-- A generated key comes to its place in the row, or cannot be brought into its native form. -/
theorem leads_assignKey {τ : Type} {h : Handle τ} {s : τ} {g : Field} (hs : m.schema.Sound)
    (hg : m.schema.generatedKey = some g) (hlen : (rows.getD r []).length = m.schema.fields.length)
    (key : Value) :
    LeadsTo h (m.assignKey r g key) rows s (becoming m.keyed [(r, key)] rows).1
      (becoming m.keyed [(r, key)] rows).2 s := by
  unfold assignKey
  simp only [becoming, keyed, hg]
  split
  · dsimp only
    rw [set_getD]
    exact leads_note
  · have hindex : g.index < (rows.getD r []).length := by
      rw [hlen]
      exact hs.generated_lt hg
    cases hv : g.valueType.fromDatabase key with
    | error e => exact leads_lift.bind_error
    | ok v => exact leads_lift.bind ((leads_setAt hindex).bind leads_note)

theorem leads_settleInsert {τ : Type} {h : Handle τ} {s : τ} (hs : m.schema.Sound)
    (hlen : (rows.getD r []).length = m.schema.fields.length) (hn : reply.1 = 0 ∨ reply.1 = 1) :
    LeadsTo h (m.settleInsert r reply) rows s
      ((becoming m.afterInsert [(r, reply)] rows).1.map fun _ => isDone reply)
      (becoming m.afterInsert [(r, reply)] rows).2 s := by
  obtain ⟨n, key⟩ := reply
  unfold settleInsert
  cases hg : m.schema.generatedKey with
  | none =>
    have hafter : m.afterInsert (n, key) (rows.getD r []) = .ok (rows.getD r []) := by
      simp [afterInsert, keyed, hg]
    simp only [becoming, hafter, set_getD]
    exact leads_pure
  | some g =>
    dsimp only
    rcases hn with rfl | rfl
    · simp only [becoming, afterInsert, if_true, set_getD]
      exact leads_pure
    · exact (leads_assignKey hs hg hlen key).map

/-- An insert asks once. Where the handle fails so does the insert, and otherwise the row becomes
what it becomes by the answer. -/
theorem leads_insert (hs : m.schema.Sound) (hk : m.hasKeys = true) (hh : m.InsertsOne h)
    (hlen : (rows.getD r []).length = m.schema.fields.length) (heard : List AnsweredCall) (s : σ) :
    ∃ a : AnsweredCall, a.call = m.insertCall (rows.getD r []) ∧
      match m.insertReply h (m.boundValues m.insertBound (rows.getD r [])) s with
      | (.error e, s') =>
        LeadsTo h.listening (m.insert r) rows (heard, s) (.error e) rows (heard ++ [a], s')
      | (.ok reply, s') =>
        LeadsTo h.listening (m.insert r) rows (heard, s)
          ((becoming m.afterInsert [(r, reply)] rows).1.map fun _ => isDone reply)
          (becoming m.afterInsert [(r, reply)] rows).2 (heard ++ [a], s') := by
  obtain ⟨a, hcall, hask⟩ := m.leads_askInsert h (rows.getD r []) rows heard s
  have hcount := hh (m.boundValues m.insertBound (rows.getD r [])) s
  refine ⟨a, hcall, ?_⟩
  rw [insert_eq hk]
  revert hask hcount
  obtain ⟨out, s'⟩ := m.insertReply h (m.boundValues m.insertBound (rows.getD r [])) s
  intro hask hcount
  cases out with
  | error e => exact (leads_values hlen).bind hask.bind_error
  | ok reply =>
    exact (leads_values hlen).bind (hask.bind (leads_settleInsert hs hlen (hcount _ _ rfl)))

theorem insertReplies_cons_error {values : List Value} {rest : List (List Value)}
    (hreply : m.insertReply h values s = (.error e, s')) :
    m.insertReplies h (values :: rest) s = (.error e, s') := by
  simp only [insertReplies, hreply]

/-- What follows the reply to the first insert. -/
theorem insertReplies_cons_ok {values : List Value} {rest : List (List Value)} {s₁ : σ}
    {out : Except Failure (List (Int × Value))}
    (hreply : m.insertReply h values s = (.ok reply, s'))
    (hout : m.insertReplies h (values :: rest) s = (out, s₁)) :
    ∃ out', m.insertReplies h rest s' = (out', s₁) ∧ out = out'.map (reply :: ·) := by
  simp only [insertReplies, hreply] at hout
  obtain ⟨rfl, rfl⟩ := Prod.mk.inj hout
  exact ⟨_, rfl, rfl⟩

/-- There is one reply for each insert, and each has affected one row or none. -/
theorem of_insertReplies (hh : m.InsertsOne h) {batch : List (List Value)}
    {replies : List (Int × Value)} (hreplies : m.insertReplies h batch s = (.ok replies, s')) :
    replies.length = batch.length ∧ ∀ reply ∈ replies, reply.1 = 0 ∨ reply.1 = 1 := by
  induction batch generalizing s replies with
  | nil =>
    cases hreplies
    exact ⟨rfl, nofun⟩
  | cons values batch ih =>
    obtain ⟨⟨out, s₁⟩, hreply⟩ : ∃ out, m.insertReply h values s = out := ⟨_, rfl⟩
    cases out with
    | error e =>
      rw [insertReplies_cons_error hreply] at hreplies
      cases hreplies
    | ok reply =>
      obtain ⟨out, hrest, hmap⟩ := insertReplies_cons_ok hreply hreplies
      obtain ⟨rest, rfl, rfl⟩ := ValueType.map_eq_ok hmap.symm
      obtain ⟨hlength, hcounts⟩ := ih hrest
      have hcount := hh values s reply.1 reply.2 (congrArg Prod.fst hreply)
      exact ⟨congrArg (· + 1) hlength, List.forall_mem_cons.mpr ⟨hcount, hcounts⟩⟩

/-- What the rows bind, one after the other. -/
abbrev batchOf (m : Mapping) (rs : List RowRef) (rows : List Row) : List (List Value) :=
  rs.map fun r => m.boundValues m.insertBound (rows.getD r [])

/-- The calls of their inserts. -/
abbrev callsOf (m : Mapping) (rs : List RowRef) (rows : List Row) : List Call :=
  rs.map fun r => m.insertCall (rows.getD r [])

/-- What inserts one after the other lead to. They stop where the handle fails, or where a key
cannot be brought into its native form. -/
structure InsertsLead (m : Mapping) (h : Handle σ) (rs : List RowRef) (rows : List Row)
    (heard : List AnsweredCall) (s : σ) (more : List AnsweredCall) : Prop where
  calls : more.map (·.call) <+: m.callsOf rs rows
  refused : ∀ e s', m.insertReplies h (m.batchOf rs rows) s = (.error e, s') → ∃ e rows' s',
    LeadsTo h.listening (rs.mapM m.insert) rows (heard, s) (.error e) rows' (heard ++ more, s')
  failed : ∀ replies s' e rows', m.insertReplies h (m.batchOf rs rows) s = (.ok replies, s') →
    becoming m.afterInsert (rs.zip replies) rows = (.error e, rows') → ∃ s₁,
    LeadsTo h.listening (rs.mapM m.insert) rows (heard, s) (.error e) rows' (heard ++ more, s₁)
  done : ∀ replies s' rows', m.insertReplies h (m.batchOf rs rows) s = (.ok replies, s') →
    becoming m.afterInsert (rs.zip replies) rows = (.ok (), rows') →
    more.map (·.call) = m.callsOf rs rows ∧
    LeadsTo h.listening (rs.mapM m.insert) rows (heard, s) (.ok (replies.map isDone)) rows'
      (heard ++ more, s')

/-- The insert of the first row has failed. -/
theorem InsertsLead.of_failed {a : AnsweredCall} (hcall : a.call = m.insertCall (rows.getD r []))
    (hlead : LeadsTo h.listening (m.insert r) rows (heard, s) (.error e) rows (heard ++ [a], s'))
    (hfail : (∃ s', m.insertReply h (m.boundValues m.insertBound (rows.getD r [])) s =
        (.error e, s')) ∨
      ∃ reply s', m.insertReply h (m.boundValues m.insertBound (rows.getD r [])) s =
        (.ok reply, s') ∧ m.afterInsert reply (rows.getD r []) = .error e) :
    m.InsertsLead h (r :: rs) rows heard s [a] := by
  have hlead : LeadsTo h.listening ((r :: rs).mapM m.insert) rows (heard, s) (.error e) rows
      (heard ++ [a], s') := hlead.mapM_cons_error rs
  have hout : ∀ replies s', m.insertReplies h (m.batchOf (r :: rs) rows) s = (.ok replies, s') →
      becoming m.afterInsert ((r :: rs).zip replies) rows = (.error e, rows) := by
    intro replies s₂ hreplies
    obtain ⟨s₁, hreply⟩ | ⟨reply, s₁, hreply, hafter⟩ := hfail
    · rw [batchOf, List.map_cons, insertReplies_cons_error hreply] at hreplies
      cases hreplies
    · obtain ⟨out, -, hmap⟩ := insertReplies_cons_ok hreply hreplies
      obtain ⟨rest, -, rfl⟩ := ValueType.map_eq_ok hmap.symm
      simp only [List.zip_cons_cons, becoming, hafter]
  refine ⟨?_, fun _ _ _ => ⟨e, rows, s', hlead⟩, fun replies s₂ e' rows' hr hb => ?_,
    fun replies s₂ rows' hr hb => ?_⟩
  · rw [List.map_singleton, hcall]
    exact ⟨_, rfl⟩
  · rw [hout replies s₂ hr] at hb
    cases hb
    exact ⟨s', hlead⟩
  · rw [hout replies s₂ hr] at hb
    cases hb

/-- The first row was inserted, and the others follow. -/
theorem InsertsLead.cons {a : AnsweredCall} (hr : r ∉ rs)
    (hcall : a.call = m.insertCall (rows.getD r []))
    (hreply : m.insertReply h (m.boundValues m.insertBound (rows.getD r [])) s = (.ok reply, s'))
    (hafter : m.afterInsert reply (rows.getD r []) = .ok row)
    (hlead : LeadsTo h.listening (m.insert r) rows (heard, s) (.ok (isDone reply))
      (rows.set r row) (heard ++ [a], s'))
    (hrest : m.InsertsLead h rs (rows.set r row) (heard ++ [a]) s' more) :
    m.InsertsLead h (r :: rs) rows heard s (a :: more) := by
  have hsame : ∀ o ∈ rs, (rows.set r row).getD o [] = rows.getD o [] := fun o ho =>
    getD_set_of_ne rows (ne_of_mem_of_not_mem ho hr) row []
  have hcalls : m.callsOf rs (rows.set r row) = m.callsOf rs rows :=
    List.map_congr_left fun o ho => by rw [hsame o ho]
  have hbatch : m.batchOf rs (rows.set r row) = m.batchOf rs rows :=
    List.map_congr_left fun o ho => by rw [hsame o ho]
  have hreplies : ∀ out s₁, m.insertReplies h (m.batchOf (r :: rs) rows) s = (out, s₁) →
      ∃ out', m.insertReplies h (m.batchOf rs (rows.set r row)) s' = (out', s₁) ∧
        out = out'.map (reply :: ·) := by
    rw [hbatch]
    exact fun _ _ => insertReplies_cons_ok hreply
  have hout : ∀ replies, becoming m.afterInsert ((r :: rs).zip (reply :: replies)) rows =
      becoming m.afterInsert (rs.zip replies) (rows.set r row) := fun replies => by
    simp only [List.zip_cons_cons, becoming, hafter]
  have hmore : heard ++ a :: more = heard ++ [a] ++ more := List.append_cons ..
  refine ⟨?_, fun e s₂ hfirst => ?_, fun replies s₂ e rows' hfirst hb => ?_,
    fun replies s₂ rows' hfirst hb => ?_⟩
  · have hprefix := hrest.calls
    rw [hcalls] at hprefix
    rw [List.map_cons, hcall]
    exact (List.prefix_cons_inj _).mpr hprefix
  · obtain ⟨out, hreplied, hmap⟩ := hreplies _ _ hfirst
    cases out with
    | ok replies => cases hmap
    | error e' =>
      obtain ⟨e, rows', s₁, hfail⟩ := hrest.refused e' _ hreplied
      exact ⟨e, rows', s₁, hmore ▸ hlead.mapM_cons hfail⟩
  · obtain ⟨out, hreplied, hmap⟩ := hreplies _ _ hfirst
    obtain ⟨rest, rfl, rfl⟩ := ValueType.map_eq_ok hmap.symm
    obtain ⟨s₁, hfail⟩ := hrest.failed rest _ e rows' hreplied ((hout rest).symm.trans hb)
    exact ⟨s₁, hmore ▸ hlead.mapM_cons hfail⟩
  · obtain ⟨out, hreplied, hmap⟩ := hreplies _ _ hfirst
    obtain ⟨rest, rfl, rfl⟩ := ValueType.map_eq_ok hmap.symm
    obtain ⟨hall, hend⟩ := hrest.done rest _ rows' hreplied ((hout rest).symm.trans hb)
    rw [hcalls] at hall
    refine ⟨?_, hmore ▸ hlead.mapM_cons hend⟩
    rw [List.map_cons, hcall, hall]
    rfl

theorem insertsLead (hs : m.schema.Sound) (hk : m.hasKeys = true) (hh : m.InsertsOne h)
    (hrs : rs.Nodup) (hlen : ∀ r ∈ rs, (rows.getD r []).length = m.schema.fields.length)
    (heard : List AnsweredCall) (s : σ) : ∃ more, m.InsertsLead h rs rows heard s more := by
  induction rs generalizing rows heard s with
  | nil =>
    refine ⟨[], List.prefix_refl _, nofun, nofun, fun replies s' rows' hr hb => ?_⟩
    cases hr
    cases hb
    exact ⟨rfl, by rw [List.append_nil]; exact leads_pure⟩
  | cons r rs ih =>
    obtain ⟨hr, hrs⟩ := List.nodup_cons.mp hrs
    obtain ⟨hrlen, hlen⟩ := List.forall_mem_cons.mp hlen
    obtain ⟨a, hcall, hinsert⟩ := leads_insert hs hk hh hrlen heard s
    obtain ⟨⟨out, s₁⟩, hreply⟩ : ∃ out,
      m.insertReply h (m.boundValues m.insertBound (rows.getD r [])) s = out := ⟨_, rfl⟩
    rw [hreply] at hinsert
    cases out with
    | error e => exact ⟨[a], .of_failed hcall hinsert (.inl ⟨s₁, hreply⟩)⟩
    | ok reply =>
      simp only [becoming] at hinsert
      cases hafter : m.afterInsert reply (rows.getD r []) with
      | error e =>
        simp only [hafter] at hinsert
        exact ⟨[a], .of_failed hcall hinsert (.inr ⟨reply, s₁, hreply, hafter⟩)⟩
      | ok row =>
        simp only [hafter] at hinsert
        have hlater : ∀ o ∈ rs, ((rows.set r row).getD o []).length = m.schema.fields.length :=
          fun o ho => by rw [getD_set_of_ne rows (ne_of_mem_of_not_mem ho hr), hlen o ho]
        obtain ⟨more, hrest⟩ := ih hrs hlater (heard ++ [a]) s₁
        exact ⟨a :: more, hrest.cons hr hcall hreply hafter hinsert⟩

end

end Tablewright.Mapping
