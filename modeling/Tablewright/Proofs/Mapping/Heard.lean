import Tablewright.Proofs.Hearing
import Tablewright.Proofs.Mapping.Marshal

/-! What a handle hears of an operation on a row. An update is one call and an insert another;
a save is the update, and the insert after it where the update affected nothing. Each relation
says which calls are heard with which replies, what the operation says, and which values the
row has afterwards. -/

namespace Tablewright.Mapping

open Work

/-- The call by which a row is updated. -/
def updateCall (m : Mapping) (row : Row) : Call :=
  .write m.updateStatement.toText (m.boundValues m.updateBound row) (types m.updateBound)

/-- The call by which a row is inserted. -/
def insertCall (m : Mapping) (row : Row) : Call :=
  match m.schema.generatedKey with
  | none => .write m.insertStatement.toText (m.boundValues m.insertBound row) (types m.insertBound)
  | some g => .insertKey m.insertStatement.toText (m.boundValues m.insertBound row)
      (types m.insertBound) g.columnName

/-- What is heard of an update by a row, and whether it affected anything. -/
inductive UpdateHeard (m : Mapping) (row : Row) : List AnsweredCall → Bool → Prop
  | refused : m.canUpdate = false → m.UpdateHeard row [] false
  | sent (n : Int) : m.canUpdate = true →
      m.UpdateHeard row [⟨m.updateCall row, .ok n⟩] (decide (0 < n))

/-- What is heard of an insert of a row, the row with its key, and whether it was inserted. -/
inductive InsertHeard (m : Mapping) (row : Row) : List AnsweredCall → Row → Bool → Prop
  | refused : m.hasKeys = false → m.InsertHeard row [] row false
  | sent (n : Int) : m.hasKeys = true → m.schema.generatedKey = none →
      m.InsertHeard row [⟨.write m.insertStatement.toText (m.boundValues m.insertBound row)
        (types m.insertBound), .ok n⟩] row (decide (0 < n))
  | unkeyed (g : Field) (key : Value) : m.hasKeys = true → m.schema.generatedKey = some g →
      m.InsertHeard row [⟨.insertKey m.insertStatement.toText (m.boundValues m.insertBound row)
        (types m.insertBound) g.columnName, .ok ((0 : Int), key)⟩] row false
  | keyed (g : Field) (n : Int) (key : Value) (row' : Row) : m.hasKeys = true →
      m.schema.generatedKey = some g → n ≠ 0 → m.keyed key row = .ok row' →
      m.InsertHeard row [⟨.insertKey m.insertStatement.toText (m.boundValues m.insertBound row)
        (types m.insertBound) g.columnName, .ok (n, key)⟩] row' true

/-- What is heard of a save: the update, and the insert exactly when that affected nothing. -/
inductive SaveHeard (m : Mapping) (row : Row) : List AnsweredCall → Row → Bool → Prop
  | updated {calls : List AnsweredCall} : m.UpdateHeard row calls true →
      m.SaveHeard row calls row true
  | inserted {calls more : List AnsweredCall} {row' : Row} {done : Bool} :
      m.UpdateHeard row calls false → m.InsertHeard row more row' done →
      m.SaveHeard row (calls ++ more) row' done

/-- A handle that replies to every call, and whose generated keys can be brought into the native
form of the column that they are for. -/
structure AnsweredBy {σ : Type} (m : Mapping) (h : Handle σ) : Prop where
  replies : ∀ c s, ∃ reply, (h.answer c s).1.outcome = .ok reply
  keys : ∀ g, m.schema.generatedKey = some g → ∀ values s n key,
    (h.answer (.insertKey m.insertStatement.toText values (types m.insertBound) g.columnName)
      s).1.outcome = .ok (n, key) →
    isNoKey key = true ∨ ∃ v, g.valueType.fromDatabase key = .ok v

variable {m : Mapping} {row row' : Row} {calls : List AnsweredCall} {done : Bool}

theorem length_of_keyed {key : Value} (h : m.keyed key row = .ok row') :
    row'.length = row.length := by
  obtain ⟨rfl, -⟩ | ⟨g, v, -, -, rfl⟩ := keyed_cases h
  · rfl
  · exact List.length_set

theorem InsertHeard.length_eq (h : m.InsertHeard row calls row' done) :
    row'.length = row.length := by
  cases h with
  | refused | sent | unkeyed => rfl
  | keyed _ _ _ _ _ _ _ hkey => exact length_of_keyed hkey

theorem SaveHeard.length_eq (h : m.SaveHeard row calls row' done) : row'.length = row.length := by
  cases h with
  | updated => rfl
  | inserted _ hinsert => exact hinsert.length_eq

/-- Nothing else is heard of a save than the update and the insert of the row. -/
theorem SaveHeard.call_eq (h : m.SaveHeard row calls row' done) {e : AnsweredCall} (he : e ∈ calls) :
    e.call = m.updateCall row ∨ e.call = m.insertCall row := by
  have hupdate : ∀ {calls done}, m.UpdateHeard row calls done → ∀ e ∈ calls,
      e.call = m.updateCall row := by
    intro calls done h e he
    cases h with
    | refused => cases he
    | sent => rw [List.mem_singleton.mp he]
  have hinsert : ∀ {calls row' done}, m.InsertHeard row calls row' done → ∀ e ∈ calls,
      e.call = m.insertCall row := by
    intro calls row' done h e he
    cases h with
    | refused => cases he
    | sent _ _ hg | unkeyed _ _ _ hg | keyed _ _ _ _ _ hg =>
      rw [List.mem_singleton.mp he, insertCall, hg]
  cases h with
  | updated h => exact .inl (hupdate h e he)
  | inserted hu hi =>
    exact (List.mem_append.mp he).imp (hupdate hu e) (hinsert hi e)

section

variable {σ : Type} {h : Handle σ} {rows : List Row} {messages : List Message}
  {heard : List AnsweredCall} {r : RowRef} {E : Fact (List AnsweredCall × σ)}

theorem tells_refuse {operation : String} : Tells h (Heard rows messages heard) (m.refuse operation)
    (fun done w s => done = false ∧ Heard rows messages heard w s) :=
  tells_note.bind fun _ => ensures_pure fun _ _ hpre => ⟨rfl, hpre⟩

/-- A note that tells a row by its keys, after which an operation says that it was not done. -/
theorem tells_noteKeys {schema : RecordSchema} (hs : schema.Sound)
    (hlen : (rows.getD r []).length = schema.fields.length) {level : Log.Level}
    {source : Log.Source} {text : String → String} :
    Tells h (Heard rows messages heard)
      (do
        let keys ← lift (schema.emitKeys (← Work.row r))
        note level source (text keys)
        return false)
      (fun done w s => done = false ∧ Heard rows messages heard w s) := by
  obtain ⟨keys, hkeys⟩ := hs.emitKeys_of_length hlen
  refine tells_row.bind fun row => ensures_of fun hrow => ?_
  subst hrow
  refine (tells_lift hkeys).bind fun _ => ensures_of fun _ => ?_
  exact tells_note.bind fun _ => ensures_pure fun _ _ hpre => ⟨rfl, hpre⟩

/-- A row of the right length binds a value for each field. -/
theorem tells_values {fields : List Field}
    (hlen : (rows.getD r []).length = m.schema.fields.length) :
    Tells h (Heard rows messages heard) (do lift (m.bindRow fields (← Work.row r)))
      (fun values w s => values = m.boundValues fields (rows.getD r []) ∧
        Heard rows messages heard w s) := by
  refine tells_row.bind fun row => ensures_of fun hrow => ?_
  subst hrow
  exact tells_lift (if_pos hlen)

/-! Nothing has to be known of the handle, if nothing is said of the operations that fail. -/

theorem hears_update (hE : (∀ w s, E w s) ∨ m.AnsweredBy h)
    (hlen : (rows.getD r []).length = m.schema.fields.length) :
    Ensures h.listening (Heard rows messages heard) (m.update r)
      (fun done w s => ∃ calls, m.UpdateHeard (rows.getD r []) calls done ∧
        Heard rows messages (heard ++ calls) w s) E := by
  unfold update
  split
  · rename_i hc
    refine (tells_refuse.weaken ?_).ensures
    rintro done w s ⟨rfl, hpre⟩
    exact ⟨[], .refused (by simpa using hc), by rwa [List.append_nil]⟩
  · rename_i hc
    rw [← bind_assoc]
    refine (tells_values hlen).ensures.bind fun values => ensures_of fun hvalues => ?_
    subst hvalues
    refine (hears_ask (hE.imp_right fun hh => hh.replies _)).bind fun n => ensures_of fun _ =>
      ensures_pure ?_
    exact fun w s hpre => ⟨_, .sent n (by simpa using hc), hpre⟩

/-- A generated key comes back into the row. -/
theorem hears_assignKey {g : Field} (hs : m.schema.Sound) (hg : m.schema.generatedKey = some g)
    {key : Value} (hkey : (∀ w s, E w s) ∨ isNoKey key = true ∨
      ∃ v, g.valueType.fromDatabase key = .ok v)
    (hlen : (rows.getD r []).length = m.schema.fields.length) :
    Ensures h.listening (Heard rows messages heard) (m.assignKey r g key)
      (fun _ w s => ∃ row, m.keyed key (rows.getD r []) = .ok row ∧
        Heard (rows.set r row) messages heard w s) E := by
  unfold assignKey
  simp only [keyed, hg]
  split
  · refine (tells_note.weaken ?_).ensures
    exact fun _ w s hpre => ⟨_, rfl, by rwa [set_getD]⟩
  · rename_i hno
    have hindex : g.index < (rows.getD r []).length := by
      rw [hlen]
      exact hs.generated_lt hg
    refine (ensures_lift_of fun e he w s _ => ?_).bind fun v => ensures_of fun hv => ?_
    · refine hkey.elim (fun hE => hE w s) fun hkey => ?_
      obtain ⟨v, hv⟩ := hkey.resolve_left hno
      cases he.symm.trans hv
    · refine (tells_setAt hindex).ensures.bind fun _ => (tells_note.weaken ?_).ensures
      exact fun _ w s hpre => ⟨_, by rw [hv]; rfl, hpre⟩

theorem hears_insert (hs : m.schema.Sound) (hE : (∀ w s, E w s) ∨ m.AnsweredBy h)
    (hlen : (rows.getD r []).length = m.schema.fields.length) :
    Ensures h.listening (Heard rows messages heard) (m.insert r)
      (fun done w s => ∃ calls row, m.InsertHeard (rows.getD r []) calls row done ∧
        Heard (rows.set r row) messages (heard ++ calls) w s) E := by
  unfold insert
  split
  · rename_i hk
    refine (tells_refuse.weaken ?_).ensures
    rintro done w s ⟨rfl, hpre⟩
    exact ⟨[], _, .refused (by simpa using hk), by rwa [set_getD, List.append_nil]⟩
  · rename_i hk
    have hk : m.hasKeys = true := by simpa using hk
    dsimp only
    rw [← bind_assoc]
    refine (tells_values hlen).ensures.bind fun values => ensures_of fun hvalues => ?_
    subst hvalues
    split
    · rename_i hg
      refine (hears_ask (hE.imp_right fun hh => hh.replies _)).bind fun n => ensures_of fun _ =>
        ensures_pure ?_
      exact fun w s hpre => ⟨_, _, .sent n hk hg, by rwa [set_getD]⟩
    · rename_i g hg
      refine (hears_ask (hE.imp_right fun hh => hh.replies _)).bind fun reply =>
        ensures_of fun hreply => ?_
      obtain ⟨n, key⟩ := reply
      obtain ⟨s₀, hreply⟩ := hreply
      dsimp only
      split
      · rename_i hn
        subst hn
        exact ensures_pure fun w s hpre => ⟨_, _, .unkeyed g key hk hg, by rwa [set_getD]⟩
      · rename_i hn
        refine (hears_assignKey hs hg (hE.imp_right fun hh => hh.keys g hg _ s₀ n key hreply)
          hlen).bind fun _ => ensures_pure ?_
        rintro w s ⟨row, hrow, hpre⟩
        exact ⟨_, row, .keyed g n key row hk hg hn hrow, hpre⟩

theorem hears_save (hs : m.schema.Sound) (hE : (∀ w s, E w s) ∨ m.AnsweredBy h)
    (hlen : (rows.getD r []).length = m.schema.fields.length) :
    Ensures h.listening (Heard rows messages heard) (m.save r)
      (fun done w s => ∃ calls row, m.SaveHeard (rows.getD r []) calls row done ∧
        Heard (rows.set r row) messages (heard ++ calls) w s) E := by
  unfold save
  split
  · rename_i hk
    have hk : m.hasKeys = false := by simpa using hk
    refine (tells_refuse.weaken ?_).ensures
    rintro done w s ⟨rfl, hpre⟩
    have hc : m.canUpdate = false := by simp [canUpdate, hk]
    exact ⟨[], _, .inserted (.refused hc) (.refused hk), by rwa [set_getD, List.append_nil]⟩
  · split
    · refine (hears_update hE hlen).bind fun done => ensures_exists fun calls =>
        ensures_of fun hupdate => ?_
      cases done with
      | true => exact ensures_pure fun w s hpre => ⟨calls, _, .updated hupdate, by rwa [set_getD]⟩
      | false =>
        refine (hears_insert hs hE hlen).imp (fun _ _ => id) ?_ fun _ _ => id
        rintro done w s ⟨more, row, hinsert, hpre⟩
        exact ⟨_, row, .inserted hupdate hinsert, by rwa [← List.append_assoc]⟩
    · rename_i hc
      refine (hears_insert hs hE hlen).imp (fun _ _ => id) ?_ fun _ _ => id
      rintro done w s ⟨more, row, hinsert, hpre⟩
      exact ⟨_, row, .inserted (.refused (by simpa using hc)) hinsert, hpre⟩

/-! Against a handle that replies, no operation fails. -/

theorem tells_update (hh : m.AnsweredBy h)
    (hlen : (rows.getD r []).length = m.schema.fields.length) :
    Tells h (Heard rows messages heard) (m.update r)
      (fun done w s => ∃ calls, m.UpdateHeard (rows.getD r []) calls done ∧
        Heard rows messages (heard ++ calls) w s) := hears_update (.inr hh) hlen

theorem tells_insert (hs : m.schema.Sound) (hh : m.AnsweredBy h)
    (hlen : (rows.getD r []).length = m.schema.fields.length) :
    Tells h (Heard rows messages heard) (m.insert r)
      (fun done w s => ∃ calls row, m.InsertHeard (rows.getD r []) calls row done ∧
        Heard (rows.set r row) messages (heard ++ calls) w s) := hears_insert hs (.inr hh) hlen

theorem tells_save (hs : m.schema.Sound) (hh : m.AnsweredBy h)
    (hlen : (rows.getD r []).length = m.schema.fields.length) :
    Tells h (Heard rows messages heard) (m.save r)
      (fun done w s => ∃ calls row, m.SaveHeard (rows.getD r []) calls row done ∧
        Heard (rows.set r row) messages (heard ++ calls) w s) := hears_save hs (.inr hh) hlen

end

end Tablewright.Mapping
