import Tablewright.Proofs.Schema.ValueType
import Tablewright.Proofs.Store.Versions

/-! No update is lost. The stamp in a client's row comes from a stored row that the client has
found before. An update takes the stored row of the client's identity if it still carries this
stamp. Then nobody has written it since, for whatever is written gets a later stamp; and after
the update no row carries the stamp any more, so no second update takes it. -/

namespace Tablewright

open TableStore

namespace Mapping

variable {m : Mapping} {f : Field} {p : Supply} {s : TableStore} {stored y : StoredRow}
  {last ticks : Nat}

/-! ## Histories -/

/-- The turns of clients against a store that knows the statements of the mapping. -/
abbrev turns (m : Mapping) (u : Casing) (reads : String → Option Sql.Query)
    (calls : List ClientCall) (w : Workspace) (s : TableStore) : List Turn :=
  ClientCall.turns m (Dialect.reference m.statements u reads).handle calls w s

/-- An update that takes no row changes none, and uses up no stamp. -/
theorem unchanged_of_refused {u : Casing} {reads : String → Option Sql.Query}
    {calls : List ClientCall} {w : Workspace} {k : Nat} {e : Turn} {r : RowRef}
    (he : (m.turns u reads calls w s)[k]? = some e) (hcall : e.call = .update r)
    (hresult : e.result = .ok false) : (∀ name, e.left.table name = e.store.table name) ∧
      e.left.ticks = e.store.ticks ∧ e.left.issued = e.store.issued := by
  rcases updated_of_run hcall hresult (ClientCall.run_of_turn he).2 with ⟨hno, hleft⟩ | ⟨-, hleft⟩
  · have hzero := Nat.le_zero.mp (Nat.le_of_not_lt (of_decide_eq_false hno.symm))
    obtain ⟨htable, hticks⟩ := updated_of_zero hzero
    rw [hleft]
    exact ⟨htable, hticks, rfl⟩
  · rw [hleft]
    exact ⟨fun _ => rfl, rfl, rfl⟩

/-- How clients and a store begin. No row at hand carries a stamp, while every stored row
does, and the clients leave the identities and the stamps of their rows alone. -/
structure Begins (m : Mapping) (f : Field) (calls : List ClientCall) (w : Workspace)
    (s : TableStore) : Prop where
  edits : ∀ r place v, ClientCall.edit r place v ∈ calls → place ∉ places m.updateConditions
  unread : ∀ row ∈ w.rows, row.getD f.index .null = .null
  plain : ∀ row ∈ w.rows, m.PlainKeys row
  generated : ∀ n, (s.supply.key n).isPlain = true
  key : (s.table m.table).key = columns m.whereFields
  unique : (m.rowsIn s).Pairwise fun x y => ¬ m.KeyedAlike x y
  stamped : ∀ stored ∈ m.rowsIn s,
    Comparison.le.holds (stored.column f.columnName) (s.supply.stamp s.ticks) = true

/-- A row has nothing at a place, or what some row of the workspace has there. -/
theorem place_of_rows {q : Value → Prop} {w : Workspace} {place : Nat} (hnull : q .null)
    (hrows : ∀ row ∈ w.rows, q (row.getD place .null)) (r : RowRef) :
    q ((w.row r).getD place .null) := by
  have hrow : w.row r = w.rows[r]?.getD [] := List.getD_eq_getElem?_getD
  rw [hrow]
  cases hr : w.rows[r]? with
  | none => exact hnull
  | some row => exact hrows row (List.mem_of_getElem? hr)

/-- Such a beginning, and turns while the clock advances. -/
structure History (m : Mapping) (f : Field) (last : Nat) (u : Casing)
    (reads : String → Option Sql.Query) (calls : List ClientCall) (w : Workspace)
    (s : TableStore) : Prop where
  keyed : m.Keyed
  stamp : m.schema.timestampField? = some f
  type : f.valueType = .timestamp
  begins : m.Begins f calls w s
  clock : s.supply.Advances s.ticks last
  within : ∀ e ∈ m.turns u reads calls w s, e.left.ticks ≤ last

/-- A row is stored, as it is, from one turn to another. -/
def Stays (m : Mapping) (turns : List Turn) (stored : StoredRow) (i k : Nat) : Prop :=
  ∀ j d, i ≤ j → j ≤ k → turns[j]? = some d → stored ∈ m.rowsIn d.store

/-- A stored row of the same keys as another is the last one that a client has found before a
turn. -/
structure LastFound (m : Mapping) (turns : List Turn) (r : RowRef) (i k : Nat)
    (found stored : StoredRow) : Prop where
  before : i < k
  turn : ∃ d, turns[i]? = some d ∧ m.Finds d r found
  alike : found = stored ∨ m.KeyedAlike found stored
  last : ∀ j d x, i < j → j < k → turns[j]? = some d → m.Finds d r x →
    ¬ (x = stored ∨ m.KeyedAlike x stored)

theorem Begins.tracked {calls : List ClientCall} {w : Workspace} (hb : m.Begins f calls w s)
    (hp : s.supply.Advances s.ticks last) (hlast : s.ticks ≤ last) :
    m.Tracked f.columnName s.ticks s := by
  have hbounded : ∀ stored ∈ m.rowsIn s, stored.StampedBy s.supply f.columnName s.ticks :=
    fun stored hm => Value.moment?_of_le (hb.stamped stored hm) (hp.moment? le_rfl hlast)
  refine ⟨le_rfl, hb.key, hb.unique, hbounded, ?_⟩
  exact List.pairwise_of_forall_mem_list fun x hx _ _ _ => hbounded x hx

namespace History

variable {u : Casing} {reads : String → Option Sql.Query} {calls : List ClientCall}
  {w : Workspace} {i k : Nat} {d e : Turn} {r : RowRef}
  (h : m.History f last u reads calls w s)
include h

theorem effect (he : (m.turns u reads calls w s)[k]? = some e) : m.Effect e :=
  effect_of_run h.keyed.keys (ClientCall.run_of_turn he).2

theorem reaches_start (he : (m.turns u reads calls w s)[k]? = some e) : m.Reaches s e.store :=
  ClientCall.turn_induction (P := fun _ _ t => m.Reaches s t) .refl
    (fun _ _ he hr => hr.trans (h.effect he).reaches) k e he

/-- What a turn has left comes to every later turn through the statements between them. -/
theorem reaches_later (hd : (m.turns u reads calls w s)[i]? = some d) (hik : i < k)
    (he : (m.turns u reads calls w s)[k]? = some e) : m.Reaches d.left e.store := by
  refine ClientCall.turn_induction (P := fun k _ t => i < k → m.Reaches d.left t) ?_ ?_ k e he hik
  · exact fun hlt => absurd hlt (Nat.not_lt_zero i)
  · intro k e he hr hlt
    rcases Nat.lt_succ_iff_lt_or_eq.mp hlt with hlt | rfl
    · exact (hr hlt).trans (h.effect he).reaches
    · obtain rfl := Option.some.inj (hd.symm.trans he)
      exact .refl

theorem reaches_between (hd : (m.turns u reads calls w s)[i]? = some d) (hik : i ≤ k)
    (he : (m.turns u reads calls w s)[k]? = some e) : m.Reaches d.store e.store := by
  rcases Nat.lt_or_eq_of_le hik with hlt | rfl
  · exact (h.effect hd).reaches.trans (h.reaches_later hd hlt he)
  · obtain rfl := Option.some.inj (hd.symm.trans he)
    exact .refl

theorem left_le (he : (m.turns u reads calls w s)[k]? = some e) : e.left.ticks ≤ last :=
  h.within e (List.mem_of_getElem? he)

theorem ticks_le (he : (m.turns u reads calls w s)[k]? = some e) : e.store.ticks ≤ last :=
  (h.effect he).reaches.ticks_le.2.trans (h.left_le he)

theorem tracked (he : (m.turns u reads calls w s)[k]? = some e) :
    m.Tracked f.columnName s.ticks e.store ∧ m.Follows f.columnName s e.store := by
  have hreaches := h.reaches_start he
  have hlast := hreaches.ticks_le.2.trans (h.ticks_le he)
  exact h.keyed.tracked_of_reaches h.stamp h.clock (h.begins.tracked h.clock hlast) hreaches
    (h.ticks_le he)

theorem supply_eq (he : (m.turns u reads calls w s)[k]? = some e) : e.store.supply = s.supply :=
  (h.tracked he).2.supply

/-- A row that is stored with an old stamp was stored in all turns since the tick of it. -/
theorem stays (he : (m.turns u reads calls w s)[k]? = some e) (hm : stored ∈ m.rowsIn e.store)
    (hstart : s.ticks ≤ ticks) (hby : stored.StampedBy s.supply f.columnName ticks)
    (hsince : ∀ j d, i ≤ j → (m.turns u reads calls w s)[j]? = some d → ticks ≤ d.store.ticks) :
    m.Stays (m.turns u reads calls w s) stored i k := by
  intro j d hij hjk hd
  have hp : d.store.supply.Advances s.ticks last := h.supply_eq hd ▸ h.clock
  have hfollows := (h.keyed.tracked_of_reaches h.stamp hp (h.tracked hd).1
    (h.reaches_between hd hjk he) (h.ticks_le he)).2
  refine hfollows.old stored hm ?_
  rw [h.supply_eq hd]
  exact hby.mono h.clock hstart (hsince j d hij hd) (h.ticks_le hd)

theorem stored_stamp (he : (m.turns u reads calls w s)[k]? = some e)
    (hm : stored ∈ m.rowsIn e.store) : stored.StampedBy s.supply f.columnName e.store.ticks :=
  h.supply_eq he ▸ (h.tracked he).1.stamped.bounded stored hm

theorem origin (he : (m.turns u reads calls w s)[k]? = some e) {place : Nat}
    (hplace : place ∈ places m.updateConditions) (r : RowRef) :
    m.Origin e r place ((e.after.row r).getD place .null) := by
  refine (h.effect he).origin (fun o v hcall => ?_) r
  exact h.begins.edits o place v (hcall ▸ List.mem_of_getElem? (ClientCall.run_of_turn he).1) hplace

theorem mem_updateConditions : f ∈ m.updateConditions := by
  rw [updateConditions, h.stamp]
  simp

theorem mem_fields {g : Field} (hg : g ∈ m.updateConditions) : g ∈ m.schema.fields :=
  columns_subset (updateConditions_columns h.keyed.sound) g hg

/-- What a read makes of a stored stamp is the stamp. -/
theorem extract_stamp (hby : stored.StampedBy p f.columnName ticks) {v : Value}
    (hv : m.extract f.valueType (stored.column f.columnName) = .ok v) :
    v = stored.column f.columnName := by
  obtain ⟨z, hz, -⟩ := hby
  obtain ⟨t, ht, -⟩ := Value.moment?_eq_some hz
  rw [ht, h.type] at hv
  rw [ht]
  exact (Except.ok.inj hv).symm

/-- The stamp in the row of a client is that of a stored row that the client has found. -/
theorem recalled (he : (m.turns u reads calls w s)[k]? = some e) (r : RowRef) :
    (e.before.row r).getD f.index .null = .null ∨
      ∃ j d found, j < k ∧ (m.turns u reads calls w s)[j]? = some d ∧ m.Finds d r found ∧
        (e.before.row r).getD f.index .null = found.column f.columnName := by
  revert r
  refine ClientCall.turn_induction (P := fun k w' _ => ∀ r, (w'.row r).getD f.index .null = .null ∨
    ∃ j d found, j < k ∧ (m.turns u reads calls w s)[j]? = some d ∧ m.Finds d r found ∧
      (w'.row r).getD f.index .null = found.column f.columnName) ?_ ?_ k e he
  · intro r
    exact .inl (place_of_rows (q := (· = .null)) rfl h.begins.unread r)
  · intro k e he ih r
    have horigin := h.origin he (List.mem_map_of_mem h.mem_updateConditions) r
    generalize (e.after.row r).getD f.index .null = v at horigin ⊢
    cases horigin with
    | kept =>
      rcases ih r with hnull | ⟨j, d, found, hj, hd⟩
      · exact .inl hnull
      · exact .inr ⟨j, d, found, by omega, hd⟩
    | @read found g v hfinds hg hi hv =>
      have hgf := h.keyed.sound.eq_of_index (List.mem_filter.mp hg).1
        (h.mem_fields h.mem_updateConditions) hi
      subst hgf
      exact .inr ⟨k, e, found, Nat.lt_succ_self k, he, hfinds,
        h.extract_stamp (h.stored_stamp he hfinds.mem.1) hv⟩
    | generated hg hi =>
      obtain ⟨hcolumn, hrole⟩ := h.keyed.sound.generated_mem hg
      have hgf := h.keyed.sound.eq_of_index (List.mem_filter.mp hcolumn).1
        (h.mem_fields h.mem_updateConditions) hi
      rw [hgf, (h.keyed.sound.timestamp_mem h.stamp).2] at hrole
      cases hrole

/-- The values that the row of a client is found by never hold others. -/
theorem plain (he : (m.turns u reads calls w s)[k]? = some e) (r : RowRef) :
    m.PlainKeys (e.before.row r) := by
  revert r
  refine ClientCall.turn_induction (P := fun _ w' _ => ∀ r, m.PlainKeys (w'.row r)) ?_ ?_ k e he
  · intro r g hg
    exact place_of_rows (q := (·.isPlain = true)) rfl (fun row hm => h.begins.plain row hm g hg) r
  · intro k e he ih r g hg
    have hcondition : g ∈ m.updateConditions := List.mem_append_left _ hg
    have horigin := h.origin he (List.mem_map_of_mem hcondition) r
    generalize (e.after.row r).getD g.index .null = v at horigin ⊢
    cases horigin with
    | kept => exact ih r g hg
    | @read found g' v hfinds hg' hi hv =>
      have hgg := h.keyed.sound.eq_of_index (List.mem_filter.mp hg').1
        (h.mem_fields hcondition) hi
      subst hgg
      obtain ⟨x, hx, rfl⟩ := ValueType.map_eq_ok hv
      refine m.isPlain_fill _ (ValueType.isPlain_fromDatabase hx ?_)
      exact Value.isPlain_of_same (m.isPlain_fill _ (ih r g' hg)) (same_of_identity hfinds.mem.2 hg)
    | generated hg hi hv =>
      refine ValueType.isPlain_fromDatabase hv ?_
      exact h.supply_eq he ▸ h.begins.generated _

/-! ## What updates take -/

theorem recalls (he : (m.turns u reads calls w s)[k]? = some e) (r : RowRef) :
    Recalls f e.store.supply e.store.ticks (e.before.row r) := by
  rcases h.recalled he r with hnull | ⟨j, d, found, hj, hd, hfinds, hstamp⟩
  · exact .inl hnull
  · obtain ⟨z, hz, hle⟩ := (h.stored_stamp hd hfinds.mem.1).mono h.clock
      (h.reaches_start hd).ticks_le.2 (h.reaches_between hd hj.le he).ticks_le.2 (h.ticks_le he)
    exact .inr ⟨z, hstamp ▸ hz, h.supply_eq he ▸ hle⟩

/-- A successful update took a stored row for each row that it was called with, no two the
same, and left none of them as it was. -/
theorem taken (he : (m.turns u reads calls w s)[k]? = some e) (hdone : e.result = .ok true) :
    ∃ taken, List.Forall₂ (fun r stored => stored.agrees (m.version (e.before.row r)) = true)
        e.call.updates taken ∧ taken.Nodup ∧
      ∀ stored ∈ taken, (stored ∈ m.rowsIn e.store ∧
        stored.StampedBy s.supply f.columnName e.store.ticks) ∧ stored ∉ m.rowsIn e.left := by
  have hp : e.store.supply.Advances s.ticks last := h.supply_eq he ▸ h.clock
  have hrun := (ClientCall.run_of_turn he).2
  have hbatch : ∀ rs : List RowRef,
      (m.updatedAll (rs.map e.before.row) e.store).1 = rs.length →
      e.left = (m.updatedAll (rs.map e.before.row) e.store).2 →
      ∃ taken, List.Forall₂ (fun r stored => stored.agrees (m.version (e.before.row r)) = true)
          rs taken ∧ taken.Nodup ∧
        ∀ stored ∈ taken, (stored ∈ m.rowsIn e.store ∧
          stored.StampedBy s.supply f.columnName e.store.ticks) ∧ stored ∉ m.rowsIn e.left := by
    intro rs hall hleft
    have hrecalls : ∀ row ∈ rs.map e.before.row, Recalls f e.store.supply e.store.ticks row :=
      List.forall_mem_map.mpr fun r _ => h.recalls he r
    have hplain : ∀ row ∈ rs.map e.before.row, m.PlainKeys row :=
      List.forall_mem_map.mpr fun r _ => h.plain he r
    obtain ⟨taken, htaken, hnodup, hold⟩ := h.keyed.taken_of_updatedAll h.stamp h.type hp
      (h.tracked he).1 (h.reaches_start he).ticks_le.2 le_rfl hrecalls hplain
      (hleft ▸ h.left_le he) (by rw [hall, List.length_map])
    rw [h.supply_eq he, ← hleft] at hold
    exact ⟨taken, List.forall₂_map_left_iff.mp htaken, hnodup, hold⟩
  cases hcall : e.call with
  | update r =>
    rcases updated_of_run hcall hdone hrun with ⟨htook, hleft⟩ | ⟨hno, -⟩
    · -- The single update is a batch of one.
      have hone := (h.tracked he).1.updated_le_one (h.plain he r)
      have htook := of_decide_eq_true htook.symm
      refine hbatch [r] ?_ hleft
      show (m.updated (e.before.row r) e.store).1 + 0 = 1
      omega
    · cases hno
  | updateAll rs =>
    obtain ⟨hall, hleft⟩ := updatedAll_of_run hcall hdone hrun
    exact hbatch rs hall hleft
  | edit | read | insert | delete => exact ⟨[], .nil, .nil, by simp⟩

/-- The row that an update takes, at the position of the client's row. -/
theorem position_of_updates (he : (m.turns u reads calls w s)[k]? = some e)
    (hu : m.Updates e r y) {taken : List StoredRow}
    (htaken : List.Forall₂ (fun r stored => stored.agrees (m.version (e.before.row r)) = true)
      e.call.updates taken) (hold : ∀ stored ∈ taken, stored ∈ m.rowsIn e.store) :
    ∃ n : Nat, e.call.updates[n]? = some r ∧ taken[n]? = some y := by
  obtain ⟨n, hn, hr⟩ := List.getElem_of_mem hu.call
  have hn' : n < taken.length := htaken.length_eq ▸ hn
  have hagrees := htaken.get hn hn'
  rw [List.get_eq_getElem, List.get_eq_getElem, hr] at hagrees
  have halike := keyedAlike_of_identity (h.plain he r) (agrees_of_version hagrees)
    (agrees_of_version hu.version)
  have heq := (h.tracked he).1.eq_of_key (hold _ (List.getElem_mem hn')) hu.mem halike
  exact ⟨n, by rw [List.getElem?_eq_getElem hn, hr], by rw [List.getElem?_eq_getElem hn', heq]⟩

theorem updates_gone (he : (m.turns u reads calls w s)[k]? = some e) (hu : m.Updates e r y) :
    y ∉ m.rowsIn e.left := by
  obtain ⟨taken, htaken, -, hold⟩ := h.taken he hu.done
  obtain ⟨n, -, hn⟩ := h.position_of_updates he hu htaken fun stored hm => (hold stored hm).1.1
  exact (hold y (List.mem_of_getElem? hn)).2

/-- A row that was taken is not stored any more when a later turn begins. -/
theorem notMem_later (hd : (m.turns u reads calls w s)[i]? = some d) (hu : m.Updates d r y)
    (hik : i < k) (he : (m.turns u reads calls w s)[k]? = some e) : y ∉ m.rowsIn e.store := by
  intro hm
  have hp : d.store.supply.Advances s.ticks last := h.supply_eq hd ▸ h.clock
  have hreaches := (h.effect hd).reaches
  obtain ⟨htracked, hfollows⟩ := h.keyed.tracked_of_reaches h.stamp hp (h.tracked hd).1 hreaches
    (h.left_le hd)
  have hlater := (h.keyed.tracked_of_reaches h.stamp (hfollows.supply ▸ hp) htracked
    (h.reaches_later hd hik he) (h.ticks_le he)).2
  refine h.updates_gone hd hu (hlater.old y hm ?_)
  rw [hfollows.supply, h.supply_eq hd]
  exact (h.stored_stamp hd hu.mem).mono h.clock (h.reaches_start hd).ticks_le.2 hfollows.ticks
    (h.left_le hd)

/-- A stored row is taken by one update and by one client. -/
theorem once {i : Nat} {o : RowRef} (hd : (m.turns u reads calls w s)[i]? = some d)
    (hud : m.Updates d o y) (he : (m.turns u reads calls w s)[k]? = some e)
    (hue : m.Updates e r y) : i = k ∧ o = r := by
  rcases Nat.lt_trichotomy i k with hlt | rfl | hlt
  · exact absurd hue.mem (h.notMem_later hd hud hlt he)
  · obtain rfl := Option.some.inj (hd.symm.trans he)
    obtain ⟨taken, htaken, hnodup, hold⟩ := h.taken hd hud.done
    have hmem : ∀ stored ∈ taken, stored ∈ m.rowsIn d.store := fun stored hm => (hold stored hm).1.1
    obtain ⟨n, hno, hny⟩ := h.position_of_updates hd hud htaken hmem
    obtain ⟨n', hnr, hny'⟩ := h.position_of_updates hd hue htaken hmem
    have hlen := (List.getElem?_eq_some_iff.mp hny).1
    obtain rfl := (List.getElem?_inj hlen hnodup).mp (hny.trans hny'.symm)
    exact ⟨rfl, Option.some.inj (hno.symm.trans hnr)⟩
  · exact absurd hud.mem (h.notMem_later he hue hlt hd)

/-- The client of an update has found a row with the stamp before. The row that is taken is
this one, and nobody has written it since, or it has been stored from the beginning on. -/
theorem found (he : (m.turns u reads calls w s)[k]? = some e) (hu : m.Updates e r y) :
    ∃ j d, j < k ∧ (m.turns u reads calls w s)[j]? = some d ∧
      ∃ x, m.Finds d r x ∧ (e.before.row r).getD f.index .null = x.column f.columnName ∧
        (x = y ∧ m.Stays (m.turns u reads calls w s) y j k ∨
          m.Stays (m.turns u reads calls w s) y 0 k) := by
  have hsame := same_of_version h.stamp h.type hu.version
  rcases h.recalled he r with hnull | ⟨j, d, x, hj, hd, hfinds, hstamp⟩
  · obtain ⟨z, hz, -⟩ := h.stored_stamp he hu.mem
    obtain ⟨t, hy, -⟩ := Value.moment?_eq_some hz
    rw [hnull, hy] at hsame
    cases hsame
  · obtain ⟨z, hz, hle⟩ := h.stored_stamp hd hfinds.mem.1
    have hyz := Value.moment?_of_same (hstamp ▸ hsame) hz
    have hstart := (h.reaches_start hd).ticks_le.2
    have hstays : m.Stays (m.turns u reads calls w s) y j k :=
      h.stays he hu.mem hstart ⟨z, hyz, hle⟩ fun i c hji hc => (h.reaches_between hd hji hc).ticks_le.2
    refine ⟨j, d, hj, hd, x, hfinds, hstamp, ?_⟩
    have hy := hstays j d le_rfl hj.le hd
    rcases (h.tracked hd).1.eq_of_moment hfinds.mem.1 hy (hz.trans hyz.symm) with heq | hfirst
    · exact .inl ⟨heq, hstays⟩
    · right
      obtain ⟨z', hz', hle'⟩ := hfirst
      obtain rfl := Option.some.inj (hz.symm.trans hz')
      refine h.stays he hu.mem le_rfl ⟨z, hyz, h.supply_eq hd ▸ hle'⟩ fun i c _ hc => ?_
      exact (h.reaches_start hc).ticks_le.2

/-- What the client found last under the keys of the row that its update takes is this row,
and nobody has written it since. -/
theorem unwritten (he : (m.turns u reads calls w s)[k]? = some e) (hu : m.Updates e r y)
    (hx : m.LastFound (m.turns u reads calls w s) r i k x y) :
    x = y ∧ m.Stays (m.turns u reads calls w s) y i k := by
  have hstays : m.Stays (m.turns u reads calls w s) y i k := by
    obtain ⟨j, d, hj, hd, z, hfinds, -, ⟨rfl, hstays⟩ | hstays⟩ := h.found he hu
    · have hji : j ≤ i := by
        by_contra hlt
        exact hx.last j d z (Nat.lt_of_not_le hlt) hj hd hfinds (.inl rfl)
      exact fun n c hin => hstays n c (hji.trans hin)
    · exact fun n c _ => hstays n c (Nat.zero_le n)
  refine ⟨?_, hstays⟩
  obtain ⟨d, hd, hfinds⟩ := hx.turn
  rcases hx.alike with heq | halike
  · exact heq
  · exact (h.tracked hd).1.eq_of_key hfinds.mem.1 (hstays i d le_rfl hx.before.le hd) halike

end History

/-- No update is lost. An update that succeeds takes a stored row for each row that it is
called with. Its client has found a row with the same stamp before; the last row that it has
found under these keys is the one that is taken, and nobody has written it since. No stored row
is taken twice, so of several clients that have found the same row one succeeds at the most. An
update that does not succeed leaves the store as it was. -/
theorem updates_unwritten (hs : m.schema.Valid) (hk : m.hasKeys = true)
    (hn : (columns m.selectFields).Nodup) (hf : m.schema.timestampField? = some f)
    (ht : f.valueType = .timestamp) (u : Casing) (reads : String → Option Sql.Query)
    {calls : List ClientCall} {w : Workspace} (hb : m.Begins f calls w s)
    (hp : s.supply.Advances s.ticks last)
    (hlast : ∀ e ∈ m.turns u reads calls w s, e.left.ticks ≤ last) :
    ∀ k e, (m.turns u reads calls w s)[k]? = some e →
      (e.result = .ok true → ∀ r ∈ e.call.updates, ∃ stored, m.Updates e r stored) ∧
      (∀ r stored, m.Updates e r stored →
        (∃ j d, j < k ∧ (m.turns u reads calls w s)[j]? = some d ∧ ∃ found, m.Finds d r found ∧
          (e.before.row r).getD f.index .null = found.column f.columnName ∧
          (found = stored ∧ m.Stays (m.turns u reads calls w s) stored j k ∨
            m.Stays (m.turns u reads calls w s) stored 0 k)) ∧
        (∀ j found, m.LastFound (m.turns u reads calls w s) r j k found stored →
          found = stored ∧ m.Stays (m.turns u reads calls w s) stored j k) ∧
        (∀ i d o, (m.turns u reads calls w s)[i]? = some d → m.Updates d o stored →
          i = k ∧ o = r) ∧
        ∀ i d o other found j j', (m.turns u reads calls w s)[i]? = some d →
          m.Updates d o other → m.LastFound (m.turns u reads calls w s) o j i found other →
          m.LastFound (m.turns u reads calls w s) r j' k found stored → i = k ∧ o = r) ∧
      ∀ r, e.call = .update r → e.result = .ok false →
        (∀ name, e.left.table name = e.store.table name) ∧ e.left.ticks = e.store.ticks ∧
          e.left.issued = e.store.issued := by
  have h : m.History f last u reads calls w s := ⟨⟨hs.sound, hk, hn⟩, hf, ht, hb, hp, hlast⟩
  intro k e he
  refine ⟨fun hdone r hr => ?_, fun r stored hu => ⟨h.found he hu, ?_, ?_, ?_⟩, ?_⟩
  · obtain ⟨taken, htaken, -, hold⟩ := h.taken he hdone
    obtain ⟨n, hn, rfl⟩ := List.getElem_of_mem hr
    have hn' : n < taken.length := htaken.length_eq ▸ hn
    exact ⟨taken[n], hr, hdone, (hold _ (List.getElem_mem hn')).1.1, htaken.get hn hn'⟩
  · exact fun j found hfound => h.unwritten he hu hfound
  · exact fun i d o hd hud => h.once hd hud he hu
  · intro i d o other found j j' hd hud hother hfound
    obtain rfl := (h.unwritten hd hud hother).1
    obtain rfl := (h.unwritten he hu hfound).1
    exact h.once hd hud he hu
  · exact fun r hcall hresult => unchanged_of_refused he hcall hresult

/-! ## Vouchers that two clients change -/

/-- The time at which a voucher was made is kept as a number. -/
def voucherDeclaration : RecordDeclaration where
  name := "voucher"
  nameInDb := some "voucher"
  useTimestampCheck := true
  operations := []
  fields := [
    RecordSchema.invoiceColumn "number" "number" .integer .primaryKey,
    RecordSchema.invoiceColumn "modifiedAt" "modified_at" .timestamp .modifiedAt,
    RecordSchema.invoiceColumn "createdAt" "created_at" .integer .createdAt,
    RecordSchema.invoiceColumn "total" "total" .integer .requiredData]

def vouchers : Mapping := ⟨RecordSchema.declared voucherDeclaration, false, "CURRENT_TIMESTAMP"⟩

def voucherStore : TableStore where
  tables := [("voucher", {
    key := ["number"]
    rows := [[("number", .int 1), ("modified_at", Supply.standard.stamp 0), ("total", .int 5)]] })]

/-- Two clients, each with a row for the same voucher. -/
def voucherDesk : Workspace where
  rows := [[.int 1, .null, .null, .null], [.int 1, .null, .null, .int 6]]

theorem vouchers_valid : vouchers.schema.Valid := RecordSchema.valid_declared (by decide +kernel)

theorem vouchers_keyed : vouchers.Keyed :=
  ⟨vouchers_valid.sound, by decide +kernel, by decide +kernel⟩

theorem standard_advances : Supply.standard.Advances 0 9 := by
  refine ⟨fun n _ _ => ⟨_, rfl⟩, fun a b _ hab hb => ?_⟩
  have hlater : ∀ b < 10, ∀ a < b,
      Comparison.lt.holds (Supply.standard.stamp a) (Supply.standard.stamp b) = true := by
    decide +kernel
  exact hlater b (by omega) a hab

/-- The clients and the store begin as they have to. -/
theorem vouchers_begin {calls : List ClientCall}
    (hcalls : ∀ r place v, ClientCall.edit r place v ∉ calls) :
    ∃ f, vouchers.schema.timestampField? = some f ∧ f.valueType = .timestamp ∧
      vouchers.Begins f calls voucherDesk voucherStore := by
  obtain ⟨f, hf⟩ : ∃ f, vouchers.schema.timestampField? = some f :=
    Option.isSome_iff_exists.mp (by decide +kernel)
  have hfield : vouchers.schema.timestampField?.map
      (fun f => (f.index, f.columnName, f.valueType)) = some (1, "modified_at", .timestamp) := by
    decide +kernel
  rw [hf] at hfield
  obtain ⟨hindex, hcolumn, htype⟩ : f.index = 1 ∧ f.columnName = "modified_at" ∧
      f.valueType = .timestamp := by simpa using hfield
  refine ⟨f, hf, htype, fun r place v hm => absurd hm (hcalls r place v), ?_, ?_, fun _ => rfl,
    by decide +kernel, List.pairwise_singleton _ _, ?_⟩
  · rw [hindex]
    simp [voucherDesk]
  · decide +kernel
  · rw [hcolumn]
    decide +kernel

/-- While the first client has the voucher, the second one makes a new one of the same number.
The first cannot read all of it, as it was made at a time that is no number. -/
def voucherCalls : List ClientCall := [.read 0, .delete 1, .insert 1, .read 0, .update 0]

/-- The update succeeds, and what the second client has written is lost: the last read that
succeeded found another total than the one that the update has taken. -/
theorem update_behind_failed_read : vouchers.schema.Valid ∧ vouchers.hasKeys = true ∧
    (columns vouchers.selectFields).Nodup ∧ Supply.standard.Advances 0 9 ∧
    (∃ f, vouchers.schema.timestampField? = some f ∧ f.valueType = .timestamp ∧
      vouchers.Begins f voucherCalls voucherDesk voucherStore) ∧
    ((vouchers.turns .ascii (fun _ => none) voucherCalls voucherDesk voucherStore).map fun e =>
      (e.result.toOption, e.left.ticks)) =
      [(some true, 0), (some true, 0), (some true, 2), (none, 2), (some true, 3)] ∧
    (∀ e ∈ (vouchers.turns .ascii (fun _ => none) voucherCalls voucherDesk voucherStore)[0]?,
      ∀ stored ∈ vouchers.rowsIn e.store, (stored.column "total").same (.int 5) = true) ∧
    ∀ e ∈ (vouchers.turns .ascii (fun _ => none) voucherCalls voucherDesk voucherStore)[4]?,
      ∀ stored ∈ vouchers.rowsIn e.store, (stored.column "total").same (.int 6) = true ∧
        stored.agrees (vouchers.version (e.before.row 0)) = true := by
  refine ⟨vouchers_valid, vouchers_keyed.keys, vouchers_keyed.names, standard_advances,
    vouchers_begin (by simp [voucherCalls]), ?_, ?_, ?_⟩
  all_goals decide +kernel

/-- Where the first client has read the voucher and nobody else has written it, its update
takes what it has read. -/
theorem updates_unwritten_voucher : ∃ e stored,
    (vouchers.turns .ascii (fun _ => none) [.read 0, .update 0, .update 1] voucherDesk
      voucherStore)[1]? = some e ∧ vouchers.Updates e 0 stored ∧
    vouchers.Stays (vouchers.turns .ascii (fun _ => none) [.read 0, .update 0, .update 1]
      voucherDesk voucherStore) stored 0 1 := by
  have hcalls : ∀ r place v, ClientCall.edit r place v ∉
      [ClientCall.read 0, .update 0, .update 1] := by simp
  obtain ⟨f, hf, ht, hb⟩ := vouchers_begin hcalls
  have hversioned := updates_unwritten vouchers_valid vouchers_keyed.keys vouchers_keyed.names hf ht
    .ascii (fun _ => none) hb standard_advances (by decide +kernel)
  obtain ⟨e, he⟩ : ∃ e, (vouchers.turns .ascii (fun _ => none) [.read 0, .update 0, .update 1]
    voucherDesk voucherStore)[1]? = some e := Option.isSome_iff_exists.mp (by decide +kernel)
  have hcall : e.call = .update 0 := (Option.some.inj (ClientCall.run_of_turn he).1).symm
  have hresult : ((vouchers.turns .ascii (fun _ => none) [.read 0, .update 0, .update 1]
      voucherDesk voucherStore)[1]?.bind fun e => e.result.toOption) = some true := by
    decide +kernel
  rw [he, Option.bind_some] at hresult
  have hdone : e.result = .ok true := Work.eq_ok_of_toOption hresult
  obtain ⟨htaken, hupdates, -⟩ := hversioned 1 e he
  obtain ⟨stored, hu⟩ := htaken hdone 0 (by simp [hcall, ClientCall.updates])
  obtain ⟨⟨j, d, hj, -, found, -, -, ⟨-, hstays⟩ | hstays⟩, -⟩ := hupdates 0 stored hu
  · obtain rfl : j = 0 := Nat.lt_one_iff.mp hj
    exact ⟨e, stored, he, hu, hstays⟩
  · exact ⟨e, stored, he, hu, hstays⟩

end Mapping

end Tablewright
