import Tablewright.Proofs.Store.Operations

/-! Saving a row that is stored. An update that takes the stored row for the version at hand
is all that happens. Otherwise the row is inserted: a key of its own then clashes with the
stored one and nothing is added, but a key that the store generates is a new one, and the row
is added under it. Rows of other identities stay where they are in any case. -/

namespace Tablewright.Mapping

open Work TableStore

/-- The stored rows of other identities than a row's. -/
def otherRows (m : Mapping) (row : Row) (s : TableStore) : List StoredRow :=
  (m.rowsIn s).filter (!·.agrees (m.identity row))

/-- Whether an update takes some stored row for the version at hand. -/
def Takes (m : Mapping) (row : Row) (s : TableStore) : Prop :=
  m.canUpdate = true ∧ 0 < (m.updated row s).1

instance (m : Mapping) (row : Row) (s : TableStore) : Decidable (m.Takes row s) :=
  inferInstanceAs (Decidable (_ ∧ _))

/-- The store when a save turns to the insert. -/
def missed (m : Mapping) (row : Row) (s : TableStore) : TableStore :=
  if m.canUpdate then (m.updated row s).2 else s

variable {m : Mapping} {row : Row} {s : TableStore}

/-! ## The two steps of a save -/

/-- An update that takes no row has changed none and used up no stamp. -/
theorem missed_same (h : ¬ m.Takes row s) :
    m.rowsIn (m.missed row s) = m.rowsIn s ∧
      ((m.missed row s).table m.table).key = (s.table m.table).key ∧
      (m.missed row s).supply = s.supply ∧ (m.missed row s).issued = s.issued := by
  unfold missed
  split
  · rename_i hc
    have hzero : (m.updated row s).1 = 0 := Nat.le_zero.mp (Nat.le_of_not_lt fun hn => h ⟨hc, hn⟩)
    have htable := (updated_of_zero hzero).1 m.table
    exact ⟨congrArg Table.rows htable, congrArg Table.key htable, rfl, rfl⟩
  · exact ⟨rfl, rfl, rfl, rfl⟩

/-- How a save ends, and the store after it. It fails if the row does not fit the record, or
if the insert fails. -/
inductive Saves (m : Mapping) (row : Row) (s : TableStore) : Bool → TableStore → Prop
  | updated : m.Takes row s → m.Saves row s true (m.updated row s).2
  | inserted {key : Value} : ¬ m.Takes row s → (m.inserted row (m.missed row s)).1 = .ok key →
      m.Saves row s true (m.inserted row (m.missed row s)).2
  | unfit : row.length ≠ m.schema.fields.length → m.Saves row s false s
  | unfitMissed : row.length ≠ m.schema.fields.length → ¬ m.Takes row s →
      m.Saves row s false (m.missed row s)
  | failed : ¬ m.Takes row s → m.Saves row s false (m.inserted row (m.missed row s)).2

section

variable {u : Casing} {reads : String → Option Sql.Query} {rows : List Row} {r : RowRef}

theorem ensures_insertMissed (hk : m.hasKeys = true) (hmiss : ¬ m.Takes (rows.getD r []) s) :
    Ensures (Dialect.reference m.statements u reads).handle
      (At rows (m.missed (rows.getD r []) s)) (m.insert r)
      (fun done _ t => done = true ∧ m.Saves (rows.getD r []) s true t)
      (fun _ t => m.Saves (rows.getD r []) s false t) := by
  refine (ensures_insert hk).imp (fun _ _ => id) ?_ ?_
  · rintro done w t ⟨-, hdone, key, row, hkey, -, -, rfl⟩
    exact ⟨hdone, .inserted hmiss hkey⟩
  · rintro w t (⟨hlen, -, rfl⟩ | ⟨-, rfl⟩)
    · exact .unfitMissed hlen hmiss
    · exact .failed hmiss

/-- A save is done where the update took a row, and else ends as the insert does. -/
theorem ensures_save (hk : m.hasKeys = true) :
    Ensures (Dialect.reference m.statements u reads).handle (At rows s) (m.save r)
      (fun done _ t => done = true ∧ m.Saves (rows.getD r []) s true t)
      (fun _ t => m.Saves (rows.getD r []) s false t) := by
  unfold Mapping.save
  rw [hk]
  split
  · contradiction
  · split
    · rename_i hc
      refine (ensures_update.imp (fun _ _ => id) (fun _ _ _ => id) ?_).bind fun done => ?_
      · rintro w t ⟨hlen, -, rfl⟩
        exact .unfit hlen
      · simp only [hc, if_true]
        refine ensures_of fun hlen => ensures_of fun hdone => ?_
        split
        · rename_i htrue
          have htakes : m.Takes (rows.getD r []) s :=
            ⟨hc, of_decide_eq_true (hdone.symm.trans htrue)⟩
          refine ensures_pure ?_
          rintro w t ⟨-, rfl⟩
          exact ⟨rfl, .updated htakes⟩
        · rename_i hfalse
          have hmiss : ¬ m.Takes (rows.getD r []) s := fun htakes =>
            hfalse (hdone.trans (decide_eq_true htakes.2))
          have hafter : Ensures (Dialect.reference m.statements u reads).handle _ _ _ _ :=
            ensures_insertMissed hk hmiss
          rwa [missed, if_pos hc] at hafter
    · rename_i hc
      have hmiss : ¬ m.Takes (rows.getD r []) s := fun htakes => hc htakes.1
      have hafter : Ensures (Dialect.reference m.statements u reads).handle _ _ _ _ :=
        ensures_insertMissed hk hmiss
      rwa [missed, if_neg hc] at hafter

end

/-! ## What a save leaves of a stored row -/

namespace Keyed

variable (h : m.Keyed)
include h

theorem otherRows_updated (row : Row) (s : TableStore) :
    m.otherRows row (m.updated row s).2 = m.otherRows row s := by
  rw [otherRows, rowsIn_updated]
  refine filter_updateRows (fun stored ht => ?_) (fun stored ticks ht => ?_) s.ticks
  · simp [agrees_of_version ht]
  · have hkept := h.agrees_updatedRow row row s ticks stored
    rw [agrees_of_version ht] at hkept
    exact congrArg (!·) hkept

theorem whereFields_bound (hg : m.schema.generatedKey = none) : m.whereFields ⊆ m.insertBound := by
  intro f hf
  refine h.mem_insertBound hf fun hr => ?_
  have hkey := h.sound.generated_of_role (List.mem_filter.mp (h.whereFields_subset hf)).1 hr
  rw [hg] at hkey
  cases hkey

/-- Without a generated key, a new row has the identity of the row that it was made of. -/
theorem agreesWith_insertedRow (hg : m.schema.generatedKey = none) (row : Row) (s : TableStore)
    (stored : StoredRow) : stored.agreesWith (m.insertedRow row s) (columns m.whereFields) =
      stored.agrees (m.identity row) := by
  rw [StoredRow.agreesWith, identity, zip_boundValues, columns, List.map_map]
  refine congrArg _ (List.map_congr_left fun f hf => ?_)
  exact congrArg (f.columnName, ·) (h.column_inserted (h.whereFields_bound hg hf) row s)

/-- No row is added beside a stored one of the same identity. -/
theorem clashes_of_stored (hg : m.schema.generatedKey = none)
    (hkey : (s.table m.table).key = columns m.whereFields) {stored : StoredRow}
    (hm : stored ∈ m.rowsIn s) (ht : stored.agrees (m.identity row) = true) :
    m.clashes row s = true := by
  rw [clashes, hkey, Bool.and_eq_true, List.any_eq_true]
  refine ⟨by simp [columns, h.whereFields_ne_nil], stored, hm, ?_⟩
  rw [h.agreesWith_insertedRow hg, ht]

/-- An identity that no stored row has makes room for a new one. -/
theorem fresh_of_unstored (hg : m.schema.generatedKey = none)
    (hkey : (s.table m.table).key = columns m.whereFields)
    (hnone : ∀ stored ∈ m.rowsIn s, stored.agrees (m.identity row) = false) :
    m.clashes row s = false := by
  rw [clashes, hkey, Bool.and_eq_false_iff]
  right
  rw [List.any_eq_false]
  intro stored hm
  rw [h.agreesWith_insertedRow hg, hnone stored hm]
  exact Bool.false_ne_true

/-- A generated key that no row has yet makes room for a new one. -/
theorem fresh_of_generated {g : Field} (hg : m.schema.generatedKey = some g)
    (hkey : (s.table m.table).key = columns m.whereFields)
    (hfresh : ∀ stored ∈ m.rowsIn s,
      (stored.column g.columnName).same (s.supply.key s.issued) = false) :
    m.clashes row s = false := by
  have hmem : g.columnName ∈ columns m.whereFields := by
    rw [whereFields, if_pos h.keys, RecordSchema.identifyingFields, h.sound.alone g hg]
    exact List.mem_map_of_mem List.mem_cons_self
  rw [clashes, hkey, Bool.and_eq_false_iff]
  right
  rw [List.any_eq_false]
  intro stored hm ht
  have hsame := List.all_eq_true.mp ht _ (List.mem_map_of_mem hmem)
  rw [column_generated hg] at hsame
  exact absurd hsame (by simp [hfresh stored hm])

end Keyed

/-- An update that takes a row is all that a save does. -/
theorem Keyed.kept_of_takes (h : m.Keyed) (htakes : m.Takes row s) {b : Bool} {t : TableStore}
    (ht : m.Saves row s b t) :
    (m.rowsIn t).length = (m.rowsIn s).length ∧ m.otherRows row t = m.otherRows row s := by
  cases ht with
  | updated =>
    refine ⟨?_, h.otherRows_updated row s⟩
    rw [rowsIn_updated, length_updateRows]
  | unfit => exact ⟨rfl, rfl⟩
  | inserted hmiss | unfitMissed _ hmiss | failed hmiss => exact absurd htakes hmiss

/-- After an update that took no row, there is one more if the insert was not refused. -/
theorem rowsIn_of_missed (hmiss : ¬ m.Takes row s) {b : Bool} {t : TableStore}
    (ht : m.Saves row s b t) : m.rowsIn t = m.rowsIn s ∨ m.rowsIn t =
      m.rowsIn s ++ [m.insertedRow row (m.missed row s)] := by
  have hinserted : m.rowsIn (m.inserted row (m.missed row s)).2 = m.rowsIn s ∨
      m.rowsIn (m.inserted row (m.missed row s)).2 =
        m.rowsIn s ++ [m.insertedRow row (m.missed row s)] := by
    rw [rowsIn_inserted, (missed_same hmiss).1]
    split
    · exact .inl rfl
    · exact .inr rfl
  cases ht with
  | updated htakes => exact absurd htakes hmiss
  | unfit => exact .inl rfl
  | unfitMissed => exact .inl (missed_same hmiss).1
  | inserted | failed => exact hinserted

/-- A save of a stored row with a key of its own adds nothing, and fails if its update takes
no row. -/
theorem Keyed.refused_of_stored (h : m.Keyed) (hg : m.schema.generatedKey = none)
    (hkey : (s.table m.table).key = columns m.whereFields) {stored : StoredRow}
    (hm : stored ∈ m.rowsIn s) (hagrees : stored.agrees (m.identity row) = true)
    (hmiss : ¬ m.Takes row s) {b : Bool} {t : TableStore} (ht : m.Saves row s b t) :
    b = false ∧ m.rowsIn t = m.rowsIn s := by
  obtain ⟨hrows, hkeys, -, -⟩ := missed_same hmiss
  have hclash : m.clashes row (m.missed row s) = true :=
    h.clashes_of_stored hg (hkeys.trans hkey) (hrows ▸ hm) hagrees
  cases ht with
  | updated htakes => exact absurd htakes hmiss
  | inserted _ hok =>
    rw [inserted_of_clash hclash] at hok
    cases hok
  | unfit => exact ⟨rfl, rfl⟩
  | unfitMissed => exact ⟨rfl, hrows⟩
  | failed => exact ⟨rfl, by rw [rowsIn_inserted, if_pos hclash, hrows]⟩

/-- A save under a generated key that no row has yet adds a row, if its update takes none. -/
theorem Keyed.added_of_generated (h : m.Keyed) {g : Field} (hg : m.schema.generatedKey = some g)
    (hkey : (s.table m.table).key = columns m.whereFields)
    (hfresh : ∀ stored ∈ m.rowsIn s,
      (stored.column g.columnName).same (s.supply.key s.issued) = false)
    (hlen : row.length = m.schema.fields.length) (hmiss : ¬ m.Takes row s) {b : Bool}
    {t : TableStore} (ht : m.Saves row s b t) :
    m.rowsIn t = m.rowsIn s ++ [m.insertedRow row (m.missed row s)] := by
  obtain ⟨hrows, hkeys, hsupply, hissued⟩ := missed_same hmiss
  have hroom : m.clashes row (m.missed row s) = false := by
    refine h.fresh_of_generated hg (hkeys.trans hkey) ?_
    rwa [hrows, hsupply, hissued]
  have hadded : m.rowsIn (m.inserted row (m.missed row s)).2 =
      m.rowsIn s ++ [m.insertedRow row (m.missed row s)] := by
    rw [rowsIn_inserted, hroom, hrows]
    rfl
  cases ht with
  | updated htakes => exact absurd htakes hmiss
  | unfit hne | unfitMissed hne => exact absurd hlen hne
  | inserted | failed => exact hadded

/-- Saving a row that is stored leaves the rows of other identities as they are. Nothing is
added if the row has a key of its own, or if the update took the stored row; a row with a
generated key whose update took none is added under a new key. -/
theorem save_stored (hs : m.schema.Valid) (hk : m.hasKeys = true)
    (hn : (columns m.selectFields).Nodup) (u : Casing) (reads : String → Option Sql.Query)
    {w w' : Workspace} {r : RowRef} {t : TableStore} {result : Except Failure Bool}
    (hkey : (s.table m.table).key = columns m.whereFields)
    (hstored : ∃ stored ∈ m.rowsIn s, stored.agrees (m.identity (w.row r)) = true)
    (hrun : ((m.save r).start w).run (Dialect.reference m.statements u reads).handle s =
      ((result, w'), t)) :
    m.otherRows (w.row r) s <+: m.otherRows (w.row r) t ∧
      (m.schema.generatedKey = none ∨ m.Takes (w.row r) s →
        (∀ done, result = .ok done → done = true ∧ m.Takes (w.row r) s) ∧
        (m.rowsIn t).length = (m.rowsIn s).length ∧
        m.otherRows (w.row r) t = m.otherRows (w.row r) s) ∧
      ∀ g, m.schema.generatedKey = some g → ¬ m.Takes (w.row r) s →
        (w.row r).length = m.schema.fields.length →
        (∀ stored ∈ m.rowsIn s,
          (stored.column g.columnName).same (s.supply.key s.issued) = false) →
        ∃ added, m.rowsIn t = m.rowsIn s ++ [added] ∧
          added.column g.columnName = s.supply.key s.issued := by
  have h : m.Keyed := ⟨hs.sound, hk, hn⟩
  obtain ⟨stored, hm, ht⟩ := hstored
  obtain ⟨b, hsaves, hdone⟩ : ∃ b, m.Saves (w.row r) s b t ∧
      ∀ done, result = .ok done → done = true ∧ b = true := by
    have hend := (ensures_save hk).of_run hrun ⟨rfl, rfl⟩
    cases result with
    | ok done =>
      obtain ⟨rfl, hsaves⟩ := hend
      exact ⟨true, hsaves, by rintro _ ⟨⟩; exact ⟨rfl, rfl⟩⟩
    | error e => exact ⟨false, hend, by rintro _ ⟨⟩⟩
  refine ⟨?_, ?_, ?_⟩
  · by_cases htakes : m.Takes (w.row r) s
    · exact (h.kept_of_takes htakes hsaves).2 ▸ List.prefix_rfl
    · rcases rowsIn_of_missed htakes hsaves with hrows | hrows
      · rw [otherRows, otherRows, hrows]
      · rw [otherRows, otherRows, hrows, List.filter_append]
        exact List.prefix_append _ _
  · intro hcase
    by_cases htakes : m.Takes (w.row r) s
    · exact ⟨fun done hresult => ⟨(hdone done hresult).1, htakes⟩, h.kept_of_takes htakes hsaves⟩
    · obtain ⟨rfl, hrows⟩ :=
        h.refused_of_stored (hcase.resolve_right htakes) hkey hm ht htakes hsaves
      refine ⟨fun done hresult => ?_, by rw [hrows], by rw [otherRows, otherRows, hrows]⟩
      cases (hdone done hresult).2
  · intro g hg hmiss hlen hfresh
    refine ⟨_, h.added_of_generated hg hkey hfresh hlen hmiss hsaves, ?_⟩
    rw [column_generated hg, (missed_same hmiss).2.2.1, (missed_same hmiss).2.2.2]

/-! ## Receipts under generated keys -/

def receiptDeclaration : RecordDeclaration where
  name := "receipt"
  nameInDb := some "receipt"
  useTimestampCheck := true
  operations := []
  fields := [
    RecordSchema.invoiceColumn "id" "id" .integer .generatedPrimaryKey,
    RecordSchema.invoiceColumn "modifiedAt" "modified_at" .timestamp .modifiedAt,
    RecordSchema.invoiceColumn "total" "total" .integer .requiredData]

def receipts : Mapping := ⟨RecordSchema.declared receiptDeclaration, false, "CURRENT_TIMESTAMP"⟩

theorem receipts_valid : receipts.schema.Valid := RecordSchema.valid_declared (by decide +kernel)

theorem receipts_keyed : receipts.Keyed :=
  ⟨receipts_valid.sound, by decide +kernel, by decide +kernel⟩

def receiptStore : TableStore where
  tables := [("receipt", {
    key := ["id"]
    rows := [[("id", .int 7), ("modified_at", Supply.standard.stamp 0), ("total", .int 5)]] })]

/-- A receipt that is changed without having been read. -/
def unreadReceipt : Workspace where
  rows := [[.int 7, .null, .int 6]]

/-- Saving the receipt, whose key is that of a stored one, adds a second row. -/
theorem save_adds_receipt : receipts.schema.Valid ∧ receipts.hasKeys = true ∧
    (columns receipts.selectFields).Nodup ∧
    (receiptStore.table receipts.table).key = columns receipts.whereFields ∧
    (∀ stored ∈ receipts.rowsIn receiptStore,
      (stored.column "id").same (receiptStore.supply.key receiptStore.issued) = false) ∧
    (unreadReceipt.row 0)[0]? = some (.int 7) ∧
    (∃ stored ∈ receipts.rowsIn receiptStore,
      stored.agrees (receipts.identity (unreadReceipt.row 0)) = true) ∧
    (receipts.rowsIn receiptStore).length = 1 ∧
    (receipts.rowsIn (((receipts.save 0).start unreadReceipt).run
      (Dialect.reference receipts.statements .ascii fun _ => none).handle receiptStore).2).length = 2 := by
  refine ⟨receipts_valid, receipts_keyed.keys, receipts_keyed.names, ?_, ?_, rfl, ?_, rfl, ?_⟩
  all_goals decide +kernel

/-- The new row comes behind the stored one, under the next key. -/
theorem save_stored_receipt : ∃ result w' t,
    ((receipts.save 0).start unreadReceipt).run
      (Dialect.reference receipts.statements .ascii fun _ => none).handle receiptStore =
        ((result, w'), t) ∧
    ∃ added, receipts.rowsIn t = receipts.rowsIn receiptStore ++ [added] ∧
      added.column "id" = .int 101 := by
  obtain ⟨g, hg⟩ : ∃ g, receipts.schema.generatedKey = some g :=
    Option.isSome_iff_exists.mp (by decide +kernel)
  have hcolumn : receipts.schema.generatedKey.map Field.columnName = some "id" := by
    decide +kernel
  rw [hg] at hcolumn
  have hcolumn : g.columnName = "id" := Option.some.inj hcolumn
  have hsaved := save_stored receipts_valid receipts_keyed.keys receipts_keyed.names .ascii
    (fun _ => none) (w := unreadReceipt) (r := 0) (s := receiptStore) (by decide +kernel)
    (by decide +kernel) rfl
  refine ⟨_, _, _, rfl, ?_⟩
  have hadded := hsaved.2.2 g hg (by decide +kernel) (by decide +kernel)
  rw [hcolumn] at hadded
  exact hadded (by decide +kernel)

end Tablewright.Mapping
