import Mathlib.Data.List.Pairwise
import Mathlib.Logic.Relation
import Tablewright.Proofs.Store.Operations
import Tablewright.Proofs.Value.Same

/-! Stamps tell versions apart. The clock of a store moves on with every stamp, so a row that
is written carries a later stamp than any row before it. What is still stored with an old
stamp has therefore not been written since, and two rows with the same stamp are one and the
same, unless they were there from the start. -/

namespace Tablewright

/-- From one tick to another the clock shows points in time, each later than those before. -/
structure Supply.Advances (p : Supply) (first last : Nat) : Prop where
  stamps : ∀ n, first ≤ n → n ≤ last → ∃ t, p.stamp n = .timestamp t
  later : ∀ a b, first ≤ a → a < b → b ≤ last →
    Comparison.lt.holds (p.stamp a) (p.stamp b) = true

namespace Supply

/-- The moment of a tick. -/
def moment (p : Supply) (ticks : Nat) : Lex (Bool × Int) :=
  ((p.stamp ticks).moment?).getD (toLex (false, 0))

namespace Advances

variable {p : Supply} {first last a b : Nat} (h : p.Advances first last)
include h

theorem moment? (ha : first ≤ a) (hb : a ≤ last) : (p.stamp a).moment? = some (p.moment a) := by
  obtain ⟨t, ht⟩ := h.stamps a ha hb
  rw [moment, ht]
  rfl

theorem lt (ha : first ≤ a) (hab : a < b) (hb : b ≤ last) : p.moment a < p.moment b := by
  obtain ⟨x, hx, hlt⟩ := Value.moment?_of_lt (h.later a b ha hab hb) (h.moment? (by omega) hb)
  rw [h.moment? ha (by omega)] at hx
  exact Option.some.inj hx ▸ hlt

theorem le (ha : first ≤ a) (hab : a ≤ b) (hb : b ≤ last) : p.moment a ≤ p.moment b := by
  rcases Nat.lt_or_eq_of_le hab with hlt | rfl
  · exact (h.lt ha hlt hb).le
  · exact le_rfl

end Advances

end Supply

namespace StoredRow

/-- The row carries a stamp in the column, of the tick or of an earlier one. -/
def StampedBy (row : StoredRow) (p : Supply) (column : String) (ticks : Nat) : Prop :=
  ∃ x, (row.column column).moment? = some x ∧ x ≤ p.moment ticks

variable {row : StoredRow} {p : Supply} {c : String} {first last a b : Nat}

theorem StampedBy.mono (hp : p.Advances first last) (h : row.StampedBy p c a) (ha : first ≤ a)
    (hab : a ≤ b) (hb : b ≤ last) : row.StampedBy p c b := by
  obtain ⟨x, hx, hle⟩ := h
  exact ⟨x, hx, hle.trans (hp.le ha hab hb)⟩

/-- A row that carries the stamp of a tick is not one of an earlier tick. -/
theorem not_stampedBy (hp : p.Advances first last) (hrow : row.column c = p.stamp b)
    (ha : first ≤ a) (hab : a < b) (hb : b ≤ last) : ¬ row.StampedBy p c a := by
  rintro ⟨x, hx, hle⟩
  rw [hrow, hp.moment? (by omega) hb] at hx
  exact absurd (Option.some.inj hx ▸ hle) (not_le.mpr (hp.lt ha hab hb))

end StoredRow

namespace TableStore

/-- Rows that all carry a stamp by some tick. Those whose stamps are of the same moment were
there when the clock started. -/
structure Stamped (p : Supply) (c : String) (first ticks : Nat) (rows : List StoredRow) :
    Prop where
  bounded : ∀ row ∈ rows, row.StampedBy p c ticks
  apart : rows.Pairwise fun x y =>
    (x.column c).moment? = (y.column c).moment? → x.StampedBy p c first

variable {p : Supply} {c : String} {first last ticks : Nat} {rows : List StoredRow}
  {entries : List Assignment} {values conditions : List (String × Value)}

theorem Stamped.mono (hp : p.Advances first last) (h : Stamped p c first ticks rows)
    (hfirst : first ≤ ticks) {later : Nat} (hle : ticks ≤ later) (hlast : later ≤ last) :
    Stamped p c first later rows :=
  ⟨fun row hm => (h.bounded row hm).mono hp hfirst hle hlast, h.apart⟩

/-- What an update leaves: every row that it takes is stamped anew, later than all rows before
it. A row with an older stamp was there before and was not taken. -/
theorem Stamped.updateRows (hp : p.Advances first last) (hentries : stamped entries = [c])
    (hfirst : first ≤ ticks)
    (hlast : ticks + (rows.filter (·.agrees conditions)).length ≤ last)
    (h : Stamped p c first ticks rows) :
    Stamped p c first (ticks + (rows.filter (·.agrees conditions)).length)
        (updateRows p entries values conditions ticks rows) ∧
      ∀ row ∈ TableStore.updateRows p entries values conditions ticks rows,
        row.StampedBy p c ticks → row ∈ rows ∧ row.agrees conditions = false := by
  induction rows generalizing ticks with
  | nil => exact ⟨⟨by simp [TableStore.updateRows], .nil⟩, by simp [TableStore.updateRows]⟩
  | cons row rows ih =>
    obtain ⟨hrow, hrows⟩ := List.forall_mem_cons.mp h.bounded
    obtain ⟨hhead, htail⟩ := List.pairwise_cons.mp h.apart
    have hrest : Stamped p c first ticks rows := ⟨hrows, htail⟩
    unfold TableStore.updateRows
    split
    · rename_i hagrees
      have hfilter : (row :: rows).filter (·.agrees conditions) =
          row :: rows.filter (·.agrees conditions) := List.filter_cons_of_pos hagrees
      rw [hfilter, List.length_cons] at hlast ⊢
      rw [hentries, List.length_singleton]
      have hstamp : (row.write (values ++ p.stamps ticks [c])).column c = p.stamp (ticks + 1) := by
        rw [StoredRow.write_append]
        exact StoredRow.column_write_of_mem (by simp [names_stamps])
          (mem_stamps (i := 0) rfl p ticks)
      obtain ⟨hnew, hold⟩ := ih (show first ≤ ticks + 1 by omega) (by omega)
        (hrest.mono hp hfirst (by omega) (by omega))
      have hticks : ticks + ((rows.filter (·.agrees conditions)).length + 1) =
          ticks + 1 + (rows.filter (·.agrees conditions)).length := by omega
      rw [hticks]
      refine ⟨⟨List.forall_mem_cons.mpr ⟨?_, hnew.bounded⟩,
        List.pairwise_cons.mpr ⟨?_, hnew.apart⟩⟩, List.forall_mem_cons.mpr ⟨?_, ?_⟩⟩
      · exact ⟨_, by rw [hstamp, hp.moment? (by omega) (by omega)],
          hp.le (by omega) (by omega) (by omega)⟩
      · intro other ho hsame
        rw [hstamp] at hsame
        have hmoment := hp.moment? (a := ticks + 1) (by omega) (by omega)
        have hm := (hold other ho ⟨_, hsame.symm.trans hmoment, le_rfl⟩).1
        -- A row from before has an older stamp than the row that was just written.
        obtain ⟨x, hx, hle⟩ := hrows other hm
        rw [← hsame, hmoment] at hx
        exact absurd (Option.some.inj hx ▸ hle) (not_le.mpr (hp.lt hfirst (by omega) (by omega)))
      · intro hby
        exact absurd hby (StoredRow.not_stampedBy hp hstamp hfirst (by omega) (by omega))
      · intro other ho hby
        obtain ⟨hm, hnot⟩ := hold other ho (hby.mono hp hfirst (by omega) (by omega))
        exact ⟨List.mem_cons_of_mem _ hm, hnot⟩
    · rename_i hagrees
      have hfilter : (row :: rows).filter (·.agrees conditions) =
          rows.filter (·.agrees conditions) := List.filter_cons_of_neg hagrees
      rw [hfilter] at hlast ⊢
      obtain ⟨hnew, hold⟩ := ih hfirst hlast hrest
      refine ⟨⟨List.forall_mem_cons.mpr ⟨?_, hnew.bounded⟩,
        List.pairwise_cons.mpr ⟨?_, hnew.apart⟩⟩, List.forall_mem_cons.mpr ⟨?_, ?_⟩⟩
      · exact hrow.mono hp hfirst (by omega) hlast
      · intro other ho hsame
        obtain ⟨x, hx, hle⟩ := hrow
        exact hhead other (hold other ho ⟨x, hsame ▸ hx, hle⟩).1 hsame
      · exact fun _ => ⟨List.mem_cons_self, by simpa using hagrees⟩
      · intro other ho hby
        obtain ⟨hm, hnot⟩ := hold other ho hby
        exact ⟨List.mem_cons_of_mem _ hm, hnot⟩

/-- A row that is added carries a later stamp than all others. -/
theorem Stamped.concat (hp : p.Advances first last) (h : Stamped p c first ticks rows)
    {row : StoredRow} {n later : Nat} (hrow : row.column c = p.stamp n) (hfirst : first ≤ ticks)
    (hn : ticks < n) (hle : n ≤ later) (hlast : later ≤ last) :
    Stamped p c first later (rows ++ [row]) := by
  have hmoment := hp.moment? (a := n) (by omega) (by omega)
  refine ⟨?_, List.pairwise_append.mpr ⟨h.apart, List.pairwise_singleton _ _, ?_⟩⟩
  · intro other ho
    rcases List.mem_append.mp ho with ho | ho
    · exact (h.bounded other ho).mono hp hfirst (by omega) hlast
    · obtain rfl := List.mem_singleton.mp ho
      exact ⟨_, hrow ▸ hmoment, hp.le (by omega) hle hlast⟩
  · intro x hx y hy hsame
    obtain rfl := List.mem_singleton.mp hy
    obtain ⟨z, hz, hle⟩ := h.bounded x hx
    rw [hsame, hrow, hmoment] at hz
    exact absurd (Option.some.inj hz ▸ hle) (not_le.mpr (hp.lt hfirst hn (by omega)))

theorem Stamped.sublist {more : List StoredRow} (h : Stamped p c first ticks more)
    (hrows : rows.Sublist more) : Stamped p c first ticks rows :=
  ⟨fun row hm => h.bounded row (hrows.subset hm), h.apart.sublist hrows⟩

end TableStore

namespace Mapping

open TableStore

/-- Rows that agree in the columns by which rows are told apart. -/
def KeyedAlike (m : Mapping) (x y : StoredRow) : Prop :=
  x.agreesWith y (columns m.whereFields) = true ∧ y.agreesWith x (columns m.whereFields) = true

instance (m : Mapping) (x y : StoredRow) : Decidable (m.KeyedAlike x y) :=
  inferInstanceAs (Decidable (_ ∧ _))

/-- Among rows that differ in their keys, two that are alike in them are the same. -/
theorem eq_of_keyedAlike {m : Mapping} {rows : List StoredRow}
    (hrows : rows.Pairwise fun x y => ¬ m.KeyedAlike x y) {x y : StoredRow} (hx : x ∈ rows)
    (hy : y ∈ rows) (halike : m.KeyedAlike x y) : x = y := by
  by_contra hne
  have hsymm : Std.Symm fun x y : StoredRow => ¬ m.KeyedAlike x y :=
    ⟨fun x y hxy hyx => hxy ⟨hyx.2, hyx.1⟩⟩
  exact hrows.forall hx hy hne halike

/-- A store whose table has one row for each key, and a stamp on each that tells its version. -/
structure Tracked (m : Mapping) (c : String) (first : Nat) (s : TableStore) : Prop where
  started : first ≤ s.ticks
  key : (s.table m.table).key = columns m.whereFields
  unique : (m.rowsIn s).Pairwise fun x y => ¬ m.KeyedAlike x y
  stamped : Stamped s.supply c first s.ticks (m.rowsIn s)

/-- What a statement of the mapping makes of a store. -/
inductive Writes (m : Mapping) (s : TableStore) : TableStore → Prop
  | inserted (row : Row) : m.Writes s (m.inserted row s).2
  | updated (row : Row) : m.Writes s (m.updated row s).2
  | deleted (row : Row) : m.Writes s (m.deleted row s).2

/-- One store comes after another: its rows with an old stamp are rows of the other. -/
structure Follows (m : Mapping) (c : String) (s t : TableStore) : Prop where
  supply : t.supply = s.supply
  ticks : s.ticks ≤ t.ticks
  old : ∀ row ∈ m.rowsIn t, row.StampedBy s.supply c s.ticks → row ∈ m.rowsIn s

variable {m : Mapping} {s t : TableStore} {f : Field} {first last : Nat}

theorem Writes.ticks_le (h : m.Writes s t) : t.supply = s.supply ∧ s.ticks ≤ t.ticks := by
  cases h with
  | inserted row =>
    cases hc : m.clashes row s with
    | true =>
      rw [inserted_of_clash hc]
      exact ⟨rfl, Nat.le_add_right ..⟩
    | false =>
      rw [inserted_of_fresh hc]
      exact ⟨rfl, Nat.le_add_right ..⟩
  | updated row => exact ⟨rfl, Nat.le_add_right ..⟩
  | deleted row => exact ⟨rfl, le_rfl⟩

theorem key_of_writes (h : m.Writes s t) :
    (t.table m.table).key = (s.table m.table).key := by
  cases h with
  | inserted row =>
    cases hc : m.clashes row s with
    | true => rw [inserted_of_clash hc]; rfl
    | false => rw [inserted_of_fresh hc]; exact key_setRows ..
  | updated row => exact key_setRows ..
  | deleted row => exact key_setRows ..

namespace Keyed

variable (h : m.Keyed) (hf : m.schema.timestampField? = some f)
include h

/-- The one column that an update stamps. -/
theorem stamped_updateEntries (hf : m.schema.timestampField? = some f) :
    stamped m.updateEntries = [f.columnName] := by
  have hfields : RecordSchema.ofRole .modifiedAt m.schema.fields = [f] := by
    rw [h.sound.audit .modifiedAt rfl]
    unfold RecordSchema.timestampField? at hf
    split at hf
    · rw [hf]; rfl
    · cases hf
  have hcolumn : f.isColumn = true := (List.mem_filter.mp (h.sound.timestamp_mem hf).1).2
  have hfilter : m.updateFields.filter (m.updateTerm · != .parameter) =
      (RecordSchema.ofRole .modifiedAt m.schema.fields).filter Field.isColumn := by
    rw [updateFields, List.filter_filter, RecordSchema.columnFields, List.filter_filter,
      RecordSchema.ofRole, List.filter_filter]
    refine List.filter_congr fun g _ => ?_
    unfold updateTerm
    cases hr : g.role with
    | none => simp
    | some role =>
      cases role <;> simp [FieldRole.isUpdated, FieldRole.stampedOnUpdate]
  rw [stamped_update, hfilter, hfields, List.filter_cons_of_pos hcolumn]
  rfl

/-- A row that is inserted carries one of the stamps that the insert used up. -/
theorem insertedRow_stamped (hf : m.schema.timestampField? = some f) (row : Row)
    (s : TableStore) : ∃ i < (stamped m.insertEntries).length,
      (m.insertedRow row s).column f.columnName = s.supply.stamp (s.ticks + i + 1) := by
  obtain ⟨hcolumn, hrole⟩ := h.sound.timestamp_mem hf
  refine h.column_stamped (List.mem_filter.mpr ⟨hcolumn, by simp [hrole, FieldRole.isInserted]⟩) ?_
    row s
  rw [insertTerm_eq, if_pos (.inr hrole)]
  simp

theorem keyedAlike_updatedRow (row : Row) (s : TableStore) (n : Nat) (x y : StoredRow) :
    (m.KeyedAlike (m.updatedRow row s n x) y ↔ m.KeyedAlike x y) ∧
      (m.KeyedAlike x (m.updatedRow row s n y) ↔ m.KeyedAlike x y) := by
  have hkept : ∀ stored : StoredRow, ∀ name ∈ columns m.whereFields,
      (m.updatedRow row s n stored).column name = stored.column name :=
    fun stored name hname => h.column_identity hname row s n stored
  unfold KeyedAlike
  rw [StoredRow.agreesWith_congr (hkept x) fun _ _ => rfl,
    StoredRow.agreesWith_congr (fun _ _ => rfl) (hkept x),
    StoredRow.agreesWith_congr (fun _ _ => rfl) (hkept y),
    StoredRow.agreesWith_congr (hkept y) fun _ _ => rfl]
  exact ⟨Iff.rfl, Iff.rfl⟩

/-- After an update all stamps are in order. A row with an old one was there before and is
not the version that the update was for. -/
theorem stamped_updated (hf : m.schema.timestampField? = some f)
    (hp : s.supply.Advances first last) (hs : m.Tracked f.columnName first s) (row : Row)
    (hlast : (m.updated row s).2.ticks ≤ last) :
    Stamped s.supply f.columnName first (m.updated row s).2.ticks (m.rowsIn (m.updated row s).2) ∧
      ∀ stored ∈ m.rowsIn (m.updated row s).2, stored.StampedBy s.supply f.columnName s.ticks →
        stored ∈ m.rowsIn s ∧ stored.agrees (m.version row) = false := by
  have hentries := h.stamped_updateEntries hf
  have hcount : (m.updated row s).2.ticks =
      s.ticks + ((m.rowsIn s).filter (·.agrees (m.version row))).length := by
    have huses : (m.updated row s).2.ticks = s.ticks +
      ((m.rowsIn s).filter (·.agrees (m.version row))).length * (stamped m.updateEntries).length := rfl
    rw [huses, hentries, List.length_singleton, Nat.mul_one]
  rw [hcount] at hlast ⊢
  rw [rowsIn_updated]
  exact hs.stamped.updateRows hp hentries hs.started hlast

/-- An insert that is not refused adds a row of a new key, with a later stamp than all others. -/
theorem tracked_of_inserted (hf : m.schema.timestampField? = some f)
    (hp : s.supply.Advances first last) (hs : m.Tracked f.columnName first s) {row : Row}
    (hc : m.clashes row s = false) (hlast : (m.inserted row s).2.ticks ≤ last) :
    m.Tracked f.columnName first (m.inserted row s).2 ∧
      m.Follows f.columnName s (m.inserted row s).2 := by
  have hw : m.Writes s (m.inserted row s).2 := .inserted row
  have hkey := (key_of_writes hw).trans hs.key
  obtain ⟨hsupply, hticks⟩ := hw.ticks_le
  have hrows : m.rowsIn (m.inserted row s).2 = m.rowsIn s ++ [m.insertedRow row s] := by
    rw [rowsIn_inserted, hc]
    rfl
  obtain ⟨i, hi, hstamp⟩ := h.insertedRow_stamped hf row s
  have hlater : s.ticks + i + 1 ≤ (m.inserted row s).2.ticks := by
    rw [inserted_of_fresh hc]
    exact Nat.add_lt_add_left hi s.ticks
  refine ⟨⟨hs.started.trans hticks, hkey, ?_, ?_⟩, ⟨hsupply, hticks, ?_⟩⟩
  · rw [hrows]
    refine List.pairwise_append.mpr ⟨hs.unique, List.pairwise_singleton _ _, ?_⟩
    intro x hx y hy halike
    obtain rfl := List.mem_singleton.mp hy
    rw [clashes, hs.key, Bool.and_eq_false_iff, List.any_eq_false] at hc
    rcases hc with hc | hc
    · simp [columns, h.whereFields_ne_nil] at hc
    · exact hc x hx halike.1
  · rw [hsupply, hrows]
    exact hs.stamped.concat hp hstamp hs.started (by omega) hlater hlast
  · intro other ho hby
    rw [hrows] at ho
    rcases List.mem_append.mp ho with ho | ho
    · exact ho
    · obtain rfl := List.mem_singleton.mp ho
      exact absurd hby
        (StoredRow.not_stampedBy hp hstamp hs.started (by omega) (hlater.trans hlast))

/-- A statement keeps one row for each key, and stamps what it writes later than all before. -/
theorem tracked_of_writes (hf : m.schema.timestampField? = some f)
    (hp : s.supply.Advances first last) (hs : m.Tracked f.columnName first s)
    (hw : m.Writes s t) (hlast : t.ticks ≤ last) :
    m.Tracked f.columnName first t ∧ m.Follows f.columnName s t := by
  have hkey := (key_of_writes hw).trans hs.key
  obtain ⟨hsupply, hticks⟩ := hw.ticks_le
  have hstarted := hs.started.trans hticks
  cases hw with
  | inserted row =>
    cases hc : m.clashes row s with
    | true =>
      have hrows : m.rowsIn (m.inserted row s).2 = m.rowsIn s := by rw [rowsIn_inserted, if_pos hc]
      refine ⟨⟨hstarted, hkey, hrows ▸ hs.unique, ?_⟩, ⟨hsupply, hticks, ?_⟩⟩
      · rw [hsupply, hrows]
        exact hs.stamped.mono hp hs.started hticks hlast
      · exact fun row hm _ => hrows ▸ hm
    | false => exact h.tracked_of_inserted hf hp hs hc hlast
  | updated row =>
    obtain ⟨hstamped, hold⟩ := h.stamped_updated hf hp hs row hlast
    refine ⟨⟨hstarted, hkey, ?_, hsupply ▸ hstamped⟩, ⟨hsupply, hticks, ?_⟩⟩
    · rw [rowsIn_updated]
      refine pairwise_updateRows hs.unique ?_ ?_ s.ticks
      · exact fun x y n hne halike => hne ((h.keyedAlike_updatedRow row s n x y).1.mp halike)
      · exact fun x y n hne halike => hne ((h.keyedAlike_updatedRow row s n x y).2.mp halike)
    · exact fun other ho hby => (hold other ho hby).1
  | deleted row =>
    have hsub : (m.rowsIn (m.deleted row s).2).Sublist (m.rowsIn s) := by
      rw [rowsIn_deleted]
      exact List.filter_sublist
    exact ⟨⟨hstarted, hkey, hs.unique.sublist hsub, hs.stamped.sublist hsub⟩,
      ⟨hsupply, hticks, fun _ hm _ => hsub.subset hm⟩⟩

end Keyed

/-! ## Many statements -/

/-- What any number of statements make of a store. -/
abbrev Reaches (m : Mapping) : TableStore → TableStore → Prop := Relation.ReflTransGen m.Writes

theorem Reaches.ticks_le (h : m.Reaches s t) : t.supply = s.supply ∧ s.ticks ≤ t.ticks := by
  induction h with
  | refl => exact ⟨rfl, le_rfl⟩
  | tail _ hw ih => exact ⟨hw.ticks_le.1.trans ih.1, ih.2.trans hw.ticks_le.2⟩

/-- A row that is still there with an old stamp was there all the time. -/
theorem Keyed.tracked_of_reaches (h : m.Keyed) (hf : m.schema.timestampField? = some f)
    (hp : s.supply.Advances first last) (hs : m.Tracked f.columnName first s)
    (hr : m.Reaches s t) (hlast : t.ticks ≤ last) :
    m.Tracked f.columnName first t ∧ m.Follows f.columnName s t := by
  induction hr with
  | refl => exact ⟨hs, rfl, le_rfl, fun _ hm _ => hm⟩
  | @tail between t _ hw ih =>
    have hbetween : between.ticks ≤ last := hw.ticks_le.2.trans hlast
    obtain ⟨htracked, hfollows⟩ := ih hbetween
    obtain ⟨hafter, hstep⟩ :=
      h.tracked_of_writes hf (hfollows.supply ▸ hp) htracked hw hlast
    refine ⟨hafter, hstep.supply.trans hfollows.supply, hfollows.ticks.trans hstep.ticks, ?_⟩
    intro row hm hby
    refine hfollows.old row (hstep.old row hm ?_) hby
    rw [hfollows.supply]
    exact hby.mono hp hs.started hfollows.ticks hbetween

/-- Any two rows of one moment are the same row, or were there from the start. -/
theorem Tracked.eq_of_moment {c : String} (hs : m.Tracked c first s) {x y : StoredRow}
    (hx : x ∈ m.rowsIn s) (hy : y ∈ m.rowsIn s)
    (hsame : (x.column c).moment? = (y.column c).moment?) :
    x = y ∨ x.StampedBy s.supply c first := by
  by_cases hne : x = y
  · exact .inl hne
  · right
    have hsymm : Std.Symm fun x y : StoredRow =>
        (x.column c).moment? = (y.column c).moment? → x.StampedBy s.supply c first := by
      refine ⟨fun x y hxy hyx => ?_⟩
      obtain ⟨z, hz, hle⟩ := hxy hyx.symm
      exact ⟨z, hyx.trans hz, hle⟩
    exact hs.stamped.apart.forall hx hy hne hsame

/-- Two stored rows of one key are the same row. -/
theorem Tracked.eq_of_key {c : String} (hs : m.Tracked c first s) {x y : StoredRow}
    (hx : x ∈ m.rowsIn s) (hy : y ∈ m.rowsIn s) (halike : m.KeyedAlike x y) : x = y :=
  eq_of_keyedAlike hs.unique hx hy halike

end Mapping

end Tablewright
