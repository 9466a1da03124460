import Tablewright.Proofs.Store.Stamps

/-! The stored rows that updates take. With one row for each key, an update takes one row at the
most: the one of its identity, if it carries the stamp that is looked for. Taken rows get a
later stamp, so a stamp of old is not found a second time, and updates that take as many rows as
there are take different ones. -/

namespace Tablewright

open TableStore

namespace Mapping

variable {m : Mapping} {f : Field} {p : Supply} {s : TableStore} {row : Row}
  {stored x y : StoredRow} {first last ticks : Nat}

/-! ## The stored row of an identity -/

/-- The values that a row is found by hold no others: they are no lists or maps. -/
def PlainKeys (m : Mapping) (row : Row) : Prop :=
  ∀ g ∈ m.whereFields, (row.getD g.index .null).isPlain = true

instance (m : Mapping) (row : Row) : Decidable (m.PlainKeys row) :=
  inferInstanceAs (Decidable (∀ g ∈ m.whereFields, _))

theorem isPlain_fill (m : Mapping) (t : ValueType) {v : Value} (hv : v.isPlain = true) :
    (m.fill t v).isPlain = true := by
  unfold fill
  split
  · cases t <;> rfl
  · exact hv

theorem same_of_identity (h : stored.agrees (m.identity row) = true) {g : Field}
    (hg : g ∈ m.whereFields) : (stored.column g.columnName).same (m.boundValue g row) = true :=
  List.all_eq_true.mp h _ (mem_bound m hg row)

/-- Stored rows of one identity are alike in their keys. -/
theorem keyedAlike_of_identity (hrow : m.PlainKeys row) (hx : x.agrees (m.identity row) = true)
    (hy : y.agrees (m.identity row) = true) : m.KeyedAlike x y := by
  have halike : ∀ a b : StoredRow, a.agrees (m.identity row) = true →
      b.agrees (m.identity row) = true → a.agreesWith b (columns m.whereFields) = true := by
    intro a b ha hb
    rw [StoredRow.agreesWith, StoredRow.agrees, List.all_eq_true, columns, List.map_map]
    intro e he
    obtain ⟨g, hg, rfl⟩ := List.mem_map.mp he
    exact Value.same_of_same (m.isPlain_fill g.valueType (hrow g hg)) (same_of_identity ha hg)
      (same_of_identity hb hg)
  exact ⟨halike x y hx hy, halike y x hy hx⟩

/-- An update takes one row at the most. -/
theorem Tracked.updated_le_one {c : String} (hs : m.Tracked c first s) (hrow : m.PlainKeys row) :
    (m.updated row s).1 ≤ 1 := by
  rw [updated_count]
  have hunique := hs.unique.sublist (List.filter_sublist (p := (·.agrees (m.version row))))
  have hagrees : ∀ z ∈ (m.rowsIn s).filter (·.agrees (m.version row)),
      z.agrees (m.version row) = true := fun z hz => (List.mem_filter.mp hz).2
  generalize (m.rowsIn s).filter (·.agrees (m.version row)) = taken at hunique hagrees ⊢
  rcases taken with _ | ⟨a, _ | ⟨b, taken⟩⟩
  · exact Nat.zero_le 1
  · exact Nat.le_refl 1
  · have ha := hagrees a List.mem_cons_self
    have hb := hagrees b (List.mem_cons_of_mem a List.mem_cons_self)
    have hne := (List.pairwise_cons.mp hunique).1 b List.mem_cons_self
    exact absurd (keyedAlike_of_identity hrow (agrees_of_version ha) (agrees_of_version hb)) hne

/-! ## Versions that a row stands for -/

/-- The stamp that a row carries is none, or one of a tick or of an earlier one. -/
def Recalls (f : Field) (p : Supply) (ticks : Nat) (row : Row) : Prop :=
  row.getD f.index .null = .null ∨
    ∃ z, (row.getD f.index .null).moment? = some z ∧ z ≤ p.moment ticks

/-- An update takes no row but one with the stamp that the client's row carries. -/
theorem same_of_version (hf : m.schema.timestampField? = some f) (ht : f.valueType = .timestamp)
    (h : stored.agrees (m.version row) = true) :
    (stored.column f.columnName).same (row.getD f.index .null) = true := by
  have hfill : m.boundValue f row = row.getD f.index .null := by
    rw [boundValue, fill, ht]
    simp [ValueType.isNumeric]
  have hm : f ∈ m.updateConditions := by
    rw [updateConditions, hf]
    simp
  rw [← hfill]
  exact List.all_eq_true.mp h _ (mem_bound m hm row)

theorem stampedBy_of_version (hf : m.schema.timestampField? = some f)
    (ht : f.valueType = .timestamp) (hrow : Recalls f p ticks row) {later : Nat}
    (hby : stored.StampedBy p f.columnName later) (h : stored.agrees (m.version row) = true) :
    stored.StampedBy p f.columnName ticks := by
  have hsame := same_of_version hf ht h
  rcases hrow with hnull | ⟨z, hz, hle⟩
  · obtain ⟨y, hy, -⟩ := hby
    obtain ⟨t, hstamp, -⟩ := Value.moment?_eq_some hy
    rw [hnull, hstamp] at hsame
    cases hsame
  · exact ⟨z, Value.moment?_of_same hsame hz, hle⟩

theorem reaches_updatedAll (m : Mapping) (batch : List Row) (s : TableStore) :
    m.Reaches s (m.updatedAll batch s).2 := by
  induction batch generalizing s with
  | nil => exact .refl
  | cons row batch ih => exact .head (.updated row) (ih _)

namespace Keyed

variable (h : m.Keyed) (hf : m.schema.timestampField? = some f)
include h hf

/-- As many updates as there are rows take at most one stored row each. -/
theorem updatedAll_le {batch : List Row} (hp : s.supply.Advances first last)
    (hs : m.Tracked f.columnName first s) (hplain : ∀ row ∈ batch, m.PlainKeys row)
    (hlast : (m.updatedAll batch s).2.ticks ≤ last) :
    (m.updatedAll batch s).1 ≤ batch.length := by
  induction batch generalizing s with
  | nil => exact Nat.le_refl 0
  | cons row batch ih =>
    obtain ⟨hrow, hbatch⟩ := List.forall_mem_cons.mp hplain
    have hticks := (reaches_updatedAll m batch (m.updated row s).2).ticks_le.2.trans hlast
    obtain ⟨htracked, hfollows⟩ := h.tracked_of_writes hf hp hs (.updated row) hticks
    have hrest := ih (hfollows.supply ▸ hp) htracked hbatch hlast
    have hhead := hs.updated_le_one hrow
    rw [updatedAll, List.length_cons]
    dsimp only
    omega

/-- If as many stored rows were taken as there were updates by rows with stamps up to a tick,
then each took one that was there from the beginning, no two the same, and none is left. -/
theorem taken_of_updatedAll (ht : f.valueType = .timestamp) {batch : List Row}
    (hp : s.supply.Advances first last) (hs : m.Tracked f.columnName first s)
    (hfirst : first ≤ ticks) (hticks : ticks ≤ s.ticks)
    (hrecalls : ∀ row ∈ batch, Recalls f s.supply ticks row)
    (hplain : ∀ row ∈ batch, m.PlainKeys row) (hlast : (m.updatedAll batch s).2.ticks ≤ last)
    (hall : (m.updatedAll batch s).1 = batch.length) :
    ∃ taken, List.Forall₂ (fun row stored => stored.agrees (m.version row) = true) batch taken ∧
      taken.Nodup ∧ ∀ stored ∈ taken, (stored ∈ m.rowsIn s ∧
        stored.StampedBy s.supply f.columnName ticks) ∧ stored ∉ m.rowsIn (m.updatedAll batch s).2 := by
  induction batch generalizing s with
  | nil => exact ⟨[], .nil, .nil, by simp⟩
  | cons row batch ih =>
    obtain ⟨hrow, hbatch⟩ := List.forall_mem_cons.mp hplain
    obtain ⟨hrowRecalls, hbatchRecalls⟩ := List.forall_mem_cons.mp hrecalls
    have hrest : m.Reaches (m.updated row s).2 (m.updatedAll (row :: batch) s).2 :=
      reaches_updatedAll m batch (m.updated row s).2
    have hmiddle := hrest.ticks_le.2.trans hlast
    obtain ⟨htracked, hfollows⟩ := h.tracked_of_writes hf hp hs (.updated row) hmiddle
    have hp' : (m.updated row s).2.supply.Advances first last := hfollows.supply ▸ hp
    have hsum : (m.updated row s).1 + (m.updatedAll batch (m.updated row s).2).1 =
        batch.length + 1 := hall
    -- Each of the updates took exactly one row, for none took more than one.
    have hhead := hs.updated_le_one hrow
    have htail := h.updatedAll_le hf hp' htracked hbatch hlast
    have hpositive : 0 < ((m.rowsIn s).filter (·.agrees (m.version row))).length := by
      rw [← updated_count]
      omega
    obtain ⟨stored, hstored⟩ := List.exists_mem_of_length_pos hpositive
    obtain ⟨hin, hagrees⟩ := List.mem_filter.mp hstored
    have hby := stampedBy_of_version hf ht hrowRecalls (hs.stamped.bounded stored hin) hagrees
    obtain ⟨taken, htaken, hnodup, hold⟩ := ih hp' htracked (hticks.trans hfollows.ticks)
      (hfollows.supply ▸ hbatchRecalls) hbatch hlast (by omega)
    rw [hfollows.supply] at hold
    -- What the other updates took was there before, and is not what the first one took.
    have hbefore : ∀ other, other ∈ m.rowsIn (m.updated row s).2 →
        other.StampedBy s.supply f.columnName ticks →
        other ∈ m.rowsIn s ∧ other.agrees (m.version row) = false := by
      intro other ho hother
      exact (h.stamped_updated hf hp hs row hmiddle).2 other ho
        (hother.mono hp hfirst hticks (hfollows.ticks.trans hmiddle))
    have hgone : stored ∉ m.rowsIn (m.updated row s).2 := by
      intro hm
      have hnot := (hbefore stored hm hby).2
      rw [hagrees] at hnot
      cases hnot
    refine ⟨stored :: taken, .cons hagrees htaken, List.nodup_cons.mpr ⟨?_, hnodup⟩, ?_⟩
    · intro hm
      exact hgone (hold stored hm).1.1
    · intro other ho
      rcases List.mem_cons.mp ho with rfl | ho
      · refine ⟨⟨hin, hby⟩, fun hm => hgone ?_⟩
        refine (h.tracked_of_reaches hf hp' htracked hrest hlast).2.old other hm ?_
        rw [hfollows.supply]
        exact hby.mono hp hfirst (hticks.trans hfollows.ticks) hmiddle
      · obtain ⟨⟨hm, hother⟩, hnot⟩ := hold other ho
        exact ⟨⟨(hbefore other hm hother).1, hother⟩, hnot⟩

end Keyed

end Mapping

end Tablewright
