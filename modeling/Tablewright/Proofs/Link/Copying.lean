import Mathlib.Data.List.Nodup
import Tablewright.Proofs.Hearing
import Tablewright.Proofs.Link.Bounds
import Tablewright.Proofs.Mapping.Marshal

/-! Copying a parent's values into a child row. Each column of a link then holds the parent's
value of a field that it is paired with, and all else is as it was. -/

namespace Tablewright

open Work

/-- Every row has as many values as before. -/
def SameLengths (rows rows' : List Row) : Prop :=
  ∀ r, (rows'.getD r []).length = (rows.getD r []).length

theorem SameLengths.trans {rows rows' rows'' : List Row} (h : SameLengths rows rows')
    (h' : SameLengths rows' rows'') : SameLengths rows rows'' := fun r => (h' r).trans (h r)

theorem sameLengths_set {rows : List Row} {r : RowRef} {row : Row}
    (h : row.length = (rows.getD r []).length) : SameLengths rows (rows.set r row) := by
  intro o
  rcases getD_set rows r o row [] with ⟨rfl, hset⟩ | hset
  · rw [hset, h]
  · rw [hset]

/-- The row that was put at a place stands there, if the place was there or the row is empty. -/
theorem getD_set_row {rows : List Row} {r : RowRef} {row : Row}
    (h : row.length = (rows.getD r []).length) : (rows.set r row).getD r [] = row := by
  by_cases hr : r < rows.length
  · exact getD_set_self hr ..
  · have hnone : rows.getD r [] = [] := by
      rw [List.getD_eq_getElem?_getD, List.getElem?_eq_none (Nat.le_of_not_lt hr)]
      rfl
    rw [List.set_eq_of_length_le (Nat.le_of_not_lt hr), hnone]
    rw [hnone] at h
    exact (List.eq_nil_of_length_eq_zero h).symm

namespace Link

variable {pairs : List (Field × Field)} {parent child : RowRef} {rows : List Row}

/-! ## The parent's values in a child row -/

/-- The values that a parent row has for the link's columns. -/
def values (l : Link) (parent : Row) : List Value :=
  l.parentFields.map fun p => parent.getD p.index .null

/-- The rows with the parent's value of one pair in a child row. -/
def copiedPair (parent child : RowRef) (e : Field × Field) (rows : List Row) : List Row :=
  rows.set child ((rows.getD child []).set e.2.index ((rows.getD parent []).getD e.1.index .null))

/-- The rows with the parent's values in a child row, pair after pair. -/
def copied (parent child : RowRef) (pairs : List (Field × Field)) (rows : List Row) : List Row :=
  pairs.foldl (fun rows e => copiedPair parent child e rows) rows

theorem sameLengths_copiedPair (parent child : RowRef) (e : Field × Field) (rows : List Row) :
    SameLengths rows (copiedPair parent child e rows) := sameLengths_set List.length_set

theorem sameLengths_copied : SameLengths rows (copied parent child pairs rows) := by
  induction pairs generalizing rows with
  | nil => exact fun _ => rfl
  | cons e pairs ih => exact (sameLengths_copiedPair parent child e rows).trans ih

theorem copied_of_ne {o : RowRef} (ho : o ≠ child) :
    (copied parent child pairs rows).getD o [] = rows.getD o [] := by
  induction pairs generalizing rows with
  | nil => rfl
  | cons e pairs ih => exact ih.trans (getD_set_of_ne _ ho ..)

/-! ## A row with its parent's values -/

/-- A child row with the values of a parent row in the columns of some pairs. -/
def carry (parent : Row) (pairs : List (Field × Field)) (child : Row) : Row :=
  pairs.foldl (fun row e => row.set e.2.index (parent.getD e.1.index .null)) child

/-- A child row with the values of a parent row in the columns of the link. -/
def carried (l : Link) (parent child : Row) : Row := carry parent l.pairs child

theorem length_carry (parent : Row) (pairs : List (Field × Field)) (child : Row) :
    (carry parent pairs child).length = child.length := by
  induction pairs generalizing child with
  | nil => rfl
  | cons e pairs ih => exact (ih _).trans List.length_set

/-- Copying into a row that is not the parent's changes this row alone. -/
theorem copied_eq (pairs : List (Field × Field)) (hne : parent ≠ child) (rows : List Row) :
    copied parent child pairs rows =
      rows.set child (carry (rows.getD parent []) pairs (rows.getD child [])) := by
  induction pairs generalizing rows with
  | nil => exact (set_getD rows child []).symm
  | cons e pairs ih =>
    have hrest := ih (copiedPair parent child e rows)
    have hrow : (copiedPair parent child e rows).getD child [] =
        (rows.getD child []).set e.2.index ((rows.getD parent []).getD e.1.index .null) :=
      getD_set_row List.length_set
    rw [hrow, copiedPair, getD_set_of_ne _ hne, List.set_set] at hrest
    exact hrest

theorem getD_copied (l : Link) (hne : parent ≠ child) :
    (copied parent child l.pairs rows).getD child [] =
      l.carried (rows.getD parent []) (rows.getD child []) := by
  rw [copied_eq _ hne]
  exact getD_set_row (length_carry ..)

/-- What is at a place of the child row is a value of the parent, unless no pair has that place. -/
theorem carry_place (parent : Row) (pairs : List (Field × Field)) (child : Row) {i : Nat}
    (hi : i < child.length) :
    (∃ p c, (p, c) ∈ pairs ∧ c.index = i ∧
      (carry parent pairs child).getD i .null = parent.getD p.index .null) ∨
    (∀ e ∈ pairs, e.2.index ≠ i) ∧ (carry parent pairs child).getD i .null = child.getD i .null := by
  induction pairs generalizing child with
  | nil => exact .inr ⟨by simp, rfl⟩
  | cons e pairs ih =>
    rcases ih (child.set e.2.index (parent.getD e.1.index .null)) (by rwa [List.length_set]) with
      ⟨p, c, hmem, hindex, hvalue⟩ | ⟨hno, hvalue⟩
    · exact .inl ⟨p, c, List.mem_cons_of_mem _ hmem, hindex, hvalue⟩
    · by_cases hc : e.2.index = i
      · subst hc
        exact .inl ⟨e.1, e.2, List.mem_cons_self, rfl, hvalue.trans (getD_set_self hi ..)⟩
      · refine .inr ⟨List.forall_mem_cons.mpr ⟨hc, hno⟩, hvalue.trans ?_⟩
        exact getD_set_of_ne _ (Ne.symm hc) ..

/-- If no two pairs have the same place, each leaves the parent's value at its own. -/
theorem carry_once {pairs : List (Field × Field)} (h : (pairs.map (·.2.index)).Nodup)
    {parent child : Row} {e : Field × Field} (he : e ∈ pairs) (hi : e.2.index < child.length) :
    (carry parent pairs child).getD e.2.index .null = parent.getD e.1.index .null := by
  rcases carry_place parent pairs child hi with ⟨p, c, hpair, hindex, hvalue⟩ | ⟨hnone, -⟩
  · obtain rfl : (p, c) = e := List.inj_on_of_nodup_map h hpair he hindex
    exact hvalue
  · exact absurd rfl (hnone e he)

/-- Each of the link's columns holds the parent's value of a pair. -/
theorem carried_columns {l : Link} {schema : RecordSchema} (hl : l.Built schema) {parent child : Row}
    (hlen : child.length = l.child.schema.fields.length) {f : Field} (hf : f ∈ l.childFields) :
    ∃ p, (p, f) ∈ l.pairs ∧
      (l.carried parent child).getD f.index .null = parent.getD p.index .null := by
  have hsound := hl.child.sound
  have hfield := hl.sound.children f hf
  rcases carry_place parent l.pairs child (hlen ▸ hsound.index_lt hfield) with
    ⟨p, c, hmem, hindex, hvalue⟩ | ⟨hno, -⟩
  · have hc := hl.sound.children c (List.mem_map_of_mem hmem)
    obtain rfl := hsound.eq_of_index hc hfield hindex
    exact ⟨p, hmem, hvalue⟩
  · obtain ⟨e, he, rfl⟩ := List.mem_map.mp hf
    exact absurd rfl (hno e he)

section

variable {σ : Type} {h : Handle σ} {K : σ → Prop}

/-- The values that a row has for the link's columns, if it has all the places. -/
theorem ensures_valuesFor {l : Link} {r : RowRef} : Ensures h (Standing rows K) (l.valuesFor r)
    (fun values w s => values = l.values (rows.getD r []) ∧ Standing rows K w s)
    (fun w s => (∃ p ∈ l.parentFields, (rows.getD r []).length ≤ p.index) ∧
      Standing rows K w s) := by
  have hvalue : ∀ p ∈ l.parentFields, Ensures h (Standing rows K) (valueAt r p.index)
      (fun v w s => (rows.getD r []).getD p.index .null = v ∧ Standing rows K w s)
      (fun w s => (∃ p ∈ l.parentFields, (rows.getD r []).length ≤ p.index) ∧
        Standing rows K w s) := fun p hp =>
    ensures_valueAt.imp (fun _ _ => id) (fun v w s hpre => ⟨hpre.1.2.symm, hpre.2⟩)
      fun w s hpre => ⟨⟨p, hp, hpre.1⟩, hpre.2⟩
  refine (ensures_mapM hvalue).imp (fun _ _ => id) ?_ fun _ _ => id
  intro values w s hpre
  have hmap := List.forall₂_map_left_iff.mpr hpre.1
  rw [List.forall₂_eq_eq_eq] at hmap
  exact ⟨hmap.symm, hpre.2⟩

/-- A row that has all places of the link has values for it. -/
theorem ensures_knownValues {l : Link} {r : RowRef} {E : Fact σ}
    (hp : ∀ p ∈ l.parentFields, p.index < (rows.getD r []).length) :
    Ensures h (Standing rows K) (l.valuesFor r)
      (fun values w s => values = l.values (rows.getD r []) ∧ Standing rows K w s) E := by
  refine ensures_valuesFor.imp (fun _ _ => id) (fun _ _ _ => id) ?_
  intro w s hpre
  obtain ⟨⟨p, hm, hle⟩, -⟩ := hpre
  exact absurd (hp p hm) (Nat.not_lt.mpr hle)

/-- Copying ends with the parent's values in the child row, or fails and has changed no other row. -/
theorem ensures_copies : Ensures h (Standing rows K)
    (pairs.forM fun (p, c) => do setAt child c.index (← valueAt parent p.index))
    (fun _ => Standing (copied parent child pairs rows) K)
    (fun w s => (∃ row, w.rows = rows.set child row) ∧ K s) := by
  induction pairs generalizing rows with
  | nil => exact ensures_pure fun _ _ => id
  | cons e pairs ih =>
    have hfailed : ∀ w s, Standing rows K w s → (∃ row, w.rows = rows.set child row) ∧ K s :=
      fun w s hpre => ⟨⟨_, hpre.1.trans (set_getD rows child []).symm⟩, hpre.2⟩
    have hset : Ensures h (Standing rows K) (do setAt child e.2.index (← valueAt parent e.1.index))
        (fun _ => Standing (copiedPair parent child e rows) K)
        (fun w s => (∃ row, w.rows = rows.set child row) ∧ K s) := by
      refine (ensures_valueAt.imp (fun _ _ => id) (fun _ _ _ => id)
        fun w s hpre => hfailed w s hpre.2).bind fun v => ensures_of fun hv => ?_
      obtain ⟨-, rfl⟩ := hv
      exact ensures_place.imp (fun _ _ => id) (fun _ _ _ => id) hfailed
    refine hset.bind fun _ => ih.imp (fun _ _ => id) (fun _ _ _ => id) ?_
    intro w s hpre
    obtain ⟨⟨row, hrow⟩, hs⟩ := hpre
    exact ⟨⟨row, by rw [hrow, copiedPair, List.set_set]⟩, hs⟩

end

section

variable {σ : Type} {h : Handle σ} {messages : List Message} {heard : List AnsweredCall}

theorem tells_copies (hp : ∀ e ∈ pairs, e.1.index < (rows.getD parent []).length)
    (hc : ∀ e ∈ pairs, e.2.index < (rows.getD child []).length) :
    Tells h (Heard rows messages heard)
      (pairs.forM fun (p, c) => do setAt child c.index (← valueAt parent p.index))
      (fun _ => Heard (copied parent child pairs rows) messages heard) := by
  induction pairs generalizing rows with
  | nil => exact ensures_pure fun _ _ hpre => hpre
  | cons e pairs ih =>
    obtain ⟨hp₁, hp⟩ := List.forall_mem_cons.mp hp
    obtain ⟨hc₁, hc⟩ := List.forall_mem_cons.mp hc
    have hset : Tells h (Heard rows messages heard)
        (do setAt child e.2.index (← valueAt parent e.1.index))
        (fun _ => Heard (copiedPair parent child e rows) messages heard) := by
      refine (tells_valueAt hp₁).bind fun v => ensures_of fun hv => ?_
      subst hv
      exact tells_setAt hc₁
    have hlen := sameLengths_copiedPair parent child e rows
    refine hset.bind fun _ => ih (fun a ha => ?_) fun a ha => ?_
    · exact Nat.lt_of_lt_of_eq (hp a ha) (hlen parent).symm
    · exact Nat.lt_of_lt_of_eq (hc a ha) (hlen child).symm

end

end Link

end Tablewright
