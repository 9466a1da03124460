import Tablewright.Filter.Operator
import Tablewright.Value.Same

/-! The order of values as a database sees it. Values of one kind are ordered, numbers of
any kind by what they amount to; null and a missing number are in no order with anything.
Values that are level in this order are equal in the sense in which stores compare them. -/

namespace Tablewright

namespace Value

def orderDates (d e : Date) : Ordering :=
  (compare d.year e.year).then ((compare d.month e.month).then (compare d.day e.day))

/-- Two clocks with known offsets are ordered by the moment, two without by the reading. -/
def orderTimestamps (s t : Timestamp) : Option Ordering :=
  match s.instant?, t.instant? with
  | some x, some y => some (compare x y)
  | none, none => some (compare s.localMicros t.localMicros)
  | _, _ => none

/-- An infinity is beyond every number on its side. -/
def orderNumbers (a b : Value) : Option Ordering :=
  match a.amount?, b.amount? with
  | some x, some y => some (x.order y)
  | some _, none => b.infinity?.map fun negative => if negative then .gt else .lt
  | none, some _ => a.infinity?.map fun negative => if negative then .lt else .gt
  | none, none =>
    match a.infinity?, b.infinity? with
    | some x, some y => some (compare y x)
    | _, _ => none

/-- The order of two values, if they have one. -/
def order? : Value → Value → Option Ordering
  | text s, text t => some (compare s t)
  | date d, date e => some (orderDates d e)
  | timestamp s, timestamp t => orderTimestamps s t
  | a, b => orderNumbers a b

theorem orderDates_eq {d e : Date} (h : orderDates d e = .eq) : d = e := by
  obtain ⟨year, month, day, _⟩ := d
  obtain ⟨year', month', day', _⟩ := e
  simp only [orderDates, Ordering.then_eq_eq, Nat.compare_eq_eq] at h
  obtain ⟨rfl, rfl, rfl⟩ := h
  rfl

theorem orderTimestamps_eq {s t : Timestamp} (h : orderTimestamps s t = some .eq) :
    s.same t = true := by
  unfold orderTimestamps at h
  unfold Timestamp.same
  cases hs : s.instant? with
  | some x =>
    cases ht : t.instant? with
    | some y =>
      rw [hs, ht] at h
      exact beq_iff_eq.mpr (Int.compare_eq_eq.mp (Option.some.inj h))
    | none =>
      rw [hs, ht] at h
      cases h
  | none =>
    cases ht : t.instant? with
    | some y =>
      rw [hs, ht] at h
      cases h
    | none =>
      rw [hs, ht] at h
      exact beq_iff_eq.mpr (Int.compare_eq_eq.mp (Option.some.inj h))

/-! ## Numbers -/

/-- Whether a value is a number or an infinity. -/
def isNumber (v : Value) : Bool := v.amount?.isSome || v.infinity?.isSome

/-- Equality of numbers and infinities. -/
def sameNumbers (a b : Value) : Bool :=
  match a.amount?, b.amount? with
  | some x, some y => x.same y
  | none, none =>
    match a.infinity?, b.infinity? with
    | some x, some y => x == y
    | _, _ => false
  | _, _ => false

theorem isNumber_of_order {a b : Value} {o : Ordering} (h : orderNumbers a b = some o) :
    a.isNumber = true ∧ b.isNumber = true := by
  unfold orderNumbers at h
  rw [isNumber, isNumber]
  cases ha : a.amount? with
  | some x =>
    cases hb : b.amount? with
    | some y => exact ⟨rfl, rfl⟩
    | none =>
      rw [ha, hb] at h
      obtain ⟨negative, hn, -⟩ := Option.map_eq_some_iff.mp h
      exact ⟨rfl, by rw [hn]; rfl⟩
  | none =>
    cases hb : b.amount? with
    | some y =>
      rw [ha, hb] at h
      obtain ⟨negative, hn, -⟩ := Option.map_eq_some_iff.mp h
      exact ⟨by rw [hn]; rfl, rfl⟩
    | none =>
      rw [ha, hb] at h
      dsimp only at h
      split at h
      · rename_i hx hy
        exact ⟨by rw [hx]; rfl, by rw [hy]; rfl⟩
      · cases h

theorem sameNumbers_of_order {a b : Value} (h : orderNumbers a b = some .eq) :
    a.sameNumbers b = true := by
  unfold orderNumbers at h
  unfold sameNumbers
  cases ha : a.amount? with
  | some x =>
    cases hb : b.amount? with
    | some y =>
      rw [ha, hb] at h
      exact beq_iff_eq.mpr (Option.some.inj h)
    | none =>
      rw [ha, hb] at h
      obtain ⟨negative, -, hn⟩ := Option.map_eq_some_iff.mp h
      cases negative <;> cases hn
  | none =>
    cases hb : b.amount? with
    | some y =>
      rw [ha, hb] at h
      obtain ⟨negative, -, hn⟩ := Option.map_eq_some_iff.mp h
      cases negative <;> cases hn
    | none =>
      rw [ha, hb] at h
      dsimp only at h ⊢
      split at h
      · rename_i x y hx hy
        cases x <;> cases y <;> first | rfl | cases h
      · cases h

/-- Whether a value is of a numeric kind, marks of missing numbers included. -/
def isNumeric : Value → Bool
  | bool _ | int _ | decimal _ | nonFinite _ | float _ => true
  | _ => false

theorem isNumeric_of_isNumber {a : Value} (h : a.isNumber = true) : a.isNumeric = true := by
  cases a <;> first | rfl | cases h

/-- Whether a value holds no others. -/
def isPlain : Value → Bool
  | list _ | map _ => false
  | _ => true

theorem isPlain_of_isNumeric {a : Value} (h : a.isNumeric = true) : a.isPlain = true := by
  cases a <;> first | rfl | cases h

/-- A number is compared as numbers are, whatever plain value it is compared with. -/
theorem same_of_numeric {a b : Value} (h : a.isNumeric = true ∨ b.isNumeric = true)
    (ha : a.isPlain = true) (hb : b.isPlain = true) : a.same b = a.sameNumbers b := by
  have hcompared : a.same b = a.sameScalar b := by
    cases a with
    | list | map => cases ha
    | _ =>
      cases b with
      | list | map => cases hb
      | _ =>
        rw [same]
        all_goals intros; contradiction
  rw [hcompared]
  unfold sameScalar
  split
  all_goals first | rfl | (rcases h with h | h <;> cases h)

/-- Values that are level in the order are equal. -/
theorem same_of_order {a b : Value} (h : a.order? b = some .eq) : a.same b = true := by
  unfold order? at h
  split at h
  · rename_i s t
    have hst : s = t := by simpa using Option.some.inj h
    rw [hst]
    simp [same, sameScalar]
  · rw [orderDates_eq (Option.some.inj h)]
    simp [same, sameScalar]
  · have hsame := orderTimestamps_eq h
    simpa [same, sameScalar] using hsame
  · obtain ⟨ha, hb⟩ := isNumber_of_order h
    have hnumeric := isNumeric_of_isNumber ha
    rw [same_of_numeric (.inl hnumeric) (isPlain_of_isNumeric hnumeric)
      (isPlain_of_isNumeric (isNumeric_of_isNumber hb))]
    exact sameNumbers_of_order h

end Value

namespace Comparison

/-- The orders in which a comparison holds. -/
def admits : Comparison → Ordering → Bool
  | eq, o => o == .eq
  | ne, o => o != .eq
  | lt, o => o == .lt
  | le, o => o != .gt
  | gt, o => o == .gt
  | ge, o => o != .lt

/-- Whether two values compare so. Without an order between them no comparison holds. -/
def holds (c : Comparison) (a b : Value) : Bool := (a.order? b).any c.admits

/-- What compares equal is level. -/
theorem order_of_eq {a b : Value} (h : eq.holds a b = true) : a.order? b = some .eq := by
  unfold holds at h
  cases ho : a.order? b with
  | none =>
    rw [ho] at h
    cases h
  | some o =>
    rw [ho] at h
    exact congrArg some (beq_iff_eq.mp h)

end Comparison

end Tablewright
