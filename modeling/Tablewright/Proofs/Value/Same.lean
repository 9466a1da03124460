import Mathlib.Algebra.Order.Field.Basic
import Mathlib.Data.Rat.Lemmas
import Mathlib.Data.Prod.Lex
import Tablewright.Proofs.Value.Order

/-! Equality of plain values. Every value that holds no others amounts to something, unless it
is the mark of a missing number, and two of them are equal if they amount to the same thing.
So equality is symmetric and transitive, and a value that equals any equals itself. -/

namespace Tablewright

namespace Decimal

/-- A magnitude without its form: the leading power of ten and the number. Zero has the
leading power zero, whatever its form. -/
def magnitude (d : Decimal) : Int × ℚ :=
  if d.coefficient = 0 then (0, 0) else (d.adjusted, d.coefficient * (10 : ℚ) ^ d.exponent)

/-- A decimal without its form. -/
def amount (d : Decimal) : Bool × Int × ℚ := (d.negative && d.coefficient != 0, d.magnitude)

/-- Coefficients in the smaller unit of two decimals are equal if the numbers are. -/
theorem scaled_eq_iff (m n : Nat) (a b : Int) :
    m * Nat.pow 10 (a - b).toNat = n * Nat.pow 10 (b - a).toNat ↔
      (m : ℚ) * (10 : ℚ) ^ a = n * (10 : ℚ) ^ b := by
  have hunit : ∀ (k : Nat) (x y : Int), (k : ℚ) * (10 : ℚ) ^ x =
      ((k * Nat.pow 10 (x - y).toNat : Nat) : ℚ) * (10 : ℚ) ^ (min x y) := by
    intro k x y
    have hexp : x = ((x - y).toNat : Int) + min x y := by omega
    have hpow : (10 : ℚ) ^ x = (10 : ℚ) ^ (x - y).toNat * (10 : ℚ) ^ min x y := by
      rw [← zpow_natCast, ← zpow_add₀ (by norm_num), ← hexp]
    rw [hpow, Nat.cast_mul, show Nat.pow 10 (x - y).toNat = 10 ^ (x - y).toNat from rfl]
    rw [Nat.cast_pow, Nat.cast_ofNat, mul_assoc]
  rw [hunit m a b, hunit n b a, min_comm b a]
  have hne : (10 : ℚ) ^ min a b ≠ 0 := zpow_ne_zero _ (by norm_num)
  rw [mul_left_inj' hne, Nat.cast_inj]

theorem compareMagnitude_eq (a b : Decimal) :
    a.compareMagnitude b = .eq ↔ a.magnitude = b.magnitude := by
  have hpositive : ∀ d : Decimal, d.coefficient ≠ 0 → (d.coefficient * (10 : ℚ) ^ d.exponent) ≠ 0 :=
    fun d hd => mul_ne_zero (Nat.cast_ne_zero.mpr hd) (zpow_ne_zero _ (by norm_num))
  unfold compareMagnitude magnitude
  by_cases ha : a.coefficient = 0
  · by_cases hb : b.coefficient = 0
    · simp [ha, hb]
    · have hne := hpositive b hb
      simp only [ha, hb, true_or, if_true, if_false, Prod.mk.injEq, Nat.compare_eq_eq]
      exact ⟨fun h => absurd h.symm hb, fun h => absurd h.2.symm hne⟩
  · by_cases hb : b.coefficient = 0
    · simp [ha, hb, hpositive a ha]
    · rw [if_neg (by simp [ha, hb]), if_neg ha, if_neg hb, Prod.mk.injEq, ← scaled_eq_iff]
      cases hadjusted : compare a.adjusted b.adjusted with
      | eq => simp [Int.compare_eq_eq.mp hadjusted]
      | lt =>
        have hlt := Int.compare_eq_lt.mp hadjusted
        simp [hlt.ne]
      | gt =>
        have hgt := Int.compare_eq_gt.mp hadjusted
        simp [hgt.ne']

/-- Decimals are the same if they amount to the same number. -/
theorem same_iff (a b : Decimal) : a.same b = true ↔ a.amount = b.amount := by
  unfold same order amount
  rw [Prod.mk.injEq]
  cases ha : a.negative && a.coefficient != 0 <;> cases hb : b.negative && b.coefficient != 0
  · simp [compareMagnitude_eq]
  · simp
  · simp
  · simp [compareMagnitude_eq, eq_comm (a := b.magnitude)]

end Decimal

namespace Timestamp

/-- The place of a point in time among those of its kind: of clocks with a known offset the
moment, of others the reading. -/
def moment (t : Timestamp) : Lex (Bool × Int) :=
  toLex (match t.instant? with
    | some x => (true, x)
    | none => (false, t.localMicros))

theorem same_iff (s t : Timestamp) : s.same t = true ↔ s.moment = t.moment := by
  unfold same moment
  cases s.instant? <;> cases t.instant? <;> simp

end Timestamp

namespace Value

/-- What a plain value amounts to. -/
inductive Face where
  | null
  | text (s : String)
  | date (d : Date)
  | moment (m : Lex (Bool × Int))
  | number (x : Bool × Int × ℚ)
  | infinity (negative : Bool)

/-- What a number or an infinity amounts to. -/
def numberFace? (v : Value) : Option Face :=
  match v.amount? with
  | some d => some (.number d.amount)
  | none => v.infinity?.map .infinity

/-- What a value amounts to. A missing number, a list and a map amount to nothing. -/
def face? : Value → Option Face
  | null => some .null
  | text s => some (.text s)
  | date d => some (.date d)
  | timestamp t => some (.moment t.moment)
  | list _ | map _ => none
  | v => v.numberFace?

theorem sameNumbers_iff (a b : Value) : a.sameNumbers b = true ↔
    a.numberFace? = b.numberFace? ∧ b.numberFace?.isSome = true := by
  unfold sameNumbers numberFace?
  cases a.amount? <;> cases b.amount?
  · cases a.infinity? <;> cases b.infinity? <;> simp
  · cases a.infinity? <;> simp
  · cases b.infinity? <;> simp
  · simp [Decimal.same_iff]

theorem numberFace?_of_not {a : Value} (h : a.isNumeric = false) : a.numberFace? = none := by
  cases a <;> first | rfl | cases h

/-- A plain value of another kind amounts to no number. -/
theorem face?_ne_number {a b : Value} (ha : a.isPlain = true) (hn : a.isNumeric = false) :
    a.face? ≠ b.numberFace? := by
  have hnumber : ∀ x, b.numberFace? = some x → (∃ n, x = .number n) ∨ ∃ i, x = .infinity i := by
    intro x hx
    unfold numberFace? at hx
    split at hx
    · exact .inl ⟨_, (Option.some.inj hx).symm⟩
    · obtain ⟨i, -, rfl⟩ := Option.map_eq_some_iff.mp hx
      exact .inr ⟨i, rfl⟩
  intro hface
  cases a with
  | list | map => cases ha
  | bool | int | decimal | nonFinite | float => cases hn
  | null | text | date | timestamp =>
    obtain ⟨_, ⟨⟩⟩ | ⟨_, ⟨⟩⟩ := hnumber _ hface.symm

theorem face?_of_numeric {a : Value} (h : a.isNumeric = true) : a.face? = a.numberFace? := by
  cases a <;> first | rfl | cases h

/-- A plain value equals what amounts to the same. -/
theorem same_iff {a b : Value} (ha : a.isPlain = true) (hb : b.isPlain = true) :
    a.same b = true ↔ a.face? = b.face? ∧ b.face?.isSome = true := by
  cases hna : a.isNumeric with
  | true =>
    rw [same_of_numeric (.inl hna) ha hb, sameNumbers_iff, face?_of_numeric hna]
    cases hnb : b.isNumeric with
    | true => rw [face?_of_numeric hnb]
    | false =>
      rw [numberFace?_of_not hnb]
      exact ⟨by rintro ⟨-, ⟨⟩⟩, fun h => absurd h.1.symm (face?_ne_number hb hnb)⟩
  | false =>
    cases hnb : b.isNumeric with
    | true =>
      rw [same_of_numeric (.inr hnb) ha hb, sameNumbers_iff, face?_of_numeric hnb,
        numberFace?_of_not hna]
      refine ⟨fun h => ?_, fun h => absurd h.1 (face?_ne_number ha hna)⟩
      rw [← h.1] at h
      cases h.2
    | false =>
      cases b with
      | list | map => cases hb
      | bool | int | decimal | nonFinite | float => cases hnb
      | null | text | date | timestamp =>
        cases a with
        | list | map => cases ha
        | bool | int | decimal | nonFinite | float => cases hna
        | null | text | date | timestamp =>
          simp [same, sameScalar, face?, amount?, infinity?, Timestamp.same_iff]

/-- What equals a plain value is plain. -/
theorem isPlain_of_same {a b : Value} (hb : b.isPlain = true) (h : a.same b = true) :
    a.isPlain = true := by
  cases a with
  | list | map =>
    cases b with
    | list | map => cases hb
    | _ => simp [same] at h
  | _ => rfl

theorem same_comm {a b : Value} (hb : b.isPlain = true) (h : a.same b = true) : b.same a = true := by
  have ha := isPlain_of_same hb h
  obtain ⟨hface, hsome⟩ := (same_iff ha hb).mp h
  exact (same_iff hb ha).mpr ⟨hface.symm, hface ▸ hsome⟩

/-- Values that equal the same plain value equal each other. -/
theorem same_of_same {a b v : Value} (hv : v.isPlain = true) (ha : a.same v = true)
    (hb : b.same v = true) : a.same b = true := by
  have hpa := isPlain_of_same hv ha
  have hpb := isPlain_of_same hv hb
  obtain ⟨hfa, hsome⟩ := (same_iff hpa hv).mp ha
  obtain ⟨hfb, -⟩ := (same_iff hpb hv).mp hb
  exact (same_iff hpa hpb).mpr ⟨hfa.trans hfb.symm, hfb.symm ▸ hsome⟩

theorem same_trans {a b c : Value} (hc : c.isPlain = true) (hab : a.same b = true)
    (hbc : b.same c = true) : a.same c = true :=
  same_of_same (isPlain_of_same hc hbc) hab (same_comm hc hbc)

/-- What equals a plain value shows that this one equals itself, as a missing number does not. -/
theorem same_self_of_same {a b : Value} (hb : b.isPlain = true) (h : a.same b = true) :
    b.same b = true :=
  (same_iff hb hb).mpr ⟨rfl, ((same_iff (isPlain_of_same hb h) hb).mp h).2⟩

/-- Nothing but null amounts to null. -/
theorem face?_eq_null {v : Value} (h : v.face? = some .null) : v = .null := by
  cases v with
  | null => rfl
  | text | date | timestamp | list | map => simp [face?] at h
  | bool | int | decimal | nonFinite => simp [face?, numberFace?, amount?] at h
  | float x =>
    unfold face? numberFace? at h
    dsimp only at h
    split at h <;> simp at h

theorem isNull_of_same {a b : Value} (hb : b.isPlain = true) (h : a.same b = true) :
    a.isNull = b.isNull := by
  obtain ⟨hface, -⟩ := (same_iff (isPlain_of_same hb h) hb).mp h
  have hnull : ∀ v w : Value, v.face? = w.face? → v.isNull = true → w.isNull = true := by
    intro v w hvw hv
    cases v with
    | null =>
      rw [face?_eq_null hvw.symm]
      rfl
    | _ => cases hv
  exact Bool.eq_iff_iff.mpr ⟨hnull a b hface, hnull b a hface.symm⟩

/-! ## Points in time -/

/-- The place of a point in time; other values have none. -/
def moment? : Value → Option (Lex (Bool × Int))
  | timestamp t => some t.moment
  | _ => none

theorem moment?_eq_some {v : Value} {x : Lex (Bool × Int)} (h : v.moment? = some x) :
    ∃ t, v = .timestamp t ∧ t.moment = x := by
  cases v with
  | timestamp t => exact ⟨t, rfl, Option.some.inj h⟩
  | _ => cases h

theorem moment?_of_same {a b : Value} {x : Lex (Bool × Int)} (h : a.same b = true)
    (hb : b.moment? = some x) : a.moment? = some x := by
  obtain ⟨t, rfl, rfl⟩ := moment?_eq_some hb
  have ha := isPlain_of_same rfl h
  obtain ⟨hface, -⟩ := (same_iff ha rfl).mp h
  cases hn : a.isNumeric with
  | true =>
    rw [face?_of_numeric hn] at hface
    exact absurd hface.symm (face?_ne_number rfl rfl)
  | false =>
    cases a with
    | timestamp s => simpa [face?, moment?] using hface
    | list | map => cases ha
    | bool | int | decimal | nonFinite | float => cases hn
    | null | text | date => simp [face?] at hface

/-- A value that is in order with a point in time is one itself. -/
theorem order?_timestamp {a : Value} {t : Timestamp} {o : Ordering}
    (h : a.order? (.timestamp t) = some o) :
    ∃ s, a = .timestamp s ∧ orderTimestamps s t = some o := by
  have hnumber : ∀ a : Value, orderNumbers a (.timestamp t) ≠ some o := fun a ha =>
    nomatch (isNumber_of_order ha).2
  cases a with
  | timestamp s => exact ⟨s, rfl, h⟩
  | _ =>
    unfold order? at h
    exact absurd h (hnumber _)

theorem moment_of_order {s t : Timestamp} {o : Ordering} (h : orderTimestamps s t = some o) :
    (o = .lt → s.moment < t.moment) ∧ (o ≠ .gt → s.moment ≤ t.moment) := by
  have hint : ∀ x y : Int, (compare x y = .lt → x < y) ∧ (compare x y ≠ .gt → x ≤ y) :=
    fun x y => ⟨Int.compare_eq_lt.mp, fun hne => Int.not_lt.mp fun hlt => hne (Int.compare_eq_gt.mpr hlt)⟩
  unfold orderTimestamps at h
  unfold Timestamp.moment
  cases hs : s.instant? <;> cases ht : t.instant? <;> rw [hs, ht] at h
  · obtain rfl := Option.some.inj h
    simpa [Prod.Lex.toLex_lt_toLex, Prod.Lex.toLex_le_toLex] using hint s.localMicros t.localMicros
  · cases h
  · cases h
  · rename_i x y
    obtain rfl := Option.some.inj h
    simpa [Prod.Lex.toLex_lt_toLex, Prod.Lex.toLex_le_toLex] using hint x y

theorem moment?_of_lt {a b : Value} {y : Lex (Bool × Int)} (h : Comparison.lt.holds a b = true)
    (hb : b.moment? = some y) : ∃ x, a.moment? = some x ∧ x < y := by
  obtain ⟨t, rfl, rfl⟩ := moment?_eq_some hb
  obtain ⟨o, ho, hlt⟩ := (Option.any_eq_true ..).mp h
  obtain ⟨s, rfl, horder⟩ := order?_timestamp ho
  exact ⟨s.moment, rfl, (moment_of_order horder).1 (by simpa [Comparison.admits] using hlt)⟩

theorem moment?_of_le {a b : Value} {y : Lex (Bool × Int)} (h : Comparison.le.holds a b = true)
    (hb : b.moment? = some y) : ∃ x, a.moment? = some x ∧ x ≤ y := by
  obtain ⟨t, rfl, rfl⟩ := moment?_eq_some hb
  obtain ⟨o, ho, hle⟩ := (Option.any_eq_true ..).mp h
  obtain ⟨s, rfl, horder⟩ := order?_timestamp ho
  exact ⟨s.moment, rfl, (moment_of_order horder).2 (by simpa [Comparison.admits] using hle)⟩

end Value

end Tablewright
