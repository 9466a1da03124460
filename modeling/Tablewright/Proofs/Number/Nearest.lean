import Mathlib.Algebra.Order.Field.Basic
import Mathlib.Algebra.Order.Field.Rat
import Mathlib.Data.Rat.Cast.Order
import Mathlib.Tactic.Linarith
import Mathlib.Tactic.Ring
import Tablewright.Proofs.Number.Rounding

/-! The nearest integer as one of exact numbers. A decimal stands for a rational number, and the
integer that it is rounded to is nearer to this number than any other; of two that are equally
near it is the one away from zero. -/

namespace Tablewright

/-- No integer is nearer to `q` than `n`, and one that is as near is no further from zero. -/
def Nearest (q : ℚ) (n : ℤ) : Prop :=
  ∀ m : ℤ, |q - n| < |q - m| ∨ |q - n| = |q - m| ∧ |m| ≤ |n|

namespace Nearest

variable {q q' : ℚ} {n n' : ℤ}

theorem neg (h : Nearest q n) : Nearest (-q) (-n) := by
  intro m
  have hflip : ∀ k : ℤ, |-q - ((-k : ℤ) : ℚ)| = |q - k| := fun k => by
    rw [Int.cast_neg, ← abs_neg]
    ring_nf
  have hm := h (-m)
  rwa [← hflip n, ← hflip (-m), neg_neg, abs_neg, ← abs_neg n] at hm

theorem sub_half_le (h : Nearest q n) : (n : ℚ) - 1 / 2 ≤ q := by
  have hle : |q - n| ≤ |q - ((n - 1 : ℤ) : ℚ)| := (h (n - 1)).elim le_of_lt fun heq => heq.1.le
  push_cast at hle
  cases abs_cases (q - n) <;> cases abs_cases (q - (n - 1)) <;> linarith

/-- Above zero the nearest integer is found by rounding half up. -/
theorem iff_of_nonneg (hq : 0 ≤ q) : Nearest q n ↔ (n : ℚ) - 1 / 2 ≤ q ∧ q < n + 1 / 2 := by
  constructor
  · refine fun h => ⟨h.sub_half_le, ?_⟩
    rcases h (n + 1) with hlt | ⟨heq, haway⟩
    · push_cast at hlt
      cases abs_cases (q - n) <;> cases abs_cases (q - (n + 1)) <;> linarith
    · -- Two integers are equally near, so the other one is not further from zero.
      have hn : n < 0 := by
        cases abs_cases n <;> cases abs_cases (n + 1) <;> omega
      have hn : (n : ℚ) ≤ -1 := by exact_mod_cast Int.le_sub_one_of_lt hn
      push_cast at heq
      cases abs_cases (q - n) <;> cases abs_cases (q - (n + 1)) <;> linarith
  · rintro ⟨hlow, hhigh⟩ m
    rcases lt_trichotomy m n with hm | rfl | hm
    · have hm' : (m : ℚ) ≤ n - 1 := by exact_mod_cast Int.le_sub_one_of_lt hm
      rcases lt_or_ge (|q - n|) |q - m| with hlt | hge
      · exact .inl hlt
      · -- As near as `n` is only the integer before it.
        have heq : (m : ℚ) = n - 1 ∧ q = n - 1 / 2 := by
          cases abs_cases (q - n) <;> cases abs_cases (q - m) <;>
            exact ⟨by linarith, by linarith⟩
        have hm : m = n - 1 := by exact_mod_cast heq.1
        have hn : 0 < n := by
          have : (0 : ℚ) < n := by linarith [heq.2]
          exact_mod_cast this
        refine .inr ⟨?_, ?_⟩
        · rw [heq.1, heq.2]
          norm_num
        · rw [hm, abs_of_nonneg (by omega), abs_of_pos hn]
          omega
    · exact .inr ⟨rfl, le_rfl⟩
    · have hm' : (n : ℚ) + 1 ≤ m := by exact_mod_cast hm
      left
      cases abs_cases (q - n) <;> cases abs_cases (q - m) <;> linarith

theorem of_int (n : ℤ) : Nearest n n := by
  have h : ∀ k : ℤ, 0 ≤ k → Nearest k k := fun k hk =>
    (iff_of_nonneg (by exact_mod_cast hk)).mpr ⟨by linarith, by linarith⟩
  rcases le_total 0 n with hn | hn
  · exact h n hn
  · have hneg := (h (-n) (by omega)).neg
    rwa [Int.cast_neg, neg_neg, neg_neg] at hneg

/-- A number that is not below zero is rounded to one that is not either. -/
theorem nonneg (h : Nearest q n) (hq : 0 ≤ q) : 0 ≤ n := by
  have hn : (-1 : ℚ) < n := by linarith [((iff_of_nonneg hq).mp h).2]
  have hn : -1 < n := by exact_mod_cast hn
  omega

/-- Rounding keeps the order. -/
theorem mono (h : Nearest q n) (h' : Nearest q' n') (hle : q ≤ q') : n ≤ n' := by
  have hpos : ∀ {q q' : ℚ} {n n' : ℤ}, Nearest q n → Nearest q' n' → 0 ≤ q → q ≤ q' → n ≤ n' := by
    intro q q' n n' h h' hq hle
    have hlt : (n : ℚ) < n' + 1 := by
      linarith [h.sub_half_le, ((iff_of_nonneg (hq.trans hle)).mp h').2]
    have hlt : n < n' + 1 := by exact_mod_cast hlt
    omega
  rcases le_total 0 q with hq | hq
  · exact hpos h h' hq hle
  · rcases le_total 0 q' with hq' | hq'
    · have hn := h.neg.nonneg (neg_nonneg.mpr hq)
      have hn' := h'.nonneg hq'
      omega
    · exact neg_le_neg_iff.mp (hpos h'.neg h.neg (neg_nonneg.mpr hq') (neg_le_neg hle))

/-- There is one nearest integer only. -/
theorem unique (h : Nearest q n) (h' : Nearest q n') : n = n' :=
  le_antisymm (h.mono h' le_rfl) (h'.mono h le_rfl)

end Nearest

namespace Decimal

/-- The number that a decimal stands for. -/
def toRat (d : Decimal) : ℚ := signed d.negative d.coefficient * 10 ^ d.exponent

/-- The same without the sign. -/
def size (d : Decimal) : ℚ := d.coefficient * 10 ^ d.exponent

variable (d : Decimal)

theorem size_nonneg : 0 ≤ d.size :=
  mul_nonneg (Nat.cast_nonneg _) (zpow_nonneg (by norm_num) _)

theorem toRat_eq : d.toRat = if d.negative then -d.size else d.size := by
  unfold toRat size signed
  split <;> push_cast <;> ring

theorem coefficient_lt : d.coefficient < 10 ^ d.digits.length :=
  (Nat.length_toDigits_le_iff (by omega) Nat.length_toDigits_pos).mp le_rfl

theorem cast_pow_ten (k : ℕ) : ((Nat.pow 10 k : ℕ) : ℚ) = 10 ^ k := by
  rw [show Nat.pow 10 k = 10 ^ k from rfl, Nat.cast_pow, Nat.cast_ofNat]

/-- The quotient that a fraction is rounded to lies within half a unit of it. -/
theorem rounded_bounds (c : ℕ) {unit : ℕ} (hunit : 0 < unit) :
    (((2 * c + unit) / (2 * unit) : ℕ) : ℚ) - 1 / 2 ≤ c / unit ∧
      (c : ℚ) / unit < ((2 * c + unit) / (2 * unit) : ℕ) + 1 / 2 := by
  have hpos : (0 : ℚ) < unit := by exact_mod_cast hunit
  have hlow : ((2 * c + unit) / (2 * unit)) * (2 * unit) ≤ 2 * c + unit := Nat.div_mul_le_self ..
  have hhigh : 2 * c + unit < ((2 * c + unit) / (2 * unit) + 1) * (2 * unit) :=
    Nat.lt_mul_of_div_lt (Nat.lt_succ_self _) (by omega)
  generalize (2 * c + unit) / (2 * unit) = n at hlow hhigh
  have hlow : (n : ℚ) * (2 * unit) ≤ 2 * c + unit := by exact_mod_cast hlow
  have hhigh : (2 * c + unit : ℚ) < (n + 1) * (2 * unit) := by exact_mod_cast hhigh
  rw [le_div_iff₀ hpos, div_lt_iff₀ hpos]
  constructor <;> linarith

/-- The size is rounded half up. -/
theorem nearest_bounds : (d.nearest.natAbs : ℚ) - 1 / 2 ≤ d.size ∧
    d.size < d.nearest.natAbs + 1 / 2 := by
  rw [nearest, natAbs_signed]
  split
  · rename_i he
    have hsize : d.size = (d.coefficient * Nat.pow 10 d.exponent.toNat : ℕ) := by
      rw [size, ← Int.toNat_of_nonneg he, zpow_natCast, Int.toNat_natCast, Nat.cast_mul, cast_pow_ten]
    rw [hsize]
    constructor <;> linarith
  · rename_i he
    split
    · -- The leading digit stands behind the first place after the point.
      rename_i hsmall
      have hc : (d.coefficient : ℚ) < 10 ^ (d.digits.length : ℤ) := by
        exact_mod_cast d.coefficient_lt
      have hpow : (10 : ℚ) ^ (d.digits.length : ℤ) * 10 ^ d.exponent ≤ 10 ^ (-1 : ℤ) := by
        rw [← zpow_add₀ (by norm_num)]
        exact zpow_le_zpow_right₀ (by norm_num) (by omega)
      have hlt : d.size < 1 / 10 := by
        calc d.size < 10 ^ (d.digits.length : ℤ) * 10 ^ d.exponent :=
              mul_lt_mul_of_pos_right hc (zpow_pos (by norm_num) _)
          _ ≤ 10 ^ (-1 : ℤ) := hpow
          _ = 1 / 10 := by norm_num
      have hnonneg := d.size_nonneg
      simp only [Nat.cast_zero]
      constructor <;> linarith
    · have hsize : d.size = d.coefficient / (Nat.pow 10 (-d.exponent).toNat : ℕ) := by
        obtain ⟨k, hk⟩ : ∃ k : ℕ, d.exponent = -k := ⟨(-d.exponent).toNat, by omega⟩
        rw [size, hk, zpow_neg, zpow_natCast, neg_neg, Int.toNat_natCast, cast_pow_ten,
          div_eq_mul_inv]
      rw [hsize]
      exact rounded_bounds _ (Nat.pow_pos (by omega))

/-- A decimal is rounded to the nearest integer. -/
theorem nearest_toRat : Nearest d.toRat d.nearest := by
  have hpos : Nearest d.size d.nearest.natAbs :=
    (Nearest.iff_of_nonneg d.size_nonneg).mpr d.nearest_bounds
  have hsigned : d.nearest = signed d.negative d.nearest.natAbs := by
    rw [nearest, natAbs_signed]
  rw [toRat_eq, hsigned]
  cases d.negative with
  | false => exact hpos
  | true => exact hpos.neg

end Decimal

end Tablewright
