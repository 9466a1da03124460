import Tablewright.Number.Decimal

/-! Decimals that round to an integer. How many digits the rounded number has is first told from
the leading digit's power; this decides as the rounded number itself would, so that a decimal has
no nearest integer just if that integer has more digits than a rounded number may have. -/

namespace Tablewright.Decimal

variable {d : Decimal}

theorem natAbs_signed (negative : Bool) (n : Nat) : (signed negative n).natAbs = n := by
  cases negative <;> simp [signed]

/-- A coefficient is at least the power of ten of its leading digit. -/
theorem pow_le_coefficient (h : d.coefficient ≠ 0) :
    Nat.pow 10 (d.digits.length - 1) ≤ d.coefficient := by
  by_cases hone : d.digits.length ≤ 1
  · have hzero : d.digits.length - 1 = 0 := by omega
    rw [hzero]
    exact Nat.pos_of_ne_zero h
  · have hmore : ¬ d.digits.length ≤ d.digits.length - 1 := by omega
    rw [digits, Nat.length_toDigits_le_iff (by omega) (by rw [digits] at hone; omega)] at hmore
    exact Nat.le_of_not_lt hmore

/-- What is rounded up or down is no less than what is cut off. -/
theorem le_rounded {n unit c : Nat} (hunit : 0 < unit) (h : n * unit ≤ c) :
    n ≤ (2 * c + unit) / (2 * unit) := by
  rw [Nat.le_div_iff_mul_le (by omega)]
  calc n * (2 * unit) = 2 * (n * unit) := Nat.mul_left_comm ..
    _ ≤ 2 * c := Nat.mul_le_mul_left 2 h
    _ ≤ 2 * c + unit := Nat.le_add_right ..

theorem pow_le_nearest (hc : d.coefficient ≠ 0)
    (h : (roundedDigits : Int) < d.digits.length + d.exponent) :
    Nat.pow 10 roundedDigits ≤ d.nearest.natAbs := by
  have hlead := pow_le_coefficient hc
  rw [nearest, natAbs_signed]
  split
  · rename_i he
    have hpower : roundedDigits ≤ d.digits.length - 1 + d.exponent.toNat := by omega
    calc Nat.pow 10 roundedDigits ≤ Nat.pow 10 (d.digits.length - 1 + d.exponent.toNat) :=
          Nat.pow_le_pow_right (by omega) hpower
      _ = Nat.pow 10 (d.digits.length - 1) * Nat.pow 10 d.exponent.toNat := Nat.pow_add ..
      _ ≤ d.coefficient * Nat.pow 10 d.exponent.toNat := Nat.mul_le_mul_right _ hlead
  · rename_i he
    have hpower : roundedDigits + (-d.exponent).toNat ≤ d.digits.length - 1 := by omega
    rw [if_neg (by omega)]
    refine le_rounded (Nat.pow_pos (by omega)) ?_
    calc Nat.pow 10 roundedDigits * Nat.pow 10 (-d.exponent).toNat
        = Nat.pow 10 (roundedDigits + (-d.exponent).toNat) := (Nat.pow_add ..).symm
      _ ≤ Nat.pow 10 (d.digits.length - 1) := Nat.pow_le_pow_right (by omega) hpower
      _ ≤ d.coefficient := hlead

theorem nearest_of_zero (h : d.coefficient = 0) : d.nearest = 0 := by
  have hnone : d.nearest.natAbs = 0 := by
    rw [nearest, natAbs_signed, h]
    split
    · exact Nat.zero_mul _
    · split
      · rfl
      · have hunit : 0 < Nat.pow 10 (-d.exponent).toNat := Nat.pow_pos (by omega)
        exact Nat.div_eq_of_lt (by omega)
  exact Int.natAbs_eq_zero.mp hnone

/-- Whether the nearest integer has more digits than a rounded number may have. -/
def RoundsTooFar (d : Decimal) : Prop := Nat.pow 10 roundedDigits ≤ d.nearest.natAbs

instance (d : Decimal) : Decidable d.RoundsTooFar := inferInstanceAs (Decidable (_ ≤ _))

/-- There is no nearest integer just if it has too many digits. -/
theorem nearest?_eq : d.nearest? = if d.RoundsTooFar then none else some d.nearest := by
  unfold nearest?
  by_cases hzero : d.coefficient = 0
  · have hnear : ¬ d.RoundsTooFar := by simp [RoundsTooFar, nearest_of_zero hzero]
    rw [if_pos hzero, if_neg hnear, nearest_of_zero hzero]
  · rw [if_neg hzero]
    by_cases hfar : (roundedDigits : Int) < d.digits.length + d.exponent
    · rw [if_pos hfar, if_pos (show d.RoundsTooFar from pow_le_nearest hzero hfar)]
    · rw [if_neg hfar]
      rfl

end Tablewright.Decimal
