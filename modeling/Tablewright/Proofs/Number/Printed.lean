import Tablewright.Proofs.Number.Numeral

/-! Numbers as they are written. The text of an integer or a decimal is a numeral in digits of the
common script, from which the same number is read again: a decimal with its sign, all its digits and
its power of ten. -/

namespace Tablewright

theorem Text.digit?_of_isDigit {c : Char} (h : c.isDigit = true) :
    Text.digit? c = some (c.toNat - '0'.toNat) := by
  have hbounds := Decimal.isDigit_bounds h
  have hfirst : (decide (0x30 ≤ c.toNat) && decide (c.toNat < 0x30 + 10)) = true := by
    simp only [Bool.and_eq_true, decide_eq_true_eq]
    omega
  have hfound : Text.zeroDigits.find? (fun z => z ≤ c.toNat && c.toNat < z + 10) = some 0x30 :=
    List.find?_cons_of_pos hfirst
  rw [Text.digit?, hfound]
  rfl

namespace Decimal

variable {cs ds : List Char} {sign : List Char} {minus : Bool}

/-! ## The characters of a numeral -/

theorem IsSign.printed (h : IsSign sign minus) : ∀ c ∈ sign, Printed c := by
  cases h with
  | none => nofun
  | plus | minus => exact List.forall_mem_singleton.mpr (by decide)

theorem IsPower.printed {p : Int} (h : IsPower cs p) : ∀ c ∈ cs, Printed c := by
  cases h with
  | none => nofun
  | some hletter hsign hds _ =>
    refine List.forall_mem_cons.mpr ⟨by rcases hletter with rfl | rfl <;> decide, ?_⟩
    exact List.forall_mem_append.mpr ⟨hsign.printed, fun c hc => printed_of_isDigit (hds c hc)⟩

theorem IsNumeral.printed {c : Nat} {e : Int} (h : IsNumeral cs c e) : ∀ c ∈ cs, Printed c := by
  cases h with
  | whole hws _ hp =>
    exact List.forall_mem_append.mpr ⟨fun c hc => printed_of_isDigit (hws c hc), hp.printed⟩
  | point hws hfs _ hp =>
    refine List.forall_mem_append.mpr ⟨fun c hc => printed_of_isDigit (hws c hc), ?_⟩
    refine List.forall_mem_cons.mpr ⟨by decide, ?_⟩
    exact List.forall_mem_append.mpr ⟨fun c hc => printed_of_isDigit (hfs c hc), hp.printed⟩

/-! ## Decimals -/

theorem isSign_signText (minus : Bool) : IsSign (signText minus) minus := by
  cases minus with
  | false => exact .none
  | true => exact .minus

/-- Zeros in front change nothing. -/
theorem ofDigits_zeros (k : Nat) (ds : List Char) :
    Text.ofDigits (digitValues (List.replicate k '0' ++ ds)) = Text.ofDigits (digitValues ds) := by
  rw [digitValues, digitValues, ofDigits_eq, ofDigits_eq, Nat.ofDigitChars_append,
    Nat.ofDigitChars_replicate_zero, Nat.mul_zero]

theorem signed_natAbs (n : Int) : signed (decide (n < 0)) n.natAbs = n := by
  by_cases hn : n < 0
  · rw [decide_eq_true hn, signed, if_pos rfl]
    omega
  · rw [decide_eq_false hn, signed, if_neg Bool.false_ne_true]
    omega

/-- A power is written with its sign in any case. -/
theorem isPower_signedText (p : Int) : IsPower ('E' :: signedText p) p := by
  have hpower {sign : List Char} (hsign : IsSign sign (decide (p < 0))) :
      IsPower ('E' :: (sign ++ Nat.toDigits 10 p.natAbs)) p := by
    have hp := IsPower.some (.inr rfl) hsign (isDigit_toDigits p.natAbs) Nat.toDigits_ne_nil
    rwa [ofDigits_toDigits, signed_natAbs] at hp
  unfold signedText
  split
  · rename_i hneg
    rw [decide_eq_true hneg] at hpower
    exact hpower .minus
  · rename_i hneg
    rw [decide_eq_false hneg] at hpower
    exact hpower .plus

/-- Digits with a point that is not behind the last of them. -/
theorem isNumeral_plainText (h : ∀ c ∈ ds, c.isDigit = true) (hne : ds ≠ []) {point : Int}
    (hpoint : point ≤ ds.length) :
    IsNumeral (plainText ds point) (Text.ofDigits (digitValues ds)) (point - ds.length) := by
  unfold plainText
  split
  · rename_i hfront
    have hzeros : ∀ c ∈ List.replicate (-point).toNat '0' ++ ds, c.isDigit = true :=
      List.forall_mem_append.mpr ⟨fun c hc => (List.eq_of_mem_replicate hc) ▸ rfl, h⟩
    have hzero : ∀ c ∈ ['0'], c.isDigit = true := List.forall_mem_singleton.mpr rfl
    have hnumeral := IsNumeral.point hzero hzeros (by simp) IsPower.none
    have hvalue : Text.ofDigits (digitValues (['0'] ++ (List.replicate (-point).toNat '0' ++ ds))) =
        Text.ofDigits (digitValues ds) := ofDigits_zeros ((-point).toNat + 1) ds
    have hplaces : point - ds.length = 0 - (((-point).toNat + ds.length : Nat) : Int) := by omega
    rw [hvalue, List.append_nil, List.length_append, List.length_replicate, ← hplaces] at hnumeral
    exact hnumeral
  · rename_i hfront
    split
    · rename_i hall
      have hnumeral := IsNumeral.whole h hne IsPower.none
      have hplaces : point - ds.length = 0 := by omega
      rwa [List.append_nil, ← hplaces] at hnumeral
    · rename_i hall
      have hwhole : ∀ c ∈ ds.take point.toNat, c.isDigit = true :=
        fun c hc => h c (List.mem_of_mem_take hc)
      have hfraction : ∀ c ∈ ds.drop point.toNat, c.isDigit = true :=
        fun c hc => h c (List.mem_of_mem_drop hc)
      have hnumeral := IsNumeral.point hwhole hfraction (by rwa [List.take_append_drop])
        IsPower.none
      have hplaces : point - ds.length = 0 - ((ds.length - point.toNat : Nat) : Int) := by omega
      rw [List.append_nil, List.take_append_drop, List.length_drop, ← hplaces] at hnumeral
      rwa [List.append_assoc]

/-- One digit before the point, and the power of ten of this digit. -/
theorem isNumeral_scientificText (h : ∀ c ∈ ds, c.isDigit = true) (hne : ds ≠ []) (p : Int) :
    IsNumeral (scientificText ds p) (Text.ofDigits (digitValues ds)) (p - (ds.length - 1)) := by
  obtain ⟨d, ds, rfl⟩ := List.exists_cons_of_ne_nil hne
  cases ds with
  | nil =>
    have hnumeral := IsNumeral.whole h hne (isPower_signedText p)
    simpa [scientificText] using hnumeral
  | cons d' ds =>
    obtain ⟨hd, hds⟩ := List.forall_mem_cons.mp h
    have hfirst : ∀ c ∈ [d], c.isDigit = true := List.forall_mem_singleton.mpr hd
    have hnumeral := IsNumeral.point hfirst hds (by simp) (isPower_signedText p)
    simpa [scientificText] using hnumeral

/-- A decimal is written as its sign and a numeral: all its digits, and the power of ten of the last
one. -/
theorem toChars_eq (d : Decimal) : ∃ rest, d.toChars = signText d.negative ++ rest ∧
    IsNumeral rest d.coefficient d.exponent := by
  have hdigits : ∀ c ∈ d.digits, c.isDigit = true := isDigit_toDigits d.coefficient
  have hne : d.digits ≠ [] := Nat.toDigits_ne_nil
  have hvalue : Text.ofDigits (digitValues d.digits) = d.coefficient := ofDigits_toDigits _
  refine ⟨_, rfl, ?_⟩
  split
  · have hpoint : d.adjusted + 1 ≤ d.digits.length := by
      rw [adjusted]
      omega
    have hnumeral := isNumeral_plainText hdigits hne hpoint
    have hplaces : d.adjusted + 1 - d.digits.length = d.exponent := by rw [adjusted]; omega
    rwa [hvalue, hplaces] at hnumeral
  · have hnumeral := isNumeral_scientificText hdigits hne d.adjusted
    have hplaces : d.adjusted - (d.digits.length - 1) = d.exponent := by rw [adjusted]; omega
    rwa [hvalue, hplaces] at hnumeral

theorem printed_toChars (d : Decimal) : ∀ c ∈ d.toChars, Printed c := by
  obtain ⟨rest, hchars, hrest⟩ := d.toChars_eq
  rw [hchars]
  exact List.forall_mem_append.mpr ⟨(isSign_signText d.negative).printed, hrest.printed⟩

/-- The text of a decimal is read as this decimal, with its sign and all its digits, unless there
is no text for so large or so small a number. -/
theorem ofText?_toText {d : Decimal} (h : d.inRange = true) : ofText? d.toText = some d := by
  have hspells : Spells (Text.trim d.toChars) d.negative d.coefficient d.exponent := by
    rw [trim_of_printed d.printed_toChars]
    obtain ⟨rest, hchars, hrest⟩ := d.toChars_eq
    exact ⟨_, rest, isSign_signText d.negative, hrest,
      hchars ▸ foldDigits_eq d.printed_toChars⟩
  rw [ofText?, toText, String.toList_ofList, ofChars?_of_spells hspells, if_pos h]

end Decimal

/-! ## Integers -/

namespace Integer

theorem readGroups_of_digits {cs : List Char} (h : ∀ c ∈ cs, c.isDigit = true) (hne : cs ≠ []) :
    readGroups cs = some (Decimal.digitValues cs) := by
  induction cs using readGroups.induct with
  | case1 => exact absurd rfl hne
  | case2 c =>
    rw [readGroups, Text.digit?_of_isDigit (h c List.mem_cons_self)]
    rfl
  | case3 c cs ih => cases h '_' (by simp)
  | case4 c cs hnil hund ih =>
    obtain ⟨hc, hcs⟩ := List.forall_mem_cons.mp h
    rw [readGroups, Text.digit?_of_isDigit hc, ih hcs hnil]
    · rfl
    · exact hnil
    · exact hund

/-- The text of an integer is read as this integer, if it is not too long for any. -/
theorem ofText?_toText {n : Int} (h : (Nat.toDigits 10 n.natAbs).length ≤ maxDigits) :
    ofText? (toText n) = some n := by
  have hread := readGroups_of_digits (Decimal.isDigit_toDigits n.natAbs) Nat.toDigits_ne_nil
  have hstrip := Text.stripSpace_eq fun c hc =>
    Decimal.isBlank_of_printed (Decimal.printed_toText n c hc)
  rw [ofText?, hstrip, readSigned_eq, Decimal.spanSign_toText]
  simp only [hread, Option.bind_some, List.length_map, if_neg (Nat.not_lt.mpr h),
    Decimal.ofDigits_toDigits, Decimal.signed_natAbs]

end Integer

end Tablewright
