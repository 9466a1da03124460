import Tablewright.Proofs.Number.Numeral
import Tablewright.Proofs.Schema.Reading
import Tablewright.Proofs.Value.Display

/-! What text is read as an integer. A text that gives an integer denotes a number, and the integer
is the one nearest to it: the number itself for the text of an integer, and a rounded one for the
text of a decimal. -/

namespace Tablewright

namespace ValueType

variable {s : String}

theorem parseText_integer (text : String) :
    integer.parseText text = readInteger (Text.strip text) := parseText_eq integer text

/-- An integer that is read from a text is the nearest to what the text denotes. -/
theorem nearest_of_readInteger {n : ℤ} (h : readInteger s = .ok (some (.int n))) :
    ∃ q, Denotes (Text.trim s.toList) q ∧ Nearest q n := by
  cases hi : Integer.ofText? s with
  | some m =>
    rw [readInteger_of_integer hi] at h
    cases h
    exact ⟨n, .of_integer hi, .of_int n⟩
  | none =>
    by_cases hp : PointNear s
    · rw [readInteger_of_near hi hp] at h
      cases hd : Decimal.ofText? s with
      | none =>
        rw [hd] at h
        cases h
      | some d =>
        rw [hd] at h
        dsimp only at h
        rw [Decimal.nearest?_eq] at h
        by_cases hfar : d.RoundsTooFar
        · rw [if_pos hfar] at h
          cases h
        · rw [if_neg hfar] at h
          cases h
          exact ⟨d.toRat, .of_decimal hd, d.nearest_toRat⟩
    · rw [readInteger_of_far hi hp] at h
      cases h

theorem readInteger_of_undenoted (h : ∀ q, ¬ Denotes (Text.trim s.toList) q) :
    readInteger s = .ok none := by
  have hi : Integer.ofText? s = none := by
    cases hi : Integer.ofText? s with
    | none => rfl
    | some n => exact absurd (.of_integer hi) (h n)
  by_cases hp : PointNear s
  · cases hd : Decimal.ofText? s with
    | none => rw [readInteger_of_near hi hp, hd]
    | some d => exact absurd (.of_decimal hd) (h d.toRat)
  · exact readInteger_of_far hi hp

/-- A plain decimal is always rounded, if its point is near enough. -/
theorem readInteger_plain {minus : Bool} {ws fs : List ℕ}
    (h : Decimal.IsPlain s.toList minus ws fs) (hne : ws ++ fs ≠ [])
    (hp : s.toList.idxOf '.' ≤ maxWholeLength) (hf : fs.length ≤ Decimal.maxPlaces) :
    ∃ n, readInteger s = .ok (some (.int n)) ∧
      Nearest (Decimal.signed minus (Text.ofDigits (ws ++ fs)) / 10 ^ fs.length) n := by
  have hws : ws.length ≤ maxWholeLength := h.point.2.trans hp
  have hread : Decimal.ofText? s = some (.plain minus ws fs) := by
    have hwhole : (ws.length : Int) ≤ Decimal.maxAdjusted := by
      simp only [maxWholeLength, Decimal.maxAdjusted] at *
      omega
    rw [h.ofText? hne, if_pos (Decimal.inRange_plain h.lt hwhole hf)]
  rw [← Decimal.toRat_plain]
  cases hi : Integer.ofText? s with
  | some n =>
    refine ⟨n, readInteger_of_integer hi, ?_⟩
    rw [(Denotes.of_decimal hread).unique (.of_integer hi)]
    exact .of_int n
  | none =>
    refine ⟨_, ?_, Decimal.nearest_toRat _⟩
    have hfew : ws.length < Decimal.roundedDigits := by
      simp only [maxWholeLength, Decimal.roundedDigits] at *
      omega
    rw [readInteger_of_near hi ⟨h.point.1, hp⟩, hread]
    simp only [Decimal.nearest?_plain h.lt hfew]

/-- Text is rounded correctly. An integer that is read from a text is the nearest to the one number
that the text denotes, and this number itself if it is one; so integers that are read keep the order
and the signs of what their texts denote. None is read from a text whose point is missing or too far
out, unless it is the text of an integer, and none from a text that denotes no number. From a plain
decimal whose point is near enough an integer is always read; it cannot have more places than a
decimal can. -/
theorem parseText_nearest (text : String) :
    (∀ v, integer.parseText text = .ok (some v) → ∃ n q, v = .int n ∧
      Denotes (Text.strip text).toList q ∧ (∀ q', Denotes (Text.strip text).toList q' → q' = q) ∧
      Nearest q n) ∧
    (∀ n, Integer.ofText? (Text.strip text) = some n →
      Denotes (Text.strip text).toList n ∧ integer.parseText text = .ok (some (.int n))) ∧
    (∀ other n n' q q', integer.parseText text = .ok (some (.int n)) →
      integer.parseText other = .ok (some (.int n')) → Denotes (Text.strip text).toList q →
      Denotes (Text.strip other).toList q' → (q ≤ q' → n ≤ n') ∧ (q' = -q → n' = -n)) ∧
    (Integer.ofText? (Text.strip text) = none → ¬ PointNear (Text.strip text) →
      integer.parseText text = .ok none) ∧
    ((∀ q, ¬ Denotes (Text.strip text).toList q) → integer.parseText text = .ok none) ∧
    ∀ minus ws fs, Decimal.IsPlain (Text.strip text).toList minus ws fs → ws ++ fs ≠ [] →
      PointNear (Text.strip text) → fs.length ≤ Decimal.maxPlaces →
      ∃ n, integer.parseText text = .ok (some (.int n)) ∧
        Nearest (Decimal.signed minus (Text.ofDigits (ws ++ fs)) / 10 ^ fs.length) n := by
  simp only [parseText_integer]
  have htrim : ∀ t : String, Text.trim (Text.strip t).toList = (Text.strip t).toList := fun t => by
    rw [Text.strip, String.toList_ofList, Text.trim_trim]
  refine ⟨fun v hv => ?_, fun n hn => ⟨htrim text ▸ .of_integer hn, readInteger_of_integer hn⟩, ?_,
    readInteger_of_far, fun h => readInteger_of_undenoted ((htrim text).symm ▸ h),
    fun minus ws fs h hne hp hf => readInteger_plain h hne hp.2 hf⟩
  · obtain ⟨n, rfl⟩ := readInteger_int hv
    obtain ⟨q, hq, hnear⟩ := nearest_of_readInteger hv
    rw [htrim] at hq
    exact ⟨n, q, rfl, hq, fun q' hq' => hq'.unique hq, hnear⟩
  · intro other n n' q q' hn hn' hq hq'
    obtain ⟨p, hp, hnear⟩ := nearest_of_readInteger hn
    obtain ⟨p', hp', hnear'⟩ := nearest_of_readInteger hn'
    rw [htrim] at hp hp'
    obtain rfl := hq.unique hp
    obtain rfl := hq'.unique hp'
    refine ⟨hnear.mono hnear', ?_⟩
    rintro rfl
    exact hnear'.unique hnear.neg

/-- A half goes away from zero, white space around it aside. -/
theorem parseText_half : Decimal.IsPlain (Text.strip " -2.5 ").toList true [2] [5] ∧
    PointNear (Text.strip " -2.5 ") ∧ integer.parseText " -2.5 " = .ok (some (.int (-3))) ∧
    Nearest (-5 / 2) (-3) := by
  have hplain : Decimal.IsPlain (Text.strip " -2.5 ").toList true [2] [5] :=
    ⟨['-'], ['2'], ['5'], .minus, .cons rfl .nil, .cons rfl .nil, by decide +kernel⟩
  have hnear : PointNear (Text.strip " -2.5 ") := ⟨by decide +kernel, by decide +kernel⟩
  obtain ⟨-, -, -, -, -, hrounded⟩ := parseText_nearest " -2.5 "
  obtain ⟨n, hn, hnearest⟩ := hrounded true [2] [5] hplain (by decide) hnear (by decide +kernel)
  have hthree : integer.parseText " -2.5 " = .ok (some (.int (-3))) := by rfl
  rw [hthree] at hn
  obtain rfl : -3 = n := by simpa using hn
  refine ⟨hplain, hnear, hthree, ?_⟩
  have hvalue : (Decimal.signed true (Text.ofDigits ([2] ++ [5])) : ℚ) / 10 ^ [5].length = -5 / 2 := by
    have hdigits : Decimal.signed true (Text.ofDigits ([2] ++ [5])) = -25 := by decide
    rw [hdigits, List.length_singleton]
    norm_num
  rwa [hvalue] at hnearest

end ValueType

end Tablewright
