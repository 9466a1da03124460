import Tablewright.Number.Decimal
import Tablewright.Number.Integer
import Tablewright.Number.NonFinite

/-! Integers as decimals. The text of an integer is a sign and digits, with no white space,
underscore, point or power, so it is read as the decimal of the same number, unless there are
more digits than a decimal can have; it is never read as a mark. -/

namespace Tablewright.Decimal

theorem isDigit_toDigits (n : Nat) : ∀ c ∈ Nat.toDigits 10 n, c.isDigit = true :=
  fun _ hc => Nat.isDigit_of_mem_toDigits (by decide) (by decide) hc

theorem isDigit_bounds {c : Char} (h : c.isDigit = true) : 48 ≤ c.toNat ∧ c.toNat ≤ 57 := by
  simpa [Char.isDigit, UInt32.le_iff_toNat_le] using h

theorem asciiDigit?_of_isDigit {c : Char} (h : c.isDigit = true) :
    Text.asciiDigit? c = some (c.toNat - '0'.toNat) := if_pos (isDigit_bounds h)

/-- What the digits of a numeral stand for. -/
abbrev digitValues (cs : List Char) : List Nat := cs.map fun c => c.toNat - '0'.toNat

/-- Digits are read up to the first character that is none. -/
theorem spanDigits_append {cs rest : List Char} (h : ∀ c ∈ cs, c.isDigit = true)
    (hrest : ∀ c ∈ rest.head?, Text.asciiDigit? c = none) :
    spanDigits (cs ++ rest) = (digitValues cs, rest) := by
  induction cs with
  | nil =>
    cases rest with
    | nil => rfl
    | cons c rest => simp [spanDigits, hrest c rfl]
  | cons c cs ih =>
    obtain ⟨hc, hcs⟩ := List.forall_mem_cons.mp h
    simp [spanDigits, asciiDigit?_of_isDigit hc, ih hcs]

theorem spanDigits_of_digits {cs : List Char} (h : ∀ c ∈ cs, c.isDigit = true) :
    spanDigits cs = (digitValues cs, []) := by
  have happend : spanDigits (cs ++ []) = _ := spanDigits_append h nofun
  rwa [List.append_nil] at happend

theorem ofDigits_eq (cs : List Char) :
    Text.ofDigits (digitValues cs) = Nat.ofDigitChars 10 cs 0 := by
  rw [Text.ofDigits, List.foldl_map, Nat.ofDigitChars_eq_foldl]

theorem ofDigits_toDigits (n : Nat) : Text.ofDigits (digitValues (Nat.toDigits 10 n)) = n :=
  (ofDigits_eq _).trans Nat.ofDigitChars_ten_toDigits

theorem readUnsigned_toDigits (n : Nat) : readUnsigned (Nat.toDigits 10 n) = some (n, 0) := by
  have hne : (digitValues (Nat.toDigits 10 n)).isEmpty = false := by
    simp [Nat.toDigits_ne_nil]
  rw [readUnsigned, spanDigits_of_digits (isDigit_toDigits n)]
  simp only [hne, Bool.false_and, readPower]
  simp
  exact ofDigits_toDigits n

theorem spanSign_of_digits {cs : List Char} (h : ∀ c ∈ cs, c.isDigit = true) :
    spanSign cs = (false, cs) := by
  unfold spanSign
  split
  · cases h '-' List.mem_cons_self
  · cases h '+' List.mem_cons_self
  · rfl

/-! ## Printed characters -/

/-- The characters of numbers and dates as they are written: none of them is white space, and none
stands for nothing. -/
abbrev Printed (c : Char) : Prop := 32 < c.toNat ∧ c.toNat < 128 ∧ c ≠ '_'

theorem printed_of_isDigit {c : Char} (h : c.isDigit = true) : Printed c := by
  have hbounds := isDigit_bounds h
  refine ⟨by omega, by omega, ?_⟩
  rintro rfl
  cases h

theorem isBlank_of_printed {c : Char} (h : Printed c) : Text.isBlank c = false := by
  simp [Text.isBlank]
  omega

theorem foldDigits_eq {cs : List Char} (h : ∀ c ∈ cs, Printed c) : foldDigits cs = some cs := by
  induction cs with
  | nil => rfl
  | cons c cs ih =>
    obtain ⟨⟨-, hlt, hne⟩, hcs⟩ := List.forall_mem_cons.mp h
    simp [foldDigits, hne, hlt, ih hcs]

theorem dropWhile_blank {before rest : List Char} (hbefore : ∀ c ∈ before, Text.isBlank c = true)
    (hrest : ∀ c, rest.head? = some c → Text.isBlank c = false) :
    (before ++ rest).dropWhile Text.isBlank = rest := by
  rw [List.dropWhile_append_of_pos hbefore]
  cases rest with
  | nil => rfl
  | cons c rest => exact List.dropWhile_cons_of_neg (by simp [hrest c rfl])

/-- What stands between white space and is free of it is what is left after trimming. -/
theorem trim_between {before kept behind : List Char}
    (hbefore : ∀ c ∈ before, Text.isBlank c = true) (hkept : ∀ c ∈ kept, Text.isBlank c = false)
    (hbehind : ∀ c ∈ behind, Text.isBlank c = true) :
    Text.trim (before ++ (kept ++ behind)) = kept := by
  cases kept with
  | nil =>
    have hall : (before ++ behind ++ []).dropWhile Text.isBlank = [] :=
      dropWhile_blank (List.forall_mem_append.mpr ⟨hbefore, hbehind⟩) nofun
    rw [List.append_nil] at hall
    rw [List.nil_append, Text.trim, Text.trimStart, hall]
    rfl
  | cons c kept =>
    have hlast : ∀ d, (c :: kept).reverse.head? = some d → Text.isBlank d = false := fun d hd =>
      hkept d (List.mem_reverse.mp (List.mem_of_mem_head? hd))
    rw [Text.trim, Text.trimStart, dropWhile_blank hbefore, Text.trimEnd, List.reverse_append,
      dropWhile_blank (fun d hd => hbehind d (List.mem_reverse.mp hd)) hlast, List.reverse_reverse]
    rintro _ ⟨⟩
    exact hkept c List.mem_cons_self

theorem trim_eq {cs : List Char} (h : ∀ c ∈ cs, Text.isBlank c = false) : Text.trim cs = cs := by
  have hbetween := trim_between (List.forall_mem_nil _) h (List.forall_mem_nil _)
  rwa [List.append_nil, List.nil_append] at hbetween

theorem trim_of_printed {cs : List Char} (h : ∀ c ∈ cs, Printed c) : Text.trim cs = cs :=
  trim_eq fun c hc => isBlank_of_printed (h c hc)

/-- The characters of an integer's text: digits, behind a minus if it is negative. -/
theorem printed_toText (n : Int) : ∀ c ∈ (Integer.toText n).toList, Printed c := by
  rw [Integer.toText, String.toList_ofList, List.forall_mem_append]
  refine ⟨?_, fun c hc => printed_of_isDigit (isDigit_toDigits _ c hc)⟩
  split
  · exact List.forall_mem_singleton.mpr (by decide)
  · nofun

/-! ## Texts of integers -/

theorem foldDigits_toText (n : Int) :
    foldDigits (Text.trim (Integer.toText n).toList) = some (Integer.toText n).toList := by
  rw [trim_of_printed (printed_toText n), foldDigits_eq (printed_toText n)]

theorem spanSign_toText (n : Int) :
    spanSign (Integer.toText n).toList = (decide (n < 0), Nat.toDigits 10 n.natAbs) := by
  rw [Integer.toText, String.toList_ofList]
  by_cases hn : n < 0
  · simp [hn, spanSign]
  · rw [if_neg hn, List.nil_append, spanSign_of_digits (isDigit_toDigits _), decide_eq_false hn]

/-- The text of an integer is read as the decimal of this integer, if it is not too long for any
decimal. -/
theorem ofText?_integer (n : Int) :
    ofText? (Integer.toText n) = if (ofInt n).inRange then some (.ofInt n) else none := by
  rw [ofText?, ofChars?, foldDigits_toText, Option.bind_some, readFolded, spanSign_toText]
  simp only [readUnsigned_toDigits, Option.bind_some]
  rfl

theorem inRange_ofInt {n : Int} (h : (Nat.toDigits 10 n.natAbs).length ≤ Integer.maxDigits) :
    (ofInt n).inRange = true := by
  simp [inRange, ofInt, adjusted, digits, minExponent, maxAdjusted, Integer.maxDigits] at h ⊢
  omega

end Tablewright.Decimal

namespace Tablewright.NonFinite

theorem toLower_of_isDigit {c : Char} (h : c.isDigit = true) : c.toLower = c := by
  have hbounds := Decimal.isDigit_bounds h
  refine dif_neg ?_
  rintro ⟨hupper, -⟩
  have hcode : 65 ≤ c.toNat := hupper
  omega

/-- No text of an integer is a mark. -/
theorem ofText?_toText (n : Int) : ofText? (Integer.toText n) = none := by
  have hdigit := Decimal.isDigit_toDigits n.natAbs
  have hlower : (Nat.toDigits 10 n.natAbs).map Char.toLower = Nat.toDigits 10 n.natAbs :=
    List.map_congr_left (fun c hc => toLower_of_isDigit (hdigit c hc)) |>.trans (List.map_id _)
  have hkind : readKind (Nat.toDigits 10 n.natAbs) = none := by
    rw [readKind, hlower]
    split <;> rename_i heq <;> first
      | rfl
      | (rw [heq] at hdigit; exact absurd (hdigit _ List.mem_cons_self) (by decide))
  rw [ofText?, Decimal.foldDigits_toText, Option.bind_some, Decimal.spanSign_toText]
  simp only [hkind, Option.map_none]

end Tablewright.NonFinite
