import Tablewright.Calendar.Date
import Tablewright.Proofs.Number.Printed

/-! Dates as they are written. Every number of a date has as many digits as its place takes, with
zeros in front, so a reader that counts digits finds each number where it was put. -/

namespace Tablewright

open Decimal (digitValues)

namespace Calendar

/-! ## Padded numbers -/

variable {k n : Nat}

theorem isDigit_padded (k n : Nat) : ∀ c ∈ padded k n, c.isDigit = true :=
  List.forall_mem_append.mpr
    ⟨fun _ hc => List.eq_of_mem_replicate hc ▸ rfl, Decimal.isDigit_toDigits n⟩

theorem padded_ne_nil (k n : Nat) : padded k n ≠ [] :=
  List.append_ne_nil_of_right_ne_nil _ Nat.toDigits_ne_nil

theorem length_padded (h : n < 10 ^ k) (hk : 0 < k) : (padded k n).length = k := by
  have hlength := (Nat.length_toDigits_le_iff (by omega) hk).mpr h
  rw [padded, List.length_append, List.length_replicate, Nat.sub_add_cancel hlength]

theorem ofDigits_padded (k n : Nat) : Text.ofDigits (digitValues (padded k n)) = n :=
  (Decimal.ofDigits_zeros _ _).trans (Decimal.ofDigits_toDigits n)

theorem mapM_asciiDigit {cs : List Char} (h : ∀ c ∈ cs, c.isDigit = true) :
    cs.mapM Text.asciiDigit? = some (digitValues cs) := by
  induction cs with
  | nil => rfl
  | cons c cs ih =>
    obtain ⟨hc, hcs⟩ := List.forall_mem_cons.mp h
    rw [List.mapM_cons, Decimal.asciiDigit?_of_isDigit hc, ih hcs]
    rfl

/-- A number is read where it was put, if there is room for it. -/
theorem readDigits_padded (h : n < 10 ^ k) (hk : 0 < k) (rest : List Char) :
    readDigits k (padded k n ++ rest) = some (n, rest) := by
  have hlength := length_padded h hk
  have hvalues : (digitValues (padded k n)).length = k := by rw [List.length_map, hlength]
  rw [readDigits, List.take_left' hlength, List.drop_left' hlength,
    mapM_asciiDigit (isDigit_padded k n), Option.filter_some, if_pos (decide_eq_true hvalues),
    Option.map_some, ofDigits_padded]

/-- What begins with a padded number begins with a digit. -/
theorem head_padded (k n : Nat) (rest : List Char) :
    ∃ c cs, padded k n ++ rest = c :: cs ∧ c.isDigit = true := by
  obtain ⟨c, cs, hcs⟩ := List.exists_cons_of_ne_nil (padded_ne_nil k n)
  exact ⟨c, cs ++ rest, by rw [hcs, List.cons_append],
    isDigit_padded k n c (hcs ▸ List.mem_cons_self)⟩

end Calendar

namespace Date

open Calendar

theorem toChars_eq (d : Date) :
    d.toChars = padded 4 d.year ++ '-' :: (padded 2 d.month ++ '-' :: padded 2 d.day) := by
  simp [toChars]

theorem daysInMonth_le (year month : Nat) : daysInMonth year month ≤ 31 := by
  unfold daysInMonth
  split
  · split <;> omega
  · split <;> omega

theorem bounds (d : Date) : d.year < 10 ^ 4 ∧ d.month < 10 ^ 2 ∧ d.day < 10 ^ 2 := by
  have hdays := daysInMonth_le d.year d.month
  have hexists := d.exists_
  omega

theorem of?_self (d : Date) : of? d.year d.month d.day = some d := dif_pos d.exists_

theorem readFront_toChars (d : Date) : readFront d.toChars = some d := by
  obtain ⟨hyear, hmonth, hday⟩ := d.bounds
  have hfront := readDigits_padded hmonth (by omega) ('-' :: padded 2 d.day)
  have hlast := readDigits_padded hday (by omega) []
  rw [List.append_nil] at hlast
  rw [toChars_eq, readFront, readDigits_padded hyear (by omega)]
  obtain ⟨c, cs, hcs, hdigit⟩ := head_padded 2 d.month ('-' :: padded 2 d.day)
  rw [hcs] at hfront ⊢
  have hne : c ≠ 'W' := by
    rintro rfl
    cases hdigit
  simp [readGap, hfront, hlast, of?_self, hne]

theorem length_toChars (d : Date) : d.toChars.length = 10 := by
  obtain ⟨hyear, hmonth, hday⟩ := d.bounds
  simp [toChars_eq, length_padded hyear, length_padded hmonth, length_padded hday]

/-- A date consists of digits and hyphens. -/
theorem printed_toChars (d : Date) : ∀ c ∈ d.toChars, Decimal.Printed c := by
  have hdigits {k n : Nat} : ∀ c ∈ padded k n, Decimal.Printed c :=
    fun c hc => Decimal.printed_of_isDigit (isDigit_padded k n c hc)
  rw [toChars_eq, List.forall_mem_append, List.forall_mem_cons, List.forall_mem_append,
    List.forall_mem_cons]
  exact ⟨hdigits, by decide, hdigits, by decide, hdigits⟩

theorem byteLength_of_printed {cs : List Char} (h : ∀ c ∈ cs, Decimal.Printed c) :
    byteLength cs = cs.length := by
  induction cs with
  | nil => rfl
  | cons c cs ih =>
    obtain ⟨⟨-, hlt, -⟩, hcs⟩ := List.forall_mem_cons.mp h
    have hsize : c.utf8Size = 1 := Char.utf8Size_eq_one_iff.mpr (Nat.le_of_lt_succ hlt)
    have hrest : byteLength cs = cs.length := ih hcs
    rw [byteLength, List.foldr_cons, hsize, List.length_cons, ← hrest, byteLength, Nat.add_comm]

/-- The text of a date is read as this date. -/
theorem ofText?_toText (d : Date) : ofText? d.toText = some d := by
  rw [ofText?, toText, String.toList_ofList, ofChars?, byteLength_of_printed d.printed_toChars,
    length_toChars]
  exact d.readFront_toChars

end Date

end Tablewright
