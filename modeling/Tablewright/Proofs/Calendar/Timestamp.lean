import Mathlib.Data.List.TakeWhile
import Tablewright.Calendar.Timestamp
import Tablewright.Proofs.Calendar.Date

/-! Points in time as they are written. The reader takes what the writer left out: a fraction that
is missing is zero, and so are the seconds of an offset. The one thing it does not give back is an
offset of less than a second, which it takes for none. -/

namespace Tablewright

open Calendar Decimal

namespace TimeOfDay

theorem of?_self (t : TimeOfDay) : of? t.hour t.minute t.second t.microsecond = some t :=
  dif_pos t.exists_

end TimeOfDay

namespace Timestamp

variable {a b s u : Nat}

/-! ## Clock readings -/

/-- The characters of a clock reading: digits, colons and a point. -/
abbrev IsClock (cs : List Char) : Prop := ∀ c ∈ cs, c.isDigit = true ∨ c = ':' ∨ c = '.'

theorem isClock_padded (k n : Nat) : IsClock (padded k n) :=
  fun c hc => .inl (isDigit_padded k n c hc)

theorem isClock_fractionChars (u : Nat) : IsClock (fractionChars u) := by
  unfold fractionChars
  split
  · nofun
  · exact List.forall_mem_cons.mpr ⟨.inr (.inr rfl), isClock_padded 6 u⟩

theorem readFraction_padded (hu : u < 1000000) :
    readFraction (padded 6 u) = some { parts := [], microsecond := u, complete := true } := by
  have hdigit := isDigit_padded 6 u
  have hlength : (padded 6 u).length = 6 := length_padded hu (by omega)
  have hall : (padded 6 u).takeWhile (fun c => (Text.asciiDigit? c).isSome) = padded 6 u := by
    rw [List.takeWhile_eq_self_iff]
    intro c hc
    rw [Decimal.asciiDigit?_of_isDigit (hdigit c hc)]
    rfl
  have hvalues : (padded 6 u).filterMap Text.asciiDigit? = Decimal.digitValues (padded 6 u) := by
    rw [Decimal.digitValues, ← List.filterMap_eq_map]
    exact List.filterMap_congr fun c hc => Decimal.asciiDigit?_of_isDigit (hdigit c hc)
  have hcount : (Decimal.digitValues (padded 6 u)).length = 6 := by rw [List.length_map, hlength]
  have hne : (padded 6 u).isEmpty = false := by simpa using padded_ne_nil 6 u
  have hdrop : (padded 6 u).drop 6 = [] := List.drop_eq_nil_of_le hlength.le
  have htake : (Decimal.digitValues (padded 6 u)).take 6 = Decimal.digitValues (padded 6 u) :=
    List.take_of_length_le hcount.le
  rw [readFraction, hall, hvalues, htake, hcount, hlength, hne, hdrop]
  dsimp only
  rw [ofDigits_padded, hcount]
  simp [endsText]

/-- A part before a colon is read, and the rest on its own. -/
theorem readParts_colon (ha : a < 100) {colons : Option Bool} (hcolons : colons.getD true = true)
    {rest : List Char} (hne : rest ≠ []) (count : Nat) :
    readParts (count + 1) colons (padded 2 a ++ ':' :: rest) =
      (readParts count (some true) rest).map fun c => { c with parts := a :: c.parts } := by
  have hread := readDigits_padded (k := 2) ha (by omega) (':' :: rest)
  obtain ⟨c, cs, rfl⟩ := List.exists_cons_of_ne_nil hne
  simp [readParts, hread, hcolons, Option.map_eq_bind]

/-- The last part may have a fraction. -/
theorem readParts_last (ha : a < 100) (hu : u < 1000000) (count : Nat) :
    readParts (count + 1) (some true) (padded 2 a ++ fractionChars u) =
      some { parts := [a], microsecond := u, complete := true } := by
  have hread := readDigits_padded (k := 2) ha (by omega) (fractionChars u)
  unfold fractionChars at hread ⊢
  split
  · rename_i hzero
    rw [if_pos hzero, List.append_nil] at hread
    subst hzero
    simp [readParts, hread]
  · rename_i hzero
    rw [if_neg hzero] at hread
    obtain ⟨c, cs, hcs, -⟩ := head_padded 6 u []
    rw [List.append_nil] at hcs
    have hfraction := readFraction_padded hu
    rw [hcs] at hread hfraction ⊢
    simp [readParts, hread, hfraction]

theorem readClock_seconds (ha : a < 100) (hb : b < 100) (hs : s < 100) (hu : u < 1000000) :
    readClock (padded 2 a ++ ':' :: (padded 2 b ++ ':' :: (padded 2 s ++ fractionChars u))) =
      some { parts := [a, b, s], microsecond := u, complete := true } := by
  have hne : padded 2 s ++ fractionChars u ≠ [] :=
    List.append_ne_nil_of_left_ne_nil (padded_ne_nil 2 s) _
  rw [readClock, readParts_colon ha rfl (by simp), readParts_colon hb rfl hne, readParts_last hs hu]
  rfl

theorem readClock_minutes (ha : a < 100) (hb : b < 100) :
    readClock (padded 2 a ++ ':' :: padded 2 b) =
      some { parts := [a, b], microsecond := 0, complete := true } := by
  have hlast := readParts_last hb (u := 0) (by omega) 1
  rw [fractionChars, if_pos rfl, List.append_nil] at hlast
  rw [readClock, readParts_colon ha rfl (padded_ne_nil 2 b), hlast]
  rfl

theorem timeChars_eq (t : TimeOfDay) : timeChars t = padded 2 t.hour ++ ':' ::
    (padded 2 t.minute ++ ':' :: (padded 2 t.second ++ fractionChars t.microsecond)) := by
  simp [timeChars]

theorem readClock_timeChars (t : TimeOfDay) : readClock (timeChars t) = some
    { parts := [t.hour, t.minute, t.second], microsecond := t.microsecond, complete := true } := by
  have hexists := t.exists_
  rw [timeChars_eq, readClock_seconds (by omega) (by omega) (by omega) (by omega)]

theorem isClock_timeChars (t : TimeOfDay) : IsClock (timeChars t) := by
  rw [timeChars_eq, IsClock, List.forall_mem_append, List.forall_mem_cons, List.forall_mem_append,
    List.forall_mem_cons, List.forall_mem_append]
  exact ⟨isClock_padded 2 _, .inr (.inl rfl), isClock_padded 2 _, .inr (.inl rfl),
    isClock_padded 2 _, isClock_fractionChars _⟩

/-! ## Offsets -/

/-- An offset as it is read again: one of less than a second is none. -/
def readableOffset (o : Offset) : Offset := if o.micros.natAbs < 1000000 then .utc else o

/-- The offset that the parts of one spell. -/
theorem offsetOf?_parts {o : Offset} {c : ClockText}
    (hparts : c.part 0 * 3600 + c.part 1 * 60 + c.part 2 = o.micros.natAbs / 1000000)
    (hmicro : c.microsecond = o.micros.natAbs % 1000000) :
    offsetOf? (decide (o.micros < 0)) c = some (readableOffset o) := by
  have hsize : signed (decide (o.micros < 0)) o.micros.natAbs = o.micros := signed_natAbs o.micros
  rw [offsetOf?, hparts, hmicro]
  dsimp only
  by_cases hshort : o.micros.natAbs < 1000000
  · rw [if_pos (Nat.div_eq_of_lt hshort), readableOffset, if_pos hshort]
  · have hmicros : ((o.micros.natAbs / 1000000 : Nat) : Int) * 1000000 +
        (o.micros.natAbs % 1000000 : Nat) = o.micros.natAbs := by omega
    rw [if_neg (by omega), readableOffset, if_neg hshort, hmicros]
    exact (congrArg Offset.of? hsize).trans (dif_pos o.below_day)

/-- An offset without its sign. -/
def distanceChars (o : Offset) : List Char :=
  padded 2 (o.micros.natAbs / 1000000 / 3600) ++ ':' ::
    (padded 2 (o.micros.natAbs / 1000000 / 60 % 60) ++
      if o.micros.natAbs % 60000000 = 0 then [] else
        ':' :: (padded 2 (o.micros.natAbs / 1000000 % 60) ++
          fractionChars (o.micros.natAbs % 1000000)))

theorem offsetChars_eq (o : Offset) :
    offsetChars o = (if o.micros < 0 then '-' else '+') :: distanceChars o := by
  simp [offsetChars, distanceChars]

/-- What follows the sign of an offset is read as its parts; seconds that are left out are zero. -/
theorem readClock_distanceChars (o : Offset) : ∃ c, readClock (distanceChars o) = some c ∧
    c.complete = true ∧
    c.part 0 * 3600 + c.part 1 * 60 + c.part 2 = o.micros.natAbs / 1000000 ∧
    c.microsecond = o.micros.natAbs % 1000000 := by
  have hday := o.below_day
  unfold distanceChars
  split
  · rename_i hwhole
    rw [List.append_nil, readClock_minutes (by omega) (by omega)]
    refine ⟨_, rfl, rfl, ?_, ?_⟩
    · simp only [ClockText.part, List.getD_cons_zero, List.getD_cons_succ, List.getD_nil]
      omega
    · dsimp only
      omega
  · rw [readClock_seconds (by omega) (by omega) (by omega) (by omega)]
    refine ⟨_, rfl, rfl, ?_, rfl⟩
    simp only [ClockText.part, List.getD_cons_zero, List.getD_cons_succ]
    omega

theorem readZone_offsetChars (o : Offset) :
    readZone (offsetChars o) = some (some (readableOffset o)) := by
  obtain ⟨c, hread, hcomplete, hparts, hmicro⟩ := readClock_distanceChars o
  have hoffset := offsetOf?_parts hparts hmicro
  have hminus : ((if o.micros < 0 then '-' else '+') == '-') = decide (o.micros < 0) := by
    split <;> simp_all
  have hne : (if o.micros < 0 then '-' else '+') ≠ 'Z' := by
    split <;> decide
  rw [offsetChars_eq, readZone]
  · rw [hread, Option.bind_some, if_pos hcomplete, hminus, hoffset]
    rfl
  · exact hne

/-! ## Points in time -/

theorem isZoneMark_of_clock {c : Char} (h : c.isDigit = true ∨ c = ':' ∨ c = '.') :
    isZoneMark c = false := by
  rcases h with hdigit | rfl | rfl
  · simp only [isZoneMark, Bool.or_eq_false_iff, beq_eq_false_iff_ne]
    refine ⟨⟨?_, ?_⟩, ?_⟩ <;> rintro rfl <;> cases hdigit
  · decide
  · decide

theorem readTime_toChars (t : TimeOfDay) (o : Offset) :
    readTime (timeChars t ++ offsetChars o) = some (t, some (readableOffset o)) := by
  -- No character of a clock reading is a mark, and an offset begins with one.
  have hsplit : (timeChars t ++ offsetChars o).takeWhile (fun c => !isZoneMark c) = timeChars t := by
    rw [List.takeWhile_append_of_pos, offsetChars_eq, List.takeWhile_cons_of_neg, List.append_nil]
    · split <;> decide
    · intro c hc
      rw [isZoneMark_of_clock (isClock_timeChars t c hc)]
      rfl
  rw [readTime]
  simp only [hsplit, List.drop_left, readClock_timeChars, readZone_offsetChars]
  simp [ClockText.part, TimeOfDay.of?_self]

theorem toChars_eq (separator : Char) (t : Timestamp) {o : Offset} (ho : t.offset = some o) :
    t.toChars separator = t.date.toChars ++ separator :: (timeChars t.time ++ offsetChars o) := by
  simp [toChars, ho]

theorem dateLength_toChars (d : Date) (rest : List Char) :
    dateLength (d.toChars ++ rest) = 10 := by
  have hyear : (padded 4 d.year).length = 4 := length_padded d.bounds.1 (by omega)
  obtain ⟨c, cs, hcs, hdigit⟩ := head_padded 2 d.month ('-' :: padded 2 d.day)
  have hchars : d.toChars = padded 4 d.year ++ '-' :: c :: cs := by rw [Date.toChars_eq, hcs]
  have hgap : (d.toChars ++ rest)[4]? = some '-' := by
    rw [hchars, List.append_assoc, List.getElem?_append_right (by omega), hyear]
    rfl
  have hnext : (d.toChars ++ rest)[5]? = some c := by
    rw [hchars, List.append_assoc, List.getElem?_append_right (by omega), hyear]
    rfl
  have hlong : (d.toChars ++ rest).length ≠ 7 := by
    rw [List.length_append, Date.length_toChars]
    omega
  have hweek : ¬ (some c = some 'W') := by
    rintro ⟨⟩
    cases hdigit
  rw [dateLength, if_neg hlong, hgap, hnext, if_pos rfl, if_neg hweek]

/-- The text of a point in time is read as this point in time, with its microseconds and its offset;
only an offset of less than a second is lost. -/
theorem ofChars?_toChars {separator : Char} {t : Timestamp} {o : Offset} (ho : t.offset = some o) :
    ofChars? (t.toChars separator) = some { t with offset := some (readableOffset o) } := by
  have hlength := t.date.length_toChars
  have hlong : ¬ (t.toChars separator).length < 7 := by
    rw [toChars_eq separator t ho, List.length_append, hlength]
    omega
  rw [ofChars?, if_neg hlong, toChars_eq separator t ho, dateLength_toChars]
  simp [List.take_left' hlength, List.drop_left' hlength, Date.readFront_toChars, readTime_toChars]

/-! ## The ends of the text -/

/-- The last character is a digit. -/
def EndsInDigit (cs : List Char) : Prop := ∃ c, cs.getLast? = some c ∧ c.isDigit = true

theorem EndsInDigit.after {ds : List Char} (h : EndsInDigit ds) (cs : List Char) :
    EndsInDigit (cs ++ ds) := by
  obtain ⟨c, hlast, hc⟩ := h
  exact ⟨c, by rw [List.getLast?_append, hlast, Option.some_or], hc⟩

theorem endsInDigit_padded (k n : Nat) : EndsInDigit (padded k n) := by
  have hne := padded_ne_nil k n
  exact ⟨_, List.getLast?_eq_some_getLast hne, isDigit_padded k n _ (List.getLast_mem hne)⟩

theorem endsInDigit_fraction (k n u : Nat) : EndsInDigit (padded k n ++ fractionChars u) := by
  unfold fractionChars
  split
  · rw [List.append_nil]
    exact endsInDigit_padded k n
  · exact (EndsInDigit.after (endsInDigit_padded 6 u) ['.']).after _

theorem endsInDigit_distanceChars (o : Offset) : EndsInDigit (distanceChars o) := by
  have hminutes : EndsInDigit (padded 2 (o.micros.natAbs / 1000000 / 60 % 60) ++
      if o.micros.natAbs % 60000000 = 0 then [] else
        ':' :: (padded 2 (o.micros.natAbs / 1000000 % 60) ++
          fractionChars (o.micros.natAbs % 1000000))) := by
    split
    · rw [List.append_nil]
      exact endsInDigit_padded _ _
    · exact (EndsInDigit.after (endsInDigit_fraction _ _ _) [':']).after _
  exact (hminutes.after [':']).after _

theorem endsInDigit_toChars (separator : Char) {t : Timestamp} {o : Offset}
    (ho : t.offset = some o) : EndsInDigit (t.toChars separator) := by
  have hoffset : EndsInDigit (offsetChars o) := by
    rw [offsetChars_eq]
    exact (endsInDigit_distanceChars o).after [_]
  rw [toChars_eq separator t ho]
  exact ((hoffset.after (timeChars t.time)).after [separator]).after _

theorem head?_toChars (separator : Char) (t : Timestamp) :
    ∃ c, (t.toChars separator).head? = some c ∧ c.isDigit = true := by
  obtain ⟨c, cs, hcs, hdigit⟩ := head_padded 4 t.date.year
    ('-' :: (padded 2 t.date.month ++ '-' :: padded 2 t.date.day))
  refine ⟨c, ?_, hdigit⟩
  rw [toChars, Date.toChars_eq, hcs]
  rfl

end Timestamp

end Tablewright
