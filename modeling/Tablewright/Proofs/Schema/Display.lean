import Tablewright.Proofs.Calendar.Timestamp
import Tablewright.Proofs.Schema.NormalForm
import Tablewright.Proofs.Schema.Reading

/-! Native values and the texts that show them. A field takes a value of its own type as it is and
reads everything else as text. It makes no difference which of the two it is given: the text that
shows a value is read as the value itself, and what a text field keeps is read as itself again. A
point in time is the exception, if its offset is less than a second and not zero: its text is read
without the offset. -/

namespace Tablewright

open Timestamp

/-- Values that are read from the text that shows them: integers that are not too long, decimals
that can be written, truth values, dates, and points in time whose offset is known, and zero or at
least a second either way. -/
def Value.Rereadable : Value → Prop
  | .int n => (Nat.toDigits 10 n.natAbs).length ≤ Integer.maxDigits
  | .decimal d => d.inRange = true
  | .bool _ | .date _ => True
  | .timestamp t => ∃ o, t.offset = some o ∧ (o.micros = 0 ∨ 1000000 ≤ o.micros.natAbs)
  | _ => False

namespace ValueType

variable {t : ValueType} {raw : Value}

/-! ## Reading -/

theorem spellZone_of_digit {cs : List Char} (h : EndsInDigit cs) : spellZone cs = cs := by
  obtain ⟨c, hlast, hc⟩ := h
  rw [List.getLast?_eq_head?_reverse] at hlast
  unfold spellZone
  split
  · rename_i hcs
    rw [hcs] at hlast
    cases hlast
    cases hc
  · rename_i hcs
    rw [hcs] at hlast
    cases hlast
    cases hc
  · rfl

/-- A point in time is read from its text as it was, its offset as far as it can be read. -/
theorem readTimestamp_toSpacedText {t : Timestamp} {o : Offset} (ho : t.offset = some o) :
    readTimestamp t.toSpacedText =
      some (.timestamp { t with offset := some (readableOffset o) }) := by
  rw [readTimestamp, toSpacedText, String.toList_ofList,
    spellZone_of_digit (endsInDigit_toChars ' ' ho), ofChars?_toChars ho]
  rfl

theorem readableOffset_eq {o : Offset} (h : o.micros = 0 ∨ 1000000 ≤ o.micros.natAbs) :
    readableOffset o = o := by
  unfold readableOffset
  split
  · obtain ⟨micros, hday⟩ := o
    obtain rfl : micros = 0 := h.resolve_right (Nat.not_le.mpr ‹_›)
    rfl
  · rfl

theorem strip_toSpacedText {t : Timestamp} {o : Offset} (ho : t.offset = some o) :
    Text.strip t.toSpacedText = t.toSpacedText := by
  obtain ⟨c, hfirst, hc⟩ := head?_toChars ' ' t
  obtain ⟨d, hlast, hd⟩ := endsInDigit_toChars ' ' ho
  have hchars : t.toSpacedText.toList = t.toChars ' ' := String.toList_ofList
  refine Text.strip_eq (c := c) (d := d) (hchars ▸ hfirst) (hchars ▸ hlast) ?_ ?_
  · exact Text.isBlank_of_digit (Text.digit?_of_isDigit hc)
  · exact Text.isBlank_of_digit (Text.digit?_of_isDigit hd)

/-- The text of a point in time is read as this point in time, its offset as far as it can be. -/
theorem parseText_timestamp {t : Timestamp} {o : Offset} (ho : t.offset = some o) :
    timestamp.parseText (Value.timestamp t).display =
      .ok (some (.timestamp { t with offset := some (readableOffset o) })) := by
  show Except.ok (readTimestamp (Text.strip t.toSpacedText)) = _
  rw [strip_toSpacedText ho, readTimestamp_toSpacedText ho]

/-- The text of such a value has no white space at its ends. -/
theorem strip_display (h : raw.Rereadable) : Text.strip raw.display = raw.display := by
  have hstrip {s : String} (hs : ∀ c ∈ s.toList, Decimal.Printed c) : Text.strip s = s := by
    rw [Text.strip, Decimal.trim_of_printed hs, String.ofList_toList]
  cases raw with
  | int n => exact hstrip (Decimal.printed_toText n)
  | decimal d =>
    have hprinted : ∀ c ∈ d.toText.toList, Decimal.Printed c := by
      rw [Decimal.toText, String.toList_ofList]
      exact d.printed_toChars
    exact hstrip hprinted
  | bool b => cases b <;> decide
  | date d =>
    have hprinted : ∀ c ∈ d.toText.toList, Decimal.Printed c := by
      rw [Date.toText, String.toList_ofList]
      exact d.printed_toChars
    exact hstrip hprinted
  | timestamp t =>
    obtain ⟨o, ho, -⟩ := h
    exact strip_toSpacedText ho
  | _ => exact h.elim

theorem readBoolean_boolText (b : Bool) : readBoolean (Value.boolText b) = some (.bool b) := by
  cases b with
  | false =>
    have hword : "False".map Char.toLower = "false" := by decide +kernel
    rw [Value.boolText, if_neg Bool.false_ne_true, readBoolean, hword]
    rfl
  | true =>
    have hword : "True".map Char.toLower = "true" := by decide +kernel
    rw [Value.boolText, if_pos rfl, readBoolean, hword]
    rfl

/-- The text that shows a value of the type is read as this value, an integer as a decimal where
these are asked for. -/
theorem parseText_display (hadmits : t.admits raw = true) (h : raw.Rereadable) :
    t.parseText raw.display = .ok (some (t.native raw)) := by
  rw [parseText_eq, strip_display h]
  cases raw with
  | int n =>
    cases t with
    | integer => exact readInteger_of_integer (Integer.ofText?_toText h)
    | decimal =>
      show Except.ok ((Decimal.ofText? (Integer.toText n)).map Value.decimal) = _
      rw [Decimal.ofText?_integer, if_pos (Decimal.inRange_ofInt h)]
      rfl
    | text | boolean | date | timestamp => cases hadmits
  | decimal d =>
    cases t with
    | decimal =>
      show Except.ok ((Decimal.ofText? d.toText).map Value.decimal) = _
      rw [Decimal.ofText?_toText h]
      rfl
    | text | integer | boolean | date | timestamp => cases hadmits
  | bool b =>
    cases t with
    | boolean =>
      show Except.ok (readBoolean (Value.boolText b)) = _
      rw [readBoolean_boolText]
      rfl
    | text | integer | decimal | date | timestamp => cases hadmits
  | date d =>
    cases t with
    | date =>
      show Except.ok ((Date.ofText? d.toText).map Value.date) = _
      rw [Date.ofText?_toText]
      rfl
    | text | integer | decimal | boolean | timestamp => cases hadmits
  | timestamp s =>
    cases t with
    | timestamp =>
      obtain ⟨o, ho, hsize⟩ := h
      have hstrip : Text.strip (Value.timestamp s).display = (Value.timestamp s).display :=
        strip_display ⟨o, ho, hsize⟩
      have hparse := parseText_timestamp ho
      rwa [readableOffset_eq hsize, ← ho, parseText_eq, hstrip] at hparse
    | text | integer | decimal | boolean | date => cases hadmits
  | _ => exact h.elim

/-- A value of the type is brought into the form that its text is read in. -/
theorem fromDatabase_of_rereadable (hadmits : t.admits raw = true) (h : raw.Rereadable) :
    t.fromDatabase raw = .ok (t.native raw) := by
  refine fromDatabase_of_keeps ?_
  cases raw with
  | int n =>
    cases t with
    | decimal => exact decide_eq_true h
    | _ => exact hadmits
  | decimal | bool | date | timestamp => cases t <;> exact hadmits
  | _ => exact h.elim

end ValueType

/-! ## Fields -/

namespace Field

variable {f : Field} {raw : Value}

/-- The entries of the field's list can be read, as far as they are looked at without the rest of
the row. -/
def ReadsEntries (f : Field) : Prop :=
  ∀ l, f.list = some l → l.isKeyed = false → ∀ entry ∈ l.values,
    ∃ v, f.valueType.parseText entry = .ok v

theorem readRaw_display (hadmits : f.valueType.admits raw = true) (h : raw.Rereadable) :
    f.readRaw raw = f.readRaw (.text raw.display) := by
  have hnative : (!raw.isNull && !isText raw && f.valueType.admits raw) = true := by
    rw [hadmits]
    cases raw with
    | int | decimal | bool | date | timestamp => rfl
    | _ => exact h.elim
  have htext : f.schema.valueType.parse (.text raw.display) = .ok (some (f.valueType.native raw)) :=
    ValueType.parseText_display hadmits h
  have hparse : f.readRaw (.text raw.display) = f.schema.parse (.text raw.display) := by
    unfold readRaw
    rw [if_neg (by simp [isText])]
  rw [hparse, readRaw, if_pos hnative, ValueType.fromDatabase_of_rereadable hadmits h,
    ValueSchema.parse, htext]
  rfl

/-- A value and its text are taken or refused alike. -/
theorem parse_eq_display (hadmits : f.valueType.admits raw = true) (h : raw.Rereadable) :
    f.parse raw = f.parse (.text raw.display) := by
  rw [parse, parse, readRaw_display hadmits h]

/-- The rules of the field can be asked about a value of the type. -/
theorem ends_readRaw (hadmits : f.valueType.admits raw = true) (h : raw.Rereadable) :
    ∃ r, f.readRaw (.text raw.display) = .ok r := by
  have htext : f.schema.valueType.parse (.text raw.display) = .ok (some (f.valueType.native raw)) :=
    ValueType.parseText_display hadmits h
  have hpattern : ∀ text, f.valueType.native raw = .text text → f.schema.pattern = none := by
    intro text hnative
    cases raw with
    | int | decimal | bool | date | timestamp =>
      cases hv : f.valueType <;> rw [hv] at hnative <;> cases hnative
    | _ => exact h.elim
  obtain ⟨ok, hok⟩ := ValueSchema.admits_of_read hpattern (ValueType.read_of_parse htext).2
  refine ⟨if ok = true then some (f.valueType.native raw) else none, ?_⟩
  rw [readRaw, if_neg (by simp [isText]), ValueSchema.parse, htext]
  show (f.schema.admits (f.valueType.native raw) >>= fun ok => pure _) = _
  rw [hok]
  rfl

theorem ends_parse_display (hentries : f.ReadsEntries) (hadmits : f.valueType.admits raw = true)
    (h : raw.Rereadable) : ∃ r, f.parse (.text raw.display) = .ok r := by
  have hlist : ∀ l, f.list = some l → l.isKeyed = false →
      (∃ entry ∈ l.values, f.valueType.Overflows entry) → False := by
    rintro l hl hkeyed ⟨entry, hentry, hover⟩
    obtain ⟨v, hv⟩ := hentries l hl hkeyed entry hentry
    rw [ValueType.parseText_of_overflows hover] at hv
    cases hv
  exact (yields_parse_of_readRaw (.inl (ends_readRaw hadmits h)) hlist).resolve_right And.left

/-- Native values and their texts are the same input. The text that shows a value of a type is read
as this value, with a decimal's sign, digits and power of ten and with the microseconds and the
offset of a point in time; a field of the type is given the one or the other with the same result. A
text is read without the white space at its ends, and what was read so is read as itself again. -/
theorem parse_display :
    (∀ (t : ValueType) (raw : Value), t.admits raw = true → raw.Rereadable →
      t.parseText raw.display = .ok (some (t.native raw)) ∧
      ∀ f : Field, f.valueType = t → f.ReadsEntries →
        ∃ r, f.parse raw = .ok r ∧ f.parse (.text raw.display) = .ok r) ∧
    ∀ s, ValueType.text.parseText s = .ok (some (.text (Text.strip s))) ∧
      ValueType.text.parseText (Text.strip s) = .ok (some (.text (Text.strip s))) := by
  refine ⟨fun t raw hadmits h => ⟨ValueType.parseText_display hadmits h, ?_⟩, fun s => ⟨rfl, ?_⟩⟩
  · rintro f rfl hentries
    obtain ⟨r, hr⟩ := ends_parse_display hentries hadmits h
    exact ⟨r, (parse_eq_display hadmits h).trans hr, hr⟩
  · show Except.ok (some (Value.text (Text.strip (Text.strip s)))) = _
    rw [Text.strip_strip]

/-- A decimal of at least zero that is one of two. -/
def discount : Field :=
  { (Inhabited.default : Field) with
    name := "discount"
    schema :=
      { (Inhabited.default : ValueSchema) with
        valueType := .decimal
        minValue := some (.ofNat 0) }
    list := some { name := "discounts", values := ["0", "12.50"], keyedValues := [] } }

/-- Zero with a sign and two places keeps them, whether it is given as a number or as text. -/
theorem parse_display_discount :
    ValueType.decimal.admits (.decimal ⟨true, 0, -2⟩) = true ∧
    (Value.decimal ⟨true, 0, -2⟩).Rereadable ∧ discount.ReadsEntries ∧
    (Value.decimal ⟨true, 0, -2⟩).display = "-0.00" ∧
    ValueType.decimal.parseText (Value.decimal ⟨true, 0, -2⟩).display =
      .ok (some (.decimal ⟨true, 0, -2⟩)) ∧
    ∃ r, discount.parse (.decimal ⟨true, 0, -2⟩) = .ok r ∧
      discount.parse (.text (Value.decimal ⟨true, 0, -2⟩).display) = .ok r := by
  have hrange : (Value.decimal ⟨true, 0, -2⟩).Rereadable := by
    show Decimal.inRange _ = true
    decide
  have hentries : discount.ReadsEntries := fun _ _ _ _ _ => ⟨_, rfl⟩
  have hsame := parse_display.1 .decimal (.decimal ⟨true, 0, -2⟩) rfl hrange
  exact ⟨rfl, hrange, hentries, by decide +kernel, hsame.1, hsame.2 discount rfl hentries⟩

/-- A point in time whose clock is half a second ahead of universal time. -/
def halfSecondAhead : Timestamp where
  date := { year := 2024, month := 1, day := 2 }
  time := { hour := 3, minute := 4, second := 5, microsecond := 0 }
  offset := some { micros := 500000 }

/-- A point in time without further rules. -/
def moment : Field :=
  { (Inhabited.default : Field) with
    schema := { (Inhabited.default : ValueSchema) with valueType := .timestamp } }

/-- An offset of half a second is kept in a native value and lost in its text. -/
theorem parse_halfSecondAhead :
    halfSecondAhead.offset.isSome = true ∧ moment.ReadsEntries ∧
    { halfSecondAhead with offset := some .utc } ≠ halfSecondAhead ∧
    moment.valueType.parseText (Value.timestamp halfSecondAhead).display =
      .ok (some (.timestamp { halfSecondAhead with offset := some .utc })) ∧
    moment.parse (.timestamp halfSecondAhead) = .ok (some (.timestamp halfSecondAhead)) ∧
    moment.parse (.text (Value.timestamp halfSecondAhead).display) =
      .ok (some (.timestamp { halfSecondAhead with offset := some .utc })) := by
  have hread : ValueType.timestamp.parseText (Value.timestamp halfSecondAhead).display =
      .ok (some (.timestamp { halfSecondAhead with offset := some .utc })) :=
    ValueType.parseText_timestamp (t := halfSecondAhead) (o := { micros := 500000 }) rfl
  have hparse : ValueType.timestamp.parse (.text (Value.timestamp halfSecondAhead).display) =
      .ok (some (.timestamp { halfSecondAhead with offset := some .utc })) := hread
  refine ⟨rfl, nofun, by decide, hread, rfl, ?_⟩
  have hschema : moment.schema.valueType = .timestamp := rfl
  rw [parse, readRaw, if_neg (by simp [isText]), ValueSchema.parse, hschema, hparse]
  rfl

end Field

end Tablewright
