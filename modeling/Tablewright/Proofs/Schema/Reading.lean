import Tablewright.Proofs.Ending
import Tablewright.Proofs.Number.Rounding
import Tablewright.Proofs.Schema.Keys

/-! What client text is read as. A type takes a text for one of its values or for none, and so do
the rules and the lists of a field; there is one text that does neither, a decimal that is given
for an integer and has too many digits when it is rounded. -/

namespace Tablewright

open Check

namespace ValueType

/-- A text that is given for an integer, is none, has its point not too far out, and spells a
decimal that has too many digits when it is rounded. -/
structure Overflows (t : ValueType) (text : String) : Prop where
  integer : t = .integer
  notInteger : Integer.ofText? (Text.strip text) = none
  point : '.' ∈ (Text.strip text).toList
  near : (Text.strip text).toList.idxOf '.' ≤ maxWholeLength
  decimal : ∃ d, Decimal.ofText? (Text.strip text) = some d ∧ d.RoundsTooFar

variable {t : ValueType} {text : String}

theorem parseText_eq (t : ValueType) (text : String) :
    t.parseText text = t.read (Text.strip text) := rfl

/-- The point of the text of a decimal, and whether it is not too far out to be rounded. -/
def PointNear (text : String) : Prop := '.' ∈ text.toList ∧ text.toList.idxOf '.' ≤ maxWholeLength

theorem readInteger_of_integer {n : ℤ} (h : Integer.ofText? text = some n) :
    readInteger text = .ok (some (.int n)) := by
  rw [readInteger, h]

theorem readInteger_of_far (h : Integer.ofText? text = none) (hp : ¬ PointNear text) :
    readInteger text = .ok none := by
  have hfar : text.toList.length ≤ text.toList.idxOf '.' ∨
      maxWholeLength < text.toList.idxOf '.' := by
    by_contra hnot
    obtain ⟨hlt, hnear⟩ := not_or.mp hnot
    exact hp ⟨List.idxOf_lt_length_iff.mp (Nat.lt_of_not_le hlt), Nat.le_of_not_lt hnear⟩
  rw [readInteger, h]
  exact if_pos hfar

theorem readInteger_of_near (h : Integer.ofText? text = none) (hp : PointNear text) :
    readInteger text = match Decimal.ofText? text with
      | none => .ok none
      | some d => match d.nearest? with
        | some n => .ok (some (.int n))
        | none => .error .decimalRange := by
  have hnear : ¬ (text.toList.length ≤ text.toList.idxOf '.' ∨
      maxWholeLength < text.toList.idxOf '.') := by
    have hlt := List.idxOf_lt_length_iff.mpr hp.1
    have hle := hp.2
    omega
  rw [readInteger, h]
  exact if_neg hnear

theorem readInteger_of_overflows (h : integer.Overflows text) :
    readInteger (Text.strip text) = .error .decimalRange := by
  obtain ⟨d, hd, hlarge⟩ := h.decimal
  rw [readInteger_of_near h.notInteger ⟨h.point, h.near⟩, hd]
  simp only [Decimal.nearest?_eq, hlarge, if_true]

theorem readInteger_cases (text : String) : (∃ v, readInteger (Text.strip text) = .ok v) ∨
    integer.Overflows text := by
  cases hi : Integer.ofText? (Text.strip text) with
  | some n => exact .inl ⟨_, readInteger_of_integer hi⟩
  | none =>
    by_cases hp : PointNear (Text.strip text)
    · rw [readInteger_of_near hi hp]
      cases hd : Decimal.ofText? (Text.strip text) with
      | none => exact .inl ⟨_, rfl⟩
      | some d =>
        dsimp only
        rw [Decimal.nearest?_eq]
        by_cases hlarge : d.RoundsTooFar
        · exact .inr ⟨rfl, hi, hp.1, hp.2, d, hd, hlarge⟩
        · rw [if_neg hlarge]
          exact .inl ⟨_, rfl⟩
    · exact .inl ⟨_, readInteger_of_far hi hp⟩

/-- Text is read as a value or as none, unless it overflows. -/
theorem yields_parseText (t : ValueType) (text : String) :
    Yields (t.Overflows text) (t.parseText text) := by
  rw [parseText_eq]
  cases t with
  | integer =>
    rcases readInteger_cases text with hread | hover
    · exact .inl hread
    · have hfails := readInteger_of_overflows hover
      exact .inr ⟨hover, hfails⟩
  | text | decimal | boolean | date | timestamp => exact .inl ⟨_, rfl⟩

theorem parseText_of_overflows (h : t.Overflows text) : t.parseText text = .error .decimalRange := by
  obtain rfl := h.integer
  have hfails := readInteger_of_overflows h
  exact hfails

/-- Such a text need not be long. -/
theorem overflows_short : integer.Overflows "1.5e28" where
  integer := rfl
  notInteger := by decide +kernel
  point := by decide +kernel
  near := by decide +kernel
  decimal := by
    have hlarge : (Decimal.ofText? (Text.strip "1.5e28")).any (decide ·.RoundsTooFar) = true := by
      decide +kernel
    cases hd : Decimal.ofText? (Text.strip "1.5e28") with
    | none =>
      rw [hd] at hlarge
      cases hlarge
    | some d =>
      rw [hd, Option.any_some] at hlarge
      exact ⟨d, rfl, of_decide_eq_true hlarge⟩

/-- A text that does not overflow is read as none or as a value of the type that is not null; one
that does is a failure. -/
theorem parseText_cases (t : ValueType) (text : String) :
    (¬ t.Overflows text ∧ ∃ v, t.parseText text = .ok v ∧
        ∀ w, v = some w → t.admits w = true ∧ w.isNull = false) ∨
      t.Overflows text ∧ t.parseText text = .error .decimalRange := by
  by_cases hover : t.Overflows text
  · exact .inr ⟨hover, parseText_of_overflows hover⟩
  · obtain ⟨v, hv⟩ := (t.yields_parseText text).resolve_right fun h => hover h.1
    refine .inl ⟨hover, v, hv, ?_⟩
    intro w hw
    subst hw
    exact read_own hv

end ValueType

/-! ## Rules and lists -/

/-- The numbers that text is read as are finite. -/
theorem ValueType.amount_of_read {t : ValueType} {s : String} {v : Value}
    (h : t.read s = .ok (some v)) (ht : t.isNumeric = true) : v.amount?.isSome = true := by
  cases t with
  | integer =>
    obtain ⟨n, rfl⟩ := readInteger_int h
    rfl
  | decimal =>
    obtain ⟨d, -, rfl⟩ := Option.map_eq_some_iff.mp (Except.ok.inj h)
    rfl
  | text | boolean | date | timestamp => cases ht

namespace ValueSchema

variable {r : ValueSchema}

/-- A number can be compared with every bound there is. -/
theorem admitsNumber_of_amount {v : Value} (h : v.amount?.isSome = true) :
    ∃ ok, r.admitsNumber v = .ok ok := by
  obtain ⟨d, hd⟩ := Option.isSome_iff_exists.mp h
  have hbelow (bound : Decimal) : isBelow v bound = .ok (d.less bound) := by rw [isBelow, hd]
  have habove (bound : Decimal) : isAbove v bound = .ok (bound.less d) := by rw [isAbove, hd]
  unfold admitsNumber
  simp only [hbelow, habove]
  cases r.minValue with
  | none => cases r.maxValue <;> exact ⟨_, rfl⟩
  | some lower =>
    show ∃ ok, (if d.less lower = true then .ok false else _ : Except Failure Bool) = .ok ok
    split
    · exact ⟨_, rfl⟩
    · cases r.maxValue <;> exact ⟨_, rfl⟩

/-- Whether a value that was read from text keeps the rules can be told, if there is no pattern
among them, or none that is asked for. -/
theorem admits_of_read {s : String} {v : Value} (hp : ∀ text, v = .text text → r.pattern = none)
    (h : r.valueType.read s = .ok (some v)) : ∃ ok, r.admits v = .ok ok := by
  unfold admits
  by_cases hnull : v.isNull = true
  · exact ⟨true, if_pos hnull⟩
  rw [if_neg hnull]
  by_cases hother : (!r.valueType.admits v) = true
  · exact ⟨false, if_pos hother⟩
  rw [if_neg hother]
  split
  · rename_i s'
    unfold admitsText
    dsimp only
    split
    · exact ⟨false, rfl⟩
    · exact ⟨true, by rw [hp s' rfl]; rfl⟩
  · by_cases ht : r.valueType.isNumeric = true
    · rw [if_pos ht]
      exact admitsNumber_of_amount (ValueType.amount_of_read h ht)
    · exact ⟨true, if_neg ht⟩

theorem yields_parse (hp : r.pattern = none) (text : String) :
    Yields (r.valueType.Overflows text) (r.parse (.text text)) := by
  refine (r.valueType.yields_parseText text).bind fun v hv => ?_
  cases v with
  | none => exact .inl ⟨_, rfl⟩
  | some v =>
    obtain ⟨ok, hok⟩ := admits_of_read (fun _ _ => hp) hv
    refine .inl ⟨if ok = true then some v else none, ?_⟩
    show (r.admits v >>= fun ok => pure (if ok = true then some v else none)) = _
    rw [hok]
    rfl

end ValueSchema

namespace ValueList

variable {l : ValueList} {t : ValueType} {v : Value}

/-- All entries, whatever key they stand under. -/
def entries (l : ValueList) : List String := l.values ++ l.keyedValues.flatMap (·.2)

theorem yields_among (v : Value) (t : ValueType) (entries : List String) :
    Yields (∃ entry ∈ entries, t.Overflows entry) (among v t entries) := by
  have hread : Yields (∃ entry ∈ entries, t.Overflows entry) (entries.mapM t.parseText) :=
    yields_mapM fun entry he => (t.yields_parseText entry).mono fun hover => ⟨entry, he, hover⟩
  exact hread.map.map

/-- Whether a list has a value, for a keyed one in the list that the key selects. -/
def has (l : ValueList) (v : Value) (t : ValueType) (key : Value) : Bool :=
  v.isNull || match if l.isKeyed then l.entriesFor key else some l.values with
    | some entries => (among v t entries).toOption.getD false
    | none => false

theorem mem_entries_of_entriesFor {key : Value} {entries : List String} {entry : String}
    (h : l.entriesFor key = some entries) (he : entry ∈ entries) : entry ∈ l.entries := by
  obtain ⟨e, hfound, rfl⟩ := Option.map_eq_some_iff.mp h
  have hmem := List.mem_of_find?_eq_some hfound
  exact List.mem_append_right _ (List.mem_flatMap.mpr ⟨e, hmem, he⟩)

theorem endsUnless_admits (l : ValueList) (v : Value) (t : ValueType) (key : Value) :
    EndsUnless (∃ entry ∈ l.entries, t.Overflows entry) (l.admits v t key) (l.has v t key) [] := by
  unfold admits has
  by_cases hnull : v.isNull = true
  · simp only [hnull, if_true, Bool.true_or]
    exact ends_pure.unless
  simp only [hnull, Bool.false_eq_true, if_false, Bool.false_or]
  by_cases hkeyed : l.isKeyed = true
  · simp only [hkeyed, Bool.not_true, Bool.false_eq_true, if_false, if_true]
    cases he : l.entriesFor key with
    | none => exact ends_note.unless.then ends_pure.unless
    | some entries =>
      refine (yields_among v t entries).endsUnless.mono fun hover => ?_
      obtain ⟨entry, hentry, hover⟩ := hover
      exact ⟨entry, mem_entries_of_entriesFor he hentry, hover⟩
  · simp only [hkeyed, Bool.not_false, if_true]
    refine (yields_among v t l.values).endsUnless.mono fun hover => ?_
    obtain ⟨entry, hentry, hover⟩ := hover
    exact ⟨entry, List.mem_append_left _ hentry, hover⟩

end ValueList

namespace Field

variable {f : Field}

/-- An entry of the field's list of values overflows. -/
def ListOverflows (f : Field) : Prop :=
  ∃ l, f.list = some l ∧ ∃ entry ∈ l.entries, f.valueType.Overflows entry

/-- What is read for a field is taken or not, unless the field has one list for all rows and an entry
of it overflows. -/
theorem yields_parse_of_readRaw {raw : Value} {reason : Prop} (hread : Yields reason (f.readRaw raw))
    (hlist : ∀ l, f.list = some l → l.isKeyed = false →
      (∃ entry ∈ l.values, f.valueType.Overflows entry) → reason) : Yields reason (f.parse raw) := by
  refine hread.bind fun v _ => ?_
  split
  · rename_i v l hl _
    split
    · exact .inl ⟨_, rfl⟩
    · rename_i hkeyed
      refine Yields.bind (Yields.mono (ValueList.yields_among v f.valueType l.values) ?_) ?_
      · exact hlist l hl (Bool.eq_false_of_not_eq_true hkeyed)
      · intro ok _
        exact .inl ⟨_, rfl⟩
  · exact .inl ⟨_, rfl⟩

/-- Text is taken for a field or not, unless it overflows or an entry of the field's list does. -/
theorem yields_parse (hp : f.schema.pattern = none) (text : String) :
    Yields (f.valueType.Overflows text ∨ f.ListOverflows) (f.parse (.text text)) := by
  have hread : Yields (f.valueType.Overflows text ∨ f.ListOverflows) (f.readRaw (.text text)) :=
    (ValueSchema.yields_parse hp text).mono .inl
  refine yields_parse_of_readRaw hread fun l hl _ hover => ?_
  obtain ⟨entry, hentry, hover⟩ := hover
  exact .inr ⟨l, hl, entry, List.mem_append_left _ hentry, hover⟩

end Field

/-- The default value of a declared field can be read, unless its text overflows. -/
theorem RecordSchema.yields_defaultOf {d : FieldDeclaration} (hp : d.pattern = none) :
    Yields (∃ text, d.defaultValue = some text ∧ d.valueType.Overflows text) (defaultOf d) := by
  unfold defaultOf
  split
  · rename_i text htext
    refine Yields.map (Yields.mono (d.valueSchema.yields_parse hp text) ?_)
    exact fun hover => ⟨text, htext, hover⟩
  · exact .inl ⟨_, rfl⟩

end Tablewright
