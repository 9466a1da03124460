import Tablewright.Proofs.Schema.Valid
import Tablewright.Proofs.Schema.ValueType
import Tablewright.Proofs.Value.Display
import Tablewright.Schema.Input

/-! The values that fields take. A value that was read for a field keeps all rules that are the
field's own, and it is in normal form: given again, it is read as itself and is not missing.
Defaults are read from texts and keep the rules as well, but no list was asked about them. -/

namespace Tablewright

open RecordSchema

/-- A type reads raw input as a value: one of its native values in its own form, all else as
text. -/
def ValueType.Reads (t : ValueType) (raw v : Value) : Prop :=
  if !raw.isNull && !Field.isText raw && t.admits raw then t.fromDatabase raw = .ok v
  else t.parse raw = .ok (some v)

/-- A value is in the field's list, if this is the same for all rows. -/
def Field.InPlainList (f : Field) (v : Value) : Prop :=
  ∀ l, f.list = some l → l.isKeyed = false → ValueList.among v f.valueType l.values = .ok true

namespace ValueType

variable {t : ValueType} {raw v w : Value}

theorem Reads.det (h : t.Reads raw v) (h' : t.Reads raw w) : v = w := by
  unfold Reads at h h'
  split at h
  · rw [if_pos ‹_›, h] at h'
    exact Except.ok.inj h'
  · rw [if_neg ‹_›, h] at h'
    exact Option.some.inj (Except.ok.inj h')

/-- What is read as text spells the value. -/
theorem read_of_parse (h : t.parse raw = .ok (some v)) :
    raw.isNull = false ∧ t.read (Text.strip raw.display) = .ok (some v) := by
  cases raw with
  | null => cases h
  | _ => exact ⟨rfl, h⟩

theorem Reads.own (h : t.Reads raw v) : t.admits v = true ∧ v.isNull = false := by
  unfold Reads at h
  split at h
  · rename_i hnative
    simp only [Bool.and_eq_true, Bool.not_eq_true'] at hnative
    exact fromDatabase_own hnative.2 hnative.1.1 h
  · exact read_own (read_of_parse h).2

/-- A text field reads the text that shows a value, without white space at its ends. -/
theorem reads_text :
    text.Reads raw v ↔ raw.isNull = false ∧ v = .text (Text.strip raw.display) := by
  have hnative : ¬ (!raw.isNull && !Field.isText raw && text.admits raw) = true := by
    cases raw <;> exact Bool.false_ne_true
  rw [Reads, if_neg hnative]
  constructor
  · intro h
    obtain ⟨hnull, hread⟩ := read_of_parse h
    exact ⟨hnull, (Option.some.inj (Except.ok.inj hread)).symm⟩
  · rintro ⟨hnull, rfl⟩
    cases raw with
    | null => cases hnull
    | _ => rfl

theorem decimal_of_reads (h : decimal.Reads raw v) :
    (∃ d, v = .decimal d) ∨ ∃ x, v = .nonFinite x := by
  unfold Reads at h
  split at h
  · rename_i hnative
    cases raw with
    | decimal d => exact .inl ⟨d, (Except.ok.inj h).symm⟩
    | nonFinite x => exact .inr ⟨x, (Except.ok.inj h).symm⟩
    | int | float => exact decimal_of_toDecimal h
    | null | text | bool | date | timestamp | list | map => cases hnative
  · obtain ⟨d, -, rfl⟩ := Option.map_eq_some_iff.mp (Except.ok.inj (read_of_parse h).2)
    exact .inl ⟨d, rfl⟩

/-- What was read is in the native form of its type. -/
theorem Reads.fromDatabase (h : t.Reads raw v) : t.fromDatabase v = .ok v := by
  obtain ⟨hown, hnull⟩ := h.own
  cases t with
  | decimal => rcases decimal_of_reads h with ⟨d, rfl⟩ | ⟨x, rfl⟩ <;> rfl
  | text | integer | boolean | date | timestamp =>
    cases v <;> first | (cases hown; done) | (cases hnull; done) | rfl

/-- A value that came out of the database is in the native form of its type, whatever the database
had returned: to convert it once more changes nothing. -/
theorem fromDatabase_again (h : t.fromDatabase raw = .ok v) : t.fromDatabase v = .ok v := by
  unfold ValueType.fromDatabase at h
  split at h
  · cases h
    rfl
  · cases h
    rfl
  · rename_i s _
    obtain ⟨found, hfound, rfl⟩ := map_eq_ok h
    cases found with
    | none => rfl
    | some v =>
      have hreads : Reads _ (.text s) v := hfound
      exact hreads.fromDatabase
  · obtain ⟨n, -, rfl⟩ := map_eq_ok h
    rfl
  · cases h
    rfl
  · cases h
    rfl
  · rcases decimal_of_toDecimal h with ⟨d, rfl⟩ | ⟨x, rfl⟩ <;> rfl
  · cases h
    rfl
  · cases h
    rfl
  -- Dates and timestamps come out as they were, and take the same branch again.
  all_goals
    obtain rfl := Except.ok.inj h
    rw [ValueType.fromDatabase] <;> assumption

/-- What was read is read as itself. -/
theorem Reads.self (h : t.Reads raw v) : t.Reads v v := by
  -- A text is never taken as it is: it is trimmed once more. All other values have a native form.
  by_cases ht : t = text
  · subst ht
    obtain ⟨-, rfl⟩ := reads_text.mp h
    exact reads_text.mpr ⟨rfl, congrArg Value.text (Text.strip_strip _).symm⟩
  · obtain ⟨hown, hnull⟩ := h.own
    have htext : Field.isText v = false := by
      cases v with
      | text s => cases t <;> first | exact absurd rfl ht | cases hown
      | _ => rfl
    rw [Reads, hown, hnull, htext]
    exact h.fromDatabase

/-- What was read of something is something as well. -/
theorem Reads.not_missing (h : t.Reads raw v) (hraw : isMissing raw = false) :
    isMissing v = false := by
  obtain ⟨hown, hnull⟩ := h.own
  cases v with
  | null => cases hnull
  | text s =>
    obtain rfl : t = text := by cases t <;> first | rfl | cases hown
    obtain ⟨hnull, heq⟩ := reads_text.mp h
    rw [Value.text.inj heq, isMissing, Text.isBlankText_strip]
    cases raw with
    | text s => exact hraw
    | _ => exact Text.isBlankText_of_visible (Value.visible_display hnull fun _ => nofun)
  | _ => rfl

end ValueType

/-! ## What fields take -/

/-- A value that is handed on if it is good. -/
theorem kept_iff {g : Value → Except Failure Bool} {v w : Value} :
    (g w >>= fun ok => pure (if ok = true then some w else none)) = .ok (some v) ↔
      w = v ∧ g v = .ok true := by
  cases hw : g w with
  | error e =>
    refine ⟨nofun, ?_⟩
    rintro ⟨rfl, hgood⟩
    cases hw.symm.trans hgood
  | ok ok =>
    show Except.ok (if ok = true then some w else none) = _ ↔ _
    constructor
    · intro h
      cases ok with
      | true =>
        obtain rfl := Option.some.inj (Except.ok.inj h)
        exact ⟨rfl, hw⟩
      | false => cases h
    · rintro ⟨rfl, hgood⟩
      cases hw.symm.trans hgood
      rfl

theorem ValueSchema.parse_iff {r : ValueSchema} {raw v : Value} :
    r.parse raw = .ok (some v) ↔ r.valueType.parse raw = .ok (some v) ∧ r.admits v = .ok true := by
  unfold ValueSchema.parse
  cases hp : r.valueType.parse raw with
  | error e => exact ⟨nofun, fun h => nomatch h.1⟩
  | ok found =>
    cases found with
    | none => exact ⟨nofun, fun h => nomatch h.1⟩
    | some w =>
      rw [Except.ok.injEq, Option.some.injEq]
      exact kept_iff

namespace Field

variable {f : Field} {raw v : Value}

theorem readRaw_iff :
    f.readRaw raw = .ok (some v) ↔ f.valueType.Reads raw v ∧ f.schema.admits v = .ok true := by
  unfold readRaw ValueType.Reads
  split
  · cases hv : f.valueType.fromDatabase raw with
    | error e => exact ⟨nofun, fun h => nomatch h.1⟩
    | ok w =>
      rw [Except.ok.injEq]
      exact kept_iff
  · exact ValueSchema.parse_iff

/-- A field without a list that is the same for all rows has no list to ask on its own. -/
theorem inPlainList_of_keyed (h : ∀ l, f.list = some l → l.isKeyed = true) :
    f.InPlainList v := fun l hl hplain => absurd (h l hl) (by rw [hplain]; exact Bool.false_ne_true)

theorem inPlainList_iff {l : ValueList} (hl : f.list = some l) (hplain : l.isKeyed = false) :
    f.InPlainList v ↔ ValueList.among v f.valueType l.values = .ok true := by
  refine ⟨fun h => h l hl hplain, fun h l' hl' _ => ?_⟩
  obtain rfl := Option.some.inj (hl.symm.trans hl')
  exact h

/-- A field takes what its type reads, if it keeps the rules and is in the field's list. -/
theorem parse_iff : f.parse raw = .ok (some v) ↔
    f.valueType.Reads raw v ∧ f.schema.admits v = .ok true ∧ f.InPlainList v := by
  rw [← and_assoc, ← readRaw_iff, parse]
  cases hread : f.readRaw raw with
  | error e => exact ⟨nofun, fun h => nomatch h.1⟩
  | ok found =>
    cases found with
    | none => cases f.list <;> exact ⟨nofun, fun h => nomatch h.1⟩
    | some w =>
      cases hl : f.list with
      | none => exact (and_iff_left (inPlainList_of_keyed (by simp [hl]))).symm
      | some l =>
        show (if l.isKeyed = true then pure (some w) else _ : Except Failure (Option Value)) = _ ↔ _
        cases hkeyed : l.isKeyed with
        | true =>
          refine (and_iff_left (inPlainList_of_keyed fun l' hl' => ?_)).symm
          rwa [← Option.some.inj (hl.symm.trans hl')]
        | false =>
          rw [inPlainList_iff hl hkeyed, Except.ok.injEq, Option.some.injEq]
          exact kept_iff (g := fun v => ValueList.among v f.valueType l.values)

/-- What a field takes it takes again, as itself. -/
theorem parse_self (h : f.parse raw = .ok (some v)) : f.parse v = .ok (some v) := by
  obtain ⟨hreads, hkept⟩ := parse_iff.mp h
  exact parse_iff.mpr ⟨hreads.self, hkept⟩

end Field

/-! ## Defaults -/

/-- The default of a declared field was read from a text and keeps the rules, if there is one. -/
theorem RecordSchema.Valid.default_cases {s : RecordSchema} (hs : s.Valid) {f : Field}
    (hf : f ∈ s.fields) : f.default = .null ∨
      (∃ text, f.valueType.Reads (.text text) f.default) ∧
        f.schema.admits f.default = .ok true := by
  obtain ⟨d, -, hdeclares⟩ := hs.declares
  obtain ⟨e, -, -, v, hv, rfl⟩ := hdeclares f hf
  show v = .null ∨
    (∃ text, e.1.valueType.Reads (.text text) v) ∧ e.1.valueSchema.admits v = .ok true
  unfold defaultOf at hv
  split at hv
  · rename_i text _
    obtain ⟨found, hfound, rfl⟩ := ValueType.map_eq_ok hv
    cases found with
    | none => exact .inl rfl
    | some w =>
      obtain ⟨hread, hgood⟩ := ValueSchema.parse_iff.mp hfound
      exact .inr ⟨⟨text, hread⟩, hgood⟩
  · exact .inl (Except.ok.inj hv).symm

end Tablewright
