import Tablewright.Proofs.Number.Decimal
import Tablewright.Proofs.Value.Same
import Tablewright.Schema.ValueType

/-! What the types of fields make of database values. A value of a column's own type comes back
as it is, only that integers come out of a decimal column as decimals. -/

namespace Tablewright.ValueType

theorem map_eq_ok {ε α β : Type} {r : Except ε α} {f : α → β} {b : β} (h : r.map f = .ok b) :
    ∃ a, r = .ok a ∧ f a = b := by
  cases r with
  | error e => cases h
  | ok a => exact ⟨a, rfl, Except.ok.inj h⟩

theorem bind_eq_ok {ε α β : Type} {r : Except ε α} {f : α → Except ε β} {b : β}
    (h : r >>= f = .ok b) : ∃ a, r = .ok a ∧ f a = .ok b := by
  cases r with
  | error e => cases h
  | ok a => exact ⟨a, rfl, h⟩

theorem isPlain_of_admits {t : ValueType} {v : Value} (h : t.admits v = true) : v.isPlain = true := by
  cases v with
  | list | map => cases t <;> cases h
  | _ => rfl

/-! ## Values that are read -/

theorem readInteger_int {s : String} {v : Value} (h : readInteger s = .ok (some v)) :
    ∃ n, v = .int n := by
  unfold readInteger at h
  split at h
  · exact ⟨_, (Option.some.inj (Except.ok.inj h)).symm⟩
  · dsimp only at h
    split at h
    · cases h
    · split at h
      · cases h
      · split at h
        · exact ⟨_, (Option.some.inj (Except.ok.inj h)).symm⟩
        · cases h

/-- What a text spells is a value of the type, and not null. -/
theorem read_own {t : ValueType} {s : String} {v : Value} (h : t.read s = .ok (some v)) :
    t.admits v = true ∧ v.isNull = false := by
  cases t with
  | text =>
    obtain rfl := Option.some.inj (Except.ok.inj h)
    exact ⟨rfl, rfl⟩
  | integer =>
    obtain ⟨n, rfl⟩ := readInteger_int h
    exact ⟨rfl, rfl⟩
  | decimal | date | timestamp =>
    obtain ⟨x, -, rfl⟩ := Option.map_eq_some_iff.mp (Except.ok.inj h)
    exact ⟨rfl, rfl⟩
  | boolean =>
    have h : readBoolean s = some v := Except.ok.inj h
    unfold readBoolean at h
    dsimp only at h
    split at h
    · cases h
      exact ⟨rfl, rfl⟩
    · split at h
      · cases h
        exact ⟨rfl, rfl⟩
      · cases h

theorem isPlain_parseText {t : ValueType} {s : String} {v : Option Value}
    (h : t.parseText s = .ok v) : (Value.ofOption v).isPlain = true := by
  cases v with
  | none => rfl
  | some v =>
    have h : t.read (Text.strip (Value.display (.text s))) = .ok (some v) := h
    exact isPlain_of_admits (read_own h).1

theorem decimal_of_toDecimal {v x : Value} (h : toDecimal v = .ok x) :
    (∃ d, x = .decimal d) ∨ ∃ y, x = .nonFinite y := by
  unfold toDecimal at h
  split at h
  · exact .inl ⟨_, (Except.ok.inj h).symm⟩
  · exact .inr ⟨_, (Except.ok.inj h).symm⟩
  · cases h

theorem toDecimal_own {v x : Value} (h : toDecimal v = .ok x) :
    decimal.admits x = true ∧ x.isNull = false := by
  rcases decimal_of_toDecimal h with ⟨d, rfl⟩ | ⟨y, rfl⟩ <;> exact ⟨rfl, rfl⟩

/-- The native form of a value of the type is one as well. -/
theorem fromDatabase_own {t : ValueType} {v x : Value} (hv : t.admits v = true)
    (hnull : v.isNull = false) (h : t.fromDatabase v = .ok x) :
    t.admits x = true ∧ x.isNull = false := by
  cases v with
  | null => cases hnull
  | list | map => cases t <;> cases hv
  | int n =>
    cases t with
    | integer =>
      cases h
      exact ⟨rfl, rfl⟩
    | decimal => exact toDecimal_own h
    | _ => cases hv
  | float y =>
    cases t with
    | decimal => exact toDecimal_own h
    | _ => cases hv
  | text | bool | decimal | nonFinite | date | timestamp =>
    cases t <;> first | (cases hv; done) | (cases h; exact ⟨rfl, rfl⟩)

/-- The native form of a value holds no other values, if the value does not. -/
theorem isPlain_fromDatabase {t : ValueType} {v x : Value} (h : t.fromDatabase v = .ok x)
    (hv : v.isPlain = true) : x.isPlain = true := by
  unfold fromDatabase at h
  split at h
  · obtain rfl := Except.ok.inj h
    rfl
  · obtain rfl := Except.ok.inj h
    rfl
  · obtain ⟨p, hp, rfl⟩ := map_eq_ok h
    exact isPlain_parseText hp
  · obtain ⟨n, -, rfl⟩ := map_eq_ok h
    rfl
  · obtain rfl := Except.ok.inj h
    rfl
  · obtain rfl := Except.ok.inj h
    rfl
  · exact isPlain_of_admits (toDecimal_own h).1
  · obtain rfl := Except.ok.inj h
    rfl
  · obtain rfl := Except.ok.inj h
    rfl
  all_goals
    obtain rfl := Except.ok.inj h
    exact hv

/-! ## Values of a column's own type -/

/-- The values that a column of a type keeps: null and the values of the type. A decimal column
keeps no doubles, and integers only as far as they can be written. -/
def keeps : ValueType → Value → Bool
  | decimal, .float _ => false
  | decimal, .int n => (Nat.toDigits 10 n.natAbs).length ≤ Integer.maxDigits
  | t, v => t.admits v

/-- A value as a column of its type gives it back. -/
def native : ValueType → Value → Value
  | decimal, .int n => .decimal (.ofInt n)
  | _, v => v

variable {t : ValueType} {v : Value}

theorem isPlain_of_keeps (h : t.keeps v = true) : v.isPlain = true := by
  cases v with
  | list | map => cases t <;> cases h
  | _ => rfl

theorem toDecimal_int (n : Int) : toDecimal (.int n) =
    if (Decimal.ofInt n).inRange then .ok (.decimal (.ofInt n)) else .error .decimalRange := by
  have hdisplay : (Value.int n).display = Integer.toText n := rfl
  rw [toDecimal, hdisplay, Decimal.ofText?_integer, NonFinite.ofText?_toText]
  cases (Decimal.ofInt n).inRange <;> rfl

/-- What a column keeps is brought into its native form without failure. -/
theorem fromDatabase_of_keeps (h : t.keeps v = true) : t.fromDatabase v = .ok (t.native v) := by
  cases v with
  | null => cases t <;> rfl
  | int n =>
    cases t with
    | integer => rfl
    | decimal =>
      show toDecimal (.int n) = _
      rw [toDecimal_int, if_pos (Decimal.inRange_ofInt (of_decide_eq_true h))]
      rfl
    | _ => cases h
  | bool b | text s | decimal d | nonFinite x | float x | date d | timestamp s | list vs | map es =>
    cases t <;> first | (cases h; done) | rfl

/-- Null and the values of a type, but no doubles. -/
def stores : ValueType → Value → Bool
  | _, .float _ => false
  | t, v => t.admits v

/-- A value of the column's type that is brought into its native form is what the column gives
back, even if it has too many digits to be kept. -/
theorem eq_native_of_stores {x : Value} (h : t.stores v = true) (hx : t.fromDatabase v = .ok x) :
    x = t.native v := by
  cases hk : t.keeps v with
  | true =>
    rw [fromDatabase_of_keeps hk] at hx
    exact (Except.ok.inj hx).symm
  | false =>
    obtain ⟨rfl, n, rfl⟩ : t = decimal ∧ ∃ n, v = .int n := by
      cases v <;> cases t <;> simp_all [stores, keeps, admits]
    have hx : toDecimal (.int n) = .ok x := hx
    rw [toDecimal_int] at hx
    split at hx
    · exact (Except.ok.inj hx).symm
    · cases hx

theorem isPlain_of_stores (h : t.stores v = true) : v.isPlain = true := by
  cases v with
  | list | map => cases t <;> cases h
  | _ => rfl

theorem native_same (t : ValueType) (v : Value) : t.native v = v ∨ (t.native v).same v = true := by
  unfold native
  split
  · right
    exact (Decimal.same_iff _ _).mpr rfl
  · exact .inl rfl

theorem isNull_native (t : ValueType) (v : Value) : (t.native v).isNull = v.isNull := by
  unfold native
  split <;> rfl

theorem isPlain_native (t : ValueType) {v : Value} (h : v.isPlain = true) :
    (t.native v).isPlain = true := by
  unfold native
  split
  · rfl
  · exact h

end Tablewright.ValueType
