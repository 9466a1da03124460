import Mathlib.Data.List.Forall2
import Tablewright.Filter.Condition

/-! What an accepted condition is resolved to. Every operand either refers to a column of
the schema or is read as a literal of the field's type, and which of the two it is can be
told from its text alone. The test is then fixed by the operator and its operands. -/

namespace Tablewright

/-- The condition is accepted, without a failure, and ends with `a`. -/
def Resolve.Gives {α : Type} (x : Resolve α) (a : α) : Prop := x.run = .ok (.ok a)

namespace Resolve

variable {α β : Type}

theorem gives_pure {a b : α} : Gives (pure a) b ↔ a = b := by
  constructor
  · intro h
    cases h
    rfl
  · rintro rfl
    rfl

theorem gives_bind {x : Resolve α} {f : α → Resolve β} {b : β} :
    Gives (x >>= f) b ↔ ∃ a, Gives x a ∧ Gives (f a) b := by
  simp only [Gives, ExceptT.run_bind]
  cases h : x.run with
  | error e =>
    constructor
    · intro hf
      cases hf
    · rintro ⟨_, ⟨⟩, _⟩
  | ok r =>
    cases r with
    | ok a => exact ⟨fun hf => ⟨a, rfl, hf⟩, by rintro ⟨_, ⟨⟩, hf⟩; exact hf⟩
    | error e =>
      constructor
      · intro hf
        cases hf
      · rintro ⟨_, ⟨⟩, _⟩

theorem not_gives_throw {e : ConditionFault} {a : α} : ¬ Gives (throw e : Resolve α) a := by
  intro h
  cases h

/-- A check on the way that the condition passed. -/
theorem gives_unless {p : Prop} [Decidable p] {e : ConditionFault} {f : β → Resolve α}
    {x : Resolve α} {a : α} : Gives (if p then throw e >>= f else x) a ↔ ¬ p ∧ Gives x a := by
  split
  · rename_i hp
    exact ⟨fun h => (nomatch h), fun h => absurd hp h.1⟩
  · rename_i hp
    exact ⟨fun h => ⟨hp, h⟩, fun h => h.2⟩

theorem gives_lift {r : Except Failure α} {a : α} : Gives (ExceptT.lift r) a ↔ r = .ok a := by
  cases r with
  | ok b =>
    constructor
    · intro h
      cases h
      rfl
    · rintro ⟨⟩
      rfl
  | error e =>
    constructor <;> intro h <;> cases h

theorem gives_mapM {f : α → Resolve β} {xs : List α} {ys : List β} (h : Gives (xs.mapM f) ys) :
    List.Forall₂ (fun x y => Gives (f x) y) xs ys := by
  induction xs generalizing ys with
  | nil =>
    rw [List.mapM_nil, gives_pure] at h
    subst h
    exact .nil
  | cons x xs ih =>
    rw [List.mapM_cons, gives_bind] at h
    obtain ⟨y, hy, h⟩ := h
    rw [gives_bind] at h
    obtain ⟨zs, hzs, h⟩ := h
    rw [gives_pure] at h
    subst h
    exact .cons hy (ih hzs)

end Resolve

namespace FilterCondition

/-- The operator that the condition names. -/
def operator? (c : FilterCondition) : Option FilterOperator :=
  FilterOperator.parse? (c.comparator.getD "")

/-- The text of the first operand. -/
def lowerText (c : FilterCondition) : String := c.value.getD ""

/-- The text of the second operand. -/
def upperText (c : FilterCondition) : String := c.toValue.getD ""

/-- A literal that spells a value of the field's type. -/
def Spells (f : Field) (text : String) (v : Value) : Prop :=
  f.valueType.parseText text = .ok (some v)

/-- What an operand's text stands for where values of a field are compared: a column of
the field's type, or a bound value. -/
inductive Stands (s : RecordSchema) (f : Field) (text : String) : Operand → List Value → Prop
  | reference {name : String} {g : Field} : reference? text = some name →
      s.field? name = some g → g.valueType = f.valueType → g.isColumn = true →
      Stands s f text (.column g.columnName) []
  | literal {v : Value} : reference? text = none → Spells f text v →
      Stands s f text .parameter [v]

/-- The test that an operator makes of a condition's operands, and the values bound in it. -/
inductive Tests (s : RecordSchema) (c : FilterCondition) (f : Field) :
    FilterOperator → ColumnTest → List Value → Prop
  | compare {op : Comparison} {right : Operand} {values : List Value} :
      Stands s f c.lowerText right values → Tests s c f (.compare op) (.compare op right) values
  | contains : f.valueType = .text → reference? c.lowerText = none →
      Tests s c f .contains .matchesPattern [.text (Like.containing c.lowerText)]
  | startsWith : f.valueType = .text → reference? c.lowerText = none →
      Tests s c f .startsWith .matchesPattern [.text (Like.startingWith c.lowerText)]
  | isIn {values : List Value} : reference? c.lowerText = none →
      List.Forall₂ (fun part v => Spells f (Text.strip part) v) (elements c.lowerText) values →
      Tests s c f .isIn (.isIn values.length) values
  | between {lower upper : Operand} {lowerValues upperValues : List Value} :
      Stands s f c.lowerText lower lowerValues → Stands s f c.upperText upper upperValues →
      Tests s c f .between (.between lower upper) (lowerValues ++ upperValues)

/-- What an accepted condition on a field is resolved to. -/
def Resolves (s : RecordSchema) (c : FilterCondition) (f : Field) (conjunct : Conjunct)
    (values : List Value) : Prop :=
  f.isColumn = true ∧ ∃ op t, c.operator? = some op ∧ c.Tests s f op t values ∧
    conjunct = .test f.columnName (f.valueType == .text) t

open Resolve

theorem gives_readLiteral {text : String} {f : Field} {v : Value}
    (h : Gives (readLiteral text f) v) : Spells f text v := by
  rw [readLiteral, gives_bind] at h
  obtain ⟨r, hr, h⟩ := h
  rw [gives_lift] at hr
  cases r with
  | none => exact absurd h not_gives_throw
  | some w =>
    rw [gives_pure] at h
    subst h
    exact hr

theorem gives_resolveReference {s : RecordSchema} {text : String} {t : ValueType}
    {r : Option String} (h : Gives (resolveReference s text t) r) :
    (reference? text = none ∧ r = none) ∨
      ∃ name g, reference? text = some name ∧ s.field? name = some g ∧ g.valueType = t ∧
        g.isColumn = true ∧ r = some g.columnName := by
  unfold resolveReference at h
  cases hr : reference? text with
  | none =>
    rw [hr] at h
    exact .inl ⟨rfl, (gives_pure.mp h).symm⟩
  | some name =>
    rw [hr] at h
    cases hg : s.field? name with
    | none =>
      simp only [hg] at h
      exact absurd h not_gives_throw
    | some g =>
      simp only [hg] at h
      split at h
      · exact absurd h not_gives_throw
      · rename_i ht
        split at h
        · exact absurd h not_gives_throw
        · rename_i hc
          refine .inr ⟨name, g, rfl, hg, not_not.mp ht, by simpa using hc, ?_⟩
          exact (gives_pure.mp h).symm

/-- A reference that was resolved leaves no literal to read, and a literal no reference. -/
theorem gives_readOperand {s : RecordSchema} {text : String} {f : Field} {r : Option String}
    {o : Operand} {values : List Value} (hr : Gives (resolveReference s text f.valueType) r)
    (h : Gives (readOperand text r f) (o, values)) : Stands s f text o values := by
  rcases gives_resolveReference hr with ⟨hnone, rfl⟩ | ⟨name, g, hname, hg, ht, hc, rfl⟩
  · rw [readOperand, gives_bind] at h
    obtain ⟨v, hv, h⟩ := h
    cases gives_pure.mp h
    exact .literal hnone (gives_readLiteral hv)
  · cases gives_pure.mp h
    exact .reference hname hg ht hc

theorem reference_none {s : RecordSchema} {text : String} {t : ValueType} {r : Option String}
    (hr : Gives (resolveReference s text t) r) (h : ¬ r.isSome = true) :
    reference? text = none := by
  rcases gives_resolveReference hr with ⟨hnone, -⟩ | ⟨_, _, _, _, _, _, rfl⟩
  · exact hnone
  · exact absurd rfl h

theorem gives_resolvePattern {op : FilterOperator} {pattern : String} {r : Option String}
    {f : Field} {t : ColumnTest} {values : List Value}
    (h : Gives (resolvePattern op pattern r f) (t, values)) :
    f.valueType = .text ∧ ¬ r.isSome = true ∧ t = .matchesPattern ∧ values = [.text pattern] := by
  simp only [resolvePattern, gives_unless, gives_pure, not_not] at h
  obtain ⟨ht, hr, h⟩ := h
  cases h
  exact ⟨ht, hr, rfl, rfl⟩

theorem gives_resolveIn {value : String} {r : Option String} {f : Field} {t : ColumnTest}
    {values : List Value} (h : Gives (resolveIn value r f) (t, values)) :
    ¬ r.isSome = true ∧ t = .isIn values.length ∧
      List.Forall₂ (fun part v => Spells f (Text.strip part) v) (elements value) values := by
  simp only [resolveIn, gives_bind, gives_unless, gives_pure] at h
  obtain ⟨hr, vs, hvs, h⟩ := h
  cases h
  exact ⟨hr, rfl, (gives_mapM hvs).imp fun _ _ => gives_readLiteral⟩

theorem gives_operator {c : FilterCondition} {index : Nat} {op : FilterOperator}
    (h : Gives (c.operator index) op) : c.operator? = some op := by
  unfold operator at h
  unfold operator?
  cases hp : FilterOperator.parse? (c.comparator.getD "") with
  | none =>
    simp only [hp] at h
    exact absurd h not_gives_throw
  | some p =>
    simp only [hp, gives_pure] at h
    rw [h]

theorem gives_operands {c : FilterCondition} {op : FilterOperator} {index : Nat}
    {value toValue : String} (h : Gives (c.operands op index) (value, toValue)) :
    value = c.lowerText ∧ toValue = c.upperText := by
  simp only [operands, gives_unless, gives_pure] at h
  obtain ⟨_, _, h⟩ := h
  cases h
  exact ⟨rfl, rfl⟩

theorem gives_resolveTest {s : RecordSchema} {c : FilterCondition} {index : Nat} {f : Field}
    {t : ColumnTest} {values : List Value} (h : Gives (c.resolveTest s index f) (t, values)) :
    f.isColumn = true ∧ ∃ op, c.operator? = some op ∧ c.Tests s f op t values := by
  simp only [resolveTest, gives_bind, gives_unless] at h
  obtain ⟨hcol, op, hop, ⟨value, toValue⟩, hv, r, hr, h⟩ := h
  obtain ⟨rfl, rfl⟩ := gives_operands hv
  refine ⟨by simpa using hcol, op, gives_operator hop, ?_⟩
  cases op with
  | compare cmp =>
    simp only [resolveCompare, gives_bind, gives_pure] at h
    obtain ⟨⟨right, vs⟩, ho, h⟩ := h
    cases h
    exact .compare (gives_readOperand hr ho)
  | contains =>
    obtain ⟨ht, hnone, rfl, rfl⟩ := gives_resolvePattern h
    exact .contains ht (reference_none hr hnone)
  | startsWith =>
    obtain ⟨ht, hnone, rfl, rfl⟩ := gives_resolvePattern h
    exact .startsWith ht (reference_none hr hnone)
  | isIn =>
    obtain ⟨hnone, rfl, hall⟩ := gives_resolveIn h
    exact .isIn (reference_none hr hnone) hall
  | between =>
    simp only [resolveBetween, gives_bind, gives_pure] at h
    obtain ⟨⟨lower, lv⟩, hl, r', hr', ⟨upper, uv⟩, hu, h⟩ := h
    cases h
    exact .between (gives_readOperand hr hl) (gives_readOperand hr' hu)

theorem gives_resolve {s : RecordSchema} {c : FilterCondition} {index : Nat} {f : Field}
    {conjunct : Conjunct} {values : List Value}
    (h : Gives (c.resolve s index f) (conjunct, values)) : c.Resolves s f conjunct values := by
  simp only [resolve, gives_bind, gives_pure] at h
  obtain ⟨⟨t, vs⟩, ht, h⟩ := h
  cases h
  obtain ⟨hcol, op, hop, ht⟩ := gives_resolveTest ht
  exact ⟨hcol, op, t, hop, ht, rfl⟩

end FilterCondition

end Tablewright
