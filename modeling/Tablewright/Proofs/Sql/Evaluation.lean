import Tablewright.Proofs.Filter.Pattern
import Tablewright.Proofs.Sql.Query
import Tablewright.Proofs.Value.Order

/-! The meaning of a clause for one row. Values are taken for the marks one by one, from
left to right, and none may be left over or missing. A comparison with null does not hold,
and neither does one of values that have no order. -/

namespace Tablewright

/-- The capitals of a text; other values have none. -/
def Casing.fold (u : Casing) : Value → Value
  | .text s => .text (u.upper s)
  | v => v

namespace Sql

/-- Takes values for marks. Nothing comes out if there are not enough of them. -/
abbrev Evaluation (α : Type) := StateT (List Value) Option α

def takeValue : Evaluation Value
  | [] => none
  | v :: vs => some (v, vs)

section

variable (u : Casing) (row : String → Value)

def evalOperand : Operand → Evaluation Value
  | .parameter => takeValue
  | .column name => pure (row name)

def Expr.eval (e : Expr) : Evaluation Value := do
  let v ← evalOperand row e.operand
  return if e.folded then u.fold v else v

/-- Whether a text is like a pattern. A pattern that breaks off has no meaning. -/
def likeText (escape : Char) (value pattern : Value) : Option Bool :=
  match value, pattern with
  | .text s, .text p =>
    if Like.isComplete escape p.toList then some (Like.accepts escape p.toList s.toList) else none
  | _, _ => some false

def Condition.eval : Condition → Evaluation Bool
  | compare left op right => do
    let a ← left.eval u row
    let b ← right.eval u row
    return op.holds a b
  | like left pattern escape => do
    let a ← left.eval u row
    let p ← pattern.eval u row
    StateT.lift (likeText escape a p)
  | isIn left items => do
    let a ← left.eval u row
    let vs ← items.mapM (Expr.eval u row)
    return vs.any (Comparison.eq.holds a)
  | between left lower upper => do
    let a ← left.eval u row
    let l ← lower.eval u row
    let h ← upper.eval u row
    return Comparison.ge.holds a l && Comparison.le.holds a h

/-- Whether a row meets all conditions of a clause with some values bound to its marks. -/
def Clause.selects (c : Clause) (values : List Value) : Option Bool := do
  let (bs, rest) ← (c.conditions.mapM (Condition.eval u row)).run values
  if rest.isEmpty then return bs.all id else none

end

end Sql

end Tablewright
