import Tablewright.Proofs.Hearing

/-! What work asks for, whatever it is answered. If every step of the work makes calls of one kind
only, then a handle hears no others. -/

namespace Tablewright

variable {α β σ : Type} {p : Call → Prop}

namespace Task

/-- All calls that the task can come to are of one kind. -/
def Asks (p : Call → Prop) : Task α → Prop
  | done _ => True
  | ask c resume => p c ∧ ∀ a, (resume a).Asks p

theorem Asks.bind {t : Task α} {f : α → Task β} (ht : t.Asks p) (hf : ∀ a, (f a).Asks p) :
    (t.bind f).Asks p := by
  induction t with
  | done a => exact hf a
  | ask c resume ih => exact ⟨ht.1, fun a => ih a (ht.2 a)⟩

theorem Asks.heard {t : Task α} (ht : t.Asks p) (h : Handle σ) (s : σ) :
    ∀ e ∈ t.heard h s, p e.call := by
  induction t generalizing s with
  | done a => exact fun e he => nomatch he
  | ask c resume ih =>
    intro e he
    rcases List.mem_cons.mp he with rfl | he
    · exact ht.1
    · exact ih _ (ht.2 _) _ e he

end Task

namespace Work

/-- All calls that the work can come to are of one kind. -/
def Asks (p : Call → Prop) (x : Work α) : Prop := ∀ w, (x.start w).Asks p

theorem asks_pure {a : α} : Asks p (pure a : Work α) := fun _ => trivial

theorem asks_lift {r : Except Failure α} : Asks p (lift r) := fun _ => trivial

theorem asks_note {level : Log.Level} {source : Log.Source} {text : String} :
    Asks p (note level source text) := fun _ => trivial

theorem asks_ask {c : Call} (hc : p c) : Asks p (ask c) := fun _ => ⟨hc, fun _ => trivial⟩

theorem asks_row {r : RowRef} : Asks p (row r) := fun _ => trivial

theorem asks_addRow {row : Row} : Asks p (addRow row) := fun _ => trivial

theorem Asks.bind {x : Work α} {f : α → Work β} (hx : Asks p x) (hf : ∀ a, Asks p (f a)) :
    Asks p (x >>= f) := fun w => by
  rw [start_bind]
  refine (hx w).bind ?_
  rintro ⟨r, w'⟩
  cases r with
  | ok a => exact hf a w'
  | error e => trivial

theorem asks_valueAt {r : RowRef} {i : Nat} : Asks p (valueAt r i) :=
  asks_row.bind fun row => by
    split
    · exact asks_pure
    · exact fun _ => trivial

theorem asks_setAt {r : RowRef} {i : Nat} {v : Value} : Asks p (setAt r i v) := fun w => by
  rw [start_setAt]
  split <;> trivial

theorem asks_mapM {f : α → Work β} {l : List α} (hf : ∀ a, Asks p (f a)) : Asks p (l.mapM f) := by
  induction l with
  | nil => exact asks_pure
  | cons a l ih =>
    rw [List.mapM_cons]
    exact (hf a).bind fun _ => ih.bind fun _ => asks_pure

theorem asks_forM {f : α → Work Unit} {l : List α} (hf : ∀ a, Asks p (f a)) :
    Asks p (l.forM f) := by
  induction l with
  | nil => exact asks_pure
  | cons a l ih => exact (hf a).bind fun _ => ih

theorem asks_throughRows {process : α → List Value → Work (α × Bool)}
    (hprocess : ∀ a result, Asks p (process a result)) {found : List (Except Failure (List Value))}
    {n : Int} {a : α} : Asks p (throughRows process found n a) := by
  induction found generalizing n a with
  | nil => exact asks_pure
  | cons r found ih =>
    refine asks_lift.bind fun result => (hprocess a result).bind ?_
    rintro ⟨a', goesOn⟩
    dsimp only
    split
    · exact ih
    · exact asks_pure

end Work

end Tablewright
