import Mathlib.Data.List.Forall2
import Tablewright.Proofs.Check
import Tablewright.Work.Workspace

/-! Work against a handle. What is known of the workspace and of the handle's state is
carried through the steps of the work: from what holds before a step, what holds after it,
and what is left behind if it fails. -/

namespace Tablewright

namespace Task

theorem id_map {α : Type} (t : Task α) : id <$> t = t := by
  induction t with
  | done a => rfl
  | ask c resume ih => exact congrArg (Task.ask c) (funext ih)

theorem bind_assoc {α β γ : Type} (t : Task α) (f : α → Task β) (g : β → Task γ) :
    t >>= f >>= g = t >>= fun a => f a >>= g := by
  induction t with
  | done a => rfl
  | ask c resume ih => exact congrArg (Task.ask c) (funext ih)

instance : LawfulMonad Task := LawfulMonad.mk' Task id_map (fun _ _ => rfl) bind_assoc

end Task

namespace Work

variable {α β σ : Type}

/-- What is known of a workspace and of a handle's state. -/
abbrev Fact (σ : Type) := Workspace → σ → Prop

/-- How work ends: with a result, or with a failure. -/
def Ends (Q : α → Fact σ) (E : Fact σ) : (Except Failure α × Workspace) × σ → Prop
  | ((.ok a, w), s) => Q a w s
  | ((.error _, w), s) => E w s

/-- Where `P` holds the work ends with a result and `Q`, or it fails and leaves `E`. -/
def Ensures (h : Handle σ) (P : Fact σ) (x : Work α) (Q : α → Fact σ) (E : Fact σ) : Prop :=
  ∀ w s, P w s → Ends Q E ((x.start w).run h s)

/-- What is known before the work is known after it, whether it succeeds or fails. -/
abbrev Keeps (h : Handle σ) (P : Fact σ) (x : Work α) : Prop := Ensures h P x (fun _ => P) P

/-- A fact that the journal has no part in. -/
def Unlogged (P : Fact σ) : Prop := ∀ w s j, P w s → P { w with journal := j } s

variable {h : Handle σ} {P P' E E' : Fact σ} {Q Q' : α → Fact σ}

theorem start_bind (x : Work α) (f : α → Work β) (w : Workspace) :
    (x >>= f).start w = (x.start w).bind fun r => match r with
      | (.ok a, w') => (f a).start w'
      | (.error e, w') => .done (.error e, w') := by
  refine congrArg (Task.bind (x.start w)) (funext fun r => ?_)
  obtain ⟨r, w'⟩ := r
  cases r <;> rfl

theorem run_bind (x : Work α) (f : α → Work β) (w : Workspace) (s : σ) :
    ((x >>= f).start w).run h s = match (x.start w).run h s with
      | ((.ok a, w'), s') => ((f a).start w').run h s'
      | ((.error e, w'), s') => ((.error e, w'), s') := by
  rw [start_bind, Task.run_bind]
  obtain ⟨⟨r, w'⟩, s'⟩ := (x.start w).run h s
  cases r <;> rfl

theorem Ensures.imp (hx : Ensures h P x Q E) (hp : ∀ w s, P' w s → P w s)
    (hq : ∀ a w s, Q a w s → Q' a w s) (he : ∀ w s, E w s → E' w s) :
    Ensures h P' x Q' E' := by
  intro w s hpre
  have hend := hx w s (hp w s hpre)
  revert hend
  obtain ⟨⟨r, w'⟩, s'⟩ := (x.start w).run h s
  cases r with
  | ok a => exact hq a w' s'
  | error e => exact he w' s'

theorem Ensures.bind {x : Work α} {f : α → Work β} {R : β → Fact σ} (hx : Ensures h P x Q E)
    (hf : ∀ a, Ensures h (Q a) (f a) R E) : Ensures h P (x >>= f) R E := by
  intro w s hpre
  have hend := hx w s hpre
  rw [run_bind]
  revert hend
  obtain ⟨⟨r, w'⟩, s'⟩ := (x.start w).run h s
  cases r with
  | ok a => exact hf a w' s'
  | error e => exact id

/-- How a run of the work ended. -/
theorem Ensures.of_run (hx : Ensures h P x Q E) {w w' : Workspace} {s s' : σ}
    {r : Except Failure α} (hrun : (x.start w).run h s = ((r, w'), s')) (hpre : P w s) :
    Ends Q E ((r, w'), s') := hrun ▸ hx w s hpre

/-- What follows from either way in which a run of the work can have ended. -/
theorem Ensures.elim_run {R : Prop} (hx : Ensures h P x Q E) {w w' : Workspace} {s s' : σ}
    {r : Except Failure α} (hrun : (x.start w).run h s = ((r, w'), s')) (hpre : P w s)
    (hq : ∀ a, Q a w' s' → R) (he : E w' s' → R) : R := by
  have hend := hx.of_run hrun hpre
  cases r with
  | ok a => exact hq a hend
  | error e => exact he hend

theorem eq_ok_of_toOption {r : Except Failure α} {a : α} (h : r.toOption = some a) : r = .ok a := by
  cases r with
  | error e => cases h
  | ok b => exact congrArg Except.ok (Option.some.inj h)

/-- A fact that does not depend on the state is one about the work. -/
theorem ensures_of {p : Prop} {x : Work α} (hx : p → Ensures h P x Q E) :
    Ensures h (fun w s => p ∧ P w s) x Q E := fun w s hpre => hx hpre.1 w s hpre.2

theorem ensures_exists {ι : Type} {P : ι → Fact σ} {x : Work α}
    (hx : ∀ i, Ensures h (P i) x Q E) : Ensures h (fun w s => ∃ i, P i w s) x Q E :=
  fun w s ⟨i, hi⟩ => hx i w s hi

theorem ensures_pure {a : α} (hq : ∀ w s, P w s → Q a w s) : Ensures h P (pure a) Q E := hq

/-- What is already known, result or failure. -/
theorem ensures_lift_of {r : Except Failure α} (he : ∀ e, r = .error e → ∀ w s, P w s → E w s) :
    Ensures h P (lift r) (fun a w s => r = .ok a ∧ P w s) E := by
  intro w s hpre
  cases r with
  | ok a => exact ⟨rfl, hpre⟩
  | error e => exact he e rfl w s hpre

theorem ensures_lift {r : Except Failure α} (he : ∀ w s, P w s → E w s) :
    Ensures h P (lift r) (fun a w s => r = .ok a ∧ P w s) E := ensures_lift_of fun _ _ => he

/-- The row that stands at a place, with what is known of it. -/
theorem ensures_row {r : RowRef} {p : Row → Prop} (hp : ∀ w s, P w s → p (w.row r)) :
    Ensures h P (row r) (fun a w s => p a ∧ P w s) E :=
  fun w s hpre => ⟨hp w s hpre, hpre⟩

/-- A check touches nothing but the journal. -/
theorem ensures_check {c : Check α} (hP : Unlogged P) (he : ∀ w s, P w s → E w s) :
    Ensures h P (check c) (fun a w s => (∃ j k, c.Returns j a k) ∧ P w s) E := by
  intro w s hpre
  show Ends _ E (((c.run.run w.journal).1, { w with journal := (c.run.run w.journal).2 }), s)
  have hlogged := hP w s (c.run.run w.journal).2 hpre
  cases hr : c.run.run w.journal with
  | mk r k =>
    rw [hr] at hlogged
    cases r with
    | ok a => exact ⟨⟨w.journal, k, hr⟩, hlogged⟩
    | error e => exact he _ s hlogged

/-- A note never fails. -/
theorem ensures_note {level : Log.Level} {source : Log.Source} {text : String}
    (hP : Unlogged P) : Ensures h P (note level source text) (fun _ => P) E :=
  fun w s hpre => hP w s _ hpre

theorem keeps_note {level : Log.Level} {source : Log.Source} {text : String} (hP : Unlogged P) :
    Keeps h P (note level source text) := ensures_note hP

theorem start_setAt (r : RowRef) (i : Nat) (v : Value) (w : Workspace) :
    (setAt r i v).start w = if i < (w.row r).length then
      .done (.ok (), w.setRow r ((w.row r).set i v)) else .done (.error .rowPosition, w) := by
  show ((if _ then _ else _ : Work Unit).start w) = _
  split <;> rfl

/-- What is written stands in the row, and nothing else has changed. It fails where the row has
no such place. -/
theorem ensures_setAt_of {r : RowRef} {i : Nat} {v : Value} {Q : Unit → Fact σ}
    (hq : ∀ w s, P w s → i < (w.row r).length → Q () (w.setRow r ((w.row r).set i v)) s)
    (he : ∀ w s, P w s → (w.row r).length ≤ i → E w s) : Ensures h P (setAt r i v) Q E := by
  intro w s hpre
  rw [start_setAt]
  split
  · rename_i hi
    exact hq w s hpre hi
  · rename_i hi
    exact he w s hpre (Nat.le_of_not_lt hi)

theorem ensures_setAt {r : RowRef} {i : Nat} {v : Value} {Q : Unit → Fact σ}
    (hq : ∀ w s, P w s → i < (w.row r).length → Q () (w.setRow r ((w.row r).set i v)) s)
    (he : ∀ w s, P w s → E w s) : Ensures h P (setAt r i v) Q E :=
  ensures_setAt_of hq fun w s hpre _ => he w s hpre

/-! ## Rows and the handle's state side by side -/

/-- The rows are these, and something is known of the handle's state. -/
def Standing (rows : List Row) (K : σ → Prop) : Fact σ := fun w s => w.rows = rows ∧ K s

section

variable {rows : List Row} {K : σ → Prop} {r : RowRef} {i : Nat} {v : Value}

theorem unlogged_standing : Unlogged (Standing rows K) := fun _ _ _ hpre => hpre

theorem ensures_rowAt : Ensures h (Standing rows K) (row r)
    (fun a w s => a = rows.getD r [] ∧ Standing rows K w s) E := by
  refine ensures_row ?_
  intro w s hpre
  rw [Workspace.row, hpre.1]

/-- The value at a place of a row, if the row has this place. -/
theorem ensures_valueAt : Ensures h (Standing rows K) (valueAt r i)
    (fun v w s => (i < (rows.getD r []).length ∧ v = (rows.getD r []).getD i .null) ∧
      Standing rows K w s)
    (fun w s => (rows.getD r []).length ≤ i ∧ Standing rows K w s) := by
  refine ensures_rowAt.bind fun row => ensures_of fun hrow => ?_
  subst hrow
  by_cases hi : i < (rows.getD r []).length
  · rw [List.getElem?_eq_getElem hi]
    exact ensures_pure fun w s hpre => ⟨⟨hi, List.getElem_eq_getD Value.null⟩, hpre⟩
  · rw [List.getElem?_eq_none (Nat.le_of_not_lt hi)]
    exact fun w s hpre => ⟨Nat.le_of_not_lt hi, hpre⟩

/-- What is written at a place of the row at hand. -/
theorem ensures_place : Ensures h (Standing rows K) (setAt r i v)
    (fun _ => Standing (rows.set r ((rows.getD r []).set i v)) K) (Standing rows K) := by
  refine ensures_setAt ?_ fun _ _ => id
  intro w s hpre hi
  obtain ⟨rfl, hK⟩ := hpre
  exact ⟨rfl, hK⟩

end

/-- A new row stands behind all others. -/
theorem ensures_addRow {row : Row} {Q : RowRef → Fact σ}
    (hq : ∀ w s, P w s → Q w.rows.length { w with rows := w.rows ++ [row] } s) :
    Ensures h P (addRow row) Q E := hq

/-- A call ends as the handle answers it. -/
theorem ensures_ask {c : Call} {Q : c.Reply → Fact σ}
    (ha : ∀ w s, P w s → Ends Q E
      (((h.answer c s).1.outcome, w.noteAll (h.answer c s).1.log), (h.answer c s).2)) :
    Ensures h P (ask c) Q E := ha

/-! ## Loops -/

/-- What every round keeps is kept by all of them, and each result is one of its element. -/
theorem ensures_mapM {R : α → β → Prop} {f : α → Work β} {l : List α}
    (hf : ∀ a ∈ l, Ensures h P (f a) (fun b w s => R a b ∧ P w s) E) :
    Ensures h P (l.mapM f) (fun bs w s => List.Forall₂ R l bs ∧ P w s) E := by
  induction l with
  | nil => exact ensures_pure fun _ _ hpre => ⟨.nil, hpre⟩
  | cons a l ih =>
    rw [List.mapM_cons]
    refine (hf a List.mem_cons_self).bind fun b => ensures_of fun hb => ?_
    refine (ih fun c hc => hf c (List.mem_cons_of_mem a hc)).bind fun bs => ensures_of fun hbs => ?_
    exact ensures_pure fun _ _ hpre => ⟨.cons hb hbs, hpre⟩

theorem keeps_forM {f : α → Work Unit} {l : List α} (hf : ∀ a ∈ l, Keeps h P (f a)) :
    Keeps h P (l.forM f) := by
  induction l with
  | nil => exact ensures_pure fun _ _ hpre => hpre
  | cons a l ih =>
    exact (hf a List.mem_cons_self).bind fun _ => ih fun c hc => hf c (List.mem_cons_of_mem a hc)

end Work

end Tablewright
