import Mathlib.Data.List.Basic
import Tablewright.Work.Task

/-! Several tasks at one handle. They take turns in any order, and in each turn one of them makes
its next call. What holds at the beginning and is kept by every turn holds in the end, whatever the
order was; and tasks that come to an end by themselves do so here, once each has had its turns. -/

namespace Tablewright

variable {α σ : Type}

namespace Task

def isDone : Task α → Bool
  | done _ => true
  | ask .. => false

/-- The task is done after so many calls, whatever it is answered. -/
inductive Within : Nat → Task α → Prop
  | done {n : Nat} {a : α} : Within n (done a)
  | ask {n : Nat} {c : Call} {resume : Answer c → Task α} (h : ∀ a, Within n (resume a)) :
      Within (n + 1) (ask c resume)

theorem Within.isDone {t : Task α} (h : Within 0 t) : t.isDone = true := by
  cases h
  rfl

theorem Within.mono {t : Task α} {n k : Nat} (h : Within n t) (hnk : n ≤ k) : Within k t := by
  induction h generalizing k with
  | done => exact .done
  | ask _ ih =>
    obtain ⟨k, rfl⟩ := Nat.exists_eq_add_of_lt hnk
    exact .ask fun a => ih a (Nat.le_add_right _ _)

theorem Within.step {t : Task α} {n : Nat} (h : Within (n + 1) t) (handle : Handle σ) (s : σ) :
    Within n (t.step handle s).1 := by
  cases h with
  | done => exact .done
  | ask h => exact h _

end Task

/-- A turn: which of the tasks had it, and the state of the handle before and after it. -/
structure TaskTurn (σ : Type) where
  place : Nat
  before : σ
  after : σ

/-- Several tasks, the state of the handle that they share, and the turns that they have had. -/
structure Crowd (α σ : Type) where
  tasks : List (Task α)
  state : σ
  turns : List (TaskTurn σ) := []

namespace Crowd

variable {h : Handle σ} {p : Crowd α σ} {t : Task α} {i : Nat} {schedule : List Nat}

/-- A turn of the task at some place. Nothing happens where there is no task. -/
def turn (h : Handle σ) (p : Crowd α σ) (i : Nat) : Crowd α σ :=
  match p.tasks[i]? with
  | some t => {
      tasks := p.tasks.set i (t.step h p.state).1
      state := (t.step h p.state).2
      turns := p.turns ++ [⟨i, p.state, (t.step h p.state).2⟩] }
  | none => p

/-- Turns one after the other, in the order of a schedule. -/
def play (h : Handle σ) (p : Crowd α σ) (schedule : List Nat) : Crowd α σ :=
  schedule.foldl (turn h) p

def isFinished (p : Crowd α σ) : Bool := p.tasks.all Task.isDone

theorem turn_of_task (ht : p.tasks[i]? = some t) : p.turn h i =
    ⟨p.tasks.set i (t.step h p.state).1, (t.step h p.state).2,
      p.turns ++ [⟨i, p.state, (t.step h p.state).2⟩]⟩ := by
  rw [turn, ht]

theorem turn_of_step {t' : Task α} {s : σ} (ht : p.tasks[i]? = some t)
    (hstep : t.step h p.state = (t', s)) :
    p.turn h i = ⟨p.tasks.set i t', s, p.turns ++ [⟨i, p.state, s⟩]⟩ := by
  rw [turn_of_task ht, hstep]

theorem turn_of_none (ht : p.tasks[i]? = none) : p.turn h i = p := by
  rw [turn, ht]

/-- A task that is done stays so. -/
theorem turn_of_done {j : Nat} {a : α} (hj : p.tasks[j]? = some (.done a)) (i : Nat) :
    (p.turn h i).tasks[j]? = some (.done a) := by
  cases ht : p.tasks[i]? with
  | none => rwa [turn_of_none ht]
  | some t =>
    rw [turn_of_task ht]
    by_cases hij : i = j
    · subst hij
      obtain rfl := Option.some.inj (ht.symm.trans hj)
      exact List.getElem?_set_self (List.getElem?_eq_some_iff.mp ht).1
    · exact (List.getElem?_set_ne hij).trans hj

/-- What every turn keeps holds after all of them. -/
theorem play_induction {P : Crowd α σ → Prop} (hp : P p)
    (hturn : ∀ q i t, P q → q.tasks[i]? = some t → P (q.turn h i)) (schedule : List Nat) :
    P (p.play h schedule) := by
  refine List.foldlRecOn schedule _ hp fun q hq i _ => ?_
  cases ht : q.tasks[i]? with
  | some t => exact hturn q i t hq ht
  | none => rwa [turn_of_none ht]

/-- All tasks are done if each of them has had as many turns as it may need. -/
theorem isFinished_of_within
    (hp : ∀ i t, p.tasks[i]? = some t → Task.Within (schedule.count i) t) :
    (p.play h schedule).isFinished = true := by
  induction schedule generalizing p with
  | nil =>
    refine List.all_eq_true.mpr fun t ht => ?_
    obtain ⟨i, hi⟩ := List.getElem?_of_mem ht
    exact (hp i t hi).isDone
  | cons j schedule ih =>
    refine ih fun i t ht => ?_
    cases htask : p.tasks[j]? with
    | none =>
      rw [turn_of_none htask] at ht
      have hne : j ≠ i := by
        rintro rfl
        rw [htask] at ht
        cases ht
      have hwithin := hp i t ht
      rwa [List.count_cons_of_ne hne] at hwithin
    | some u =>
      rw [turn_of_task htask] at ht
      by_cases hij : j = i
      · subst hij
        have hwithin := hp j u htask
        rw [List.count_cons_self] at hwithin
        rw [List.getElem?_set_self (List.getElem?_eq_some_iff.mp htask).1] at ht
        rw [← Option.some.inj ht]
        exact hwithin.step h p.state
      · rw [List.getElem?_set_ne hij] at ht
        have hwithin := hp i t ht
        rwa [List.count_cons_of_ne hij] at hwithin

end Crowd

end Tablewright
