import Tablewright.Work.Call

/-! Tasks: computations that may ask a database. A task is either done or waits for the
answer to one call, so tasks can be run against any handle, and several of them against
one handle, call by call in any order. -/

namespace Tablewright

inductive Task (α : Type) where
  | done (a : α)
  | ask (c : Call) (resume : Answer c → Task α)

/-- Answers calls, with a state of its own. -/
structure Handle (σ : Type) where
  answer : (c : Call) → σ → Answer c × σ

namespace Task

variable {α β σ : Type}

def bind : Task α → (α → Task β) → Task β
  | done a, f => f a
  | ask c resume, f => ask c fun a => (resume a).bind f

instance : Monad Task where
  pure := done
  bind := bind

/-- The result of a task whose calls a handle answers, and the handle's state after it. -/
def run (h : Handle σ) : Task α → σ → α × σ
  | done a, s => (a, s)
  | ask c resume, s => (resume (h.answer c s).1).run h (h.answer c s).2

/-- One call further: the task with its next call answered. -/
def step (h : Handle σ) : Task α → σ → Task α × σ
  | done a, s => (done a, s)
  | ask c resume, s => (resume (h.answer c s).1, (h.answer c s).2)

@[simp] theorem run_done (h : Handle σ) (a : α) (s : σ) : (done a).run h s = (a, s) := rfl

theorem run_bind (h : Handle σ) (t : Task α) (f : α → Task β) (s : σ) :
    (t.bind f).run h s = (f (t.run h s).1).run h (t.run h s).2 := by
  induction t generalizing s with
  | done a => rfl
  | ask c resume ih => exact ih _ _

/-- A step does not change how a run ends. -/
theorem run_step (h : Handle σ) (t : Task α) (s : σ) :
    (t.step h s).1.run h (t.step h s).2 = t.run h s := by
  cases t <;> rfl

end Task

end Tablewright
