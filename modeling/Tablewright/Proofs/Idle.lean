import Tablewright.Proofs.Check
import Tablewright.Proofs.Hearing

/-! Work that comes to its end by itself. Such work asks for nothing, so it ends in the same way
whatever the handle is. It is taken apart into its steps as checks are, and a step that asks for
anything is not among them. -/

namespace Tablewright.Work

variable {α β : Type} {w w' : Workspace} {a : α}

/-- From workspace `w` the work ends with `a` and leaves workspace `w'`, without any call. -/
def Returns (x : Work α) (w : Workspace) (a : α) (w' : Workspace) : Prop :=
  x.start w = .done (.ok a, w')

/-- The work ends with a result, asks for nothing and leaves every row as it is. -/
def Idle (x : Work α) (w : Workspace) (a : α) : Prop := ∃ w', x.Returns w a w' ∧ w'.rows = w.rows

theorem returns_lift {r : Except Failure α} : (lift r).Returns w a w' ↔ r = .ok a ∧ w = w' := by
  constructor
  · intro h
    cases h
    exact ⟨rfl, rfl⟩
  · rintro ⟨rfl, rfl⟩
    rfl

theorem returns_bind {x : Work α} {f : α → Work β} {b : β} :
    (x >>= f).Returns w b w' ↔ ∃ a w₁, x.Returns w a w₁ ∧ (f a).Returns w₁ b w' := by
  unfold Returns
  rw [start_bind]
  cases x.start w with
  | ask c resume =>
    constructor
    · intro h
      cases h
    · rintro ⟨_, _, ⟨⟩, _⟩
  | done r =>
    obtain ⟨r, w₁⟩ := r
    cases r with
    | ok a => exact ⟨fun hf => ⟨a, w₁, rfl, hf⟩, by rintro ⟨_, _, ⟨⟩, hf⟩; exact hf⟩
    | error e =>
      constructor
      · intro h
        cases h
      · rintro ⟨_, _, ⟨⟩, _⟩

/-- A call has to be answered. -/
theorem not_returns_ask {c : Call} {reply : c.Reply} : ¬ (ask c).Returns w reply w' := nofun

/-- Whatever the handle is, it hears nothing and stays in its state. -/
theorem Idle.run {σ : Type} {x : Work α} (hx : x.Idle w a) (h : Handle σ) (s : σ) :
    (x.start w).heard h s = [] ∧
      ∃ w', (x.start w).run h s = ((.ok a, w'), s) ∧ w'.rows = w.rows := by
  obtain ⟨w', hx, hrows⟩ := hx
  rw [show x.start w = _ from hx]
  exact ⟨rfl, w', rfl, hrows⟩

theorem Idle.eq_of_returns {x : Work α} {b : α} (hx : x.Idle w a) (hb : x.Returns w b w') :
    b = a := by
  obtain ⟨_, ha, -⟩ := hx
  have heq := hb.symm.trans ha
  simp only [Task.done.injEq, Prod.mk.injEq, Except.ok.injEq] at heq
  exact heq.1

theorem Idle.bind {x : Work α} {f : α → Work β} {b : β} (hx : x.Idle w a)
    (hf : ∀ w', w'.rows = w.rows → (f a).Idle w' b) : (x >>= f).Idle w b := by
  obtain ⟨w₁, hx, hrows⟩ := hx
  obtain ⟨w₂, hrest, hrest'⟩ := hf w₁ hrows
  exact ⟨w₂, returns_bind.mpr ⟨a, w₁, hx, hrest⟩, hrest'.trans hrows⟩

theorem idle_pure : (pure a : Work α).Idle w a := ⟨w, rfl, rfl⟩

theorem idle_note {level : Log.Level} {source : Log.Source} {text : String} :
    (note level source text).Idle w () := ⟨_, rfl, rfl⟩

theorem idle_row {r : RowRef} : (row r).Idle w (w.row r) := ⟨w, rfl, rfl⟩

theorem idle_lift {r : Except Failure α} (h : r = .ok a) : (lift r).Idle w a := by
  subst h
  exact ⟨w, rfl, rfl⟩

theorem idle_check {c : Check α} {k : Journal} (h : c.Returns w.journal a k) :
    (check c).Idle w a := by
  refine ⟨{ w with journal := k }, ?_, rfl⟩
  show Task.done ((c.run.run w.journal).1, { w with journal := (c.run.run w.journal).2 }) = _
  rw [show c.run.run w.journal = (.ok a, k) from h]

end Tablewright.Work
