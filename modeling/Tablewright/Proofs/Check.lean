import Tablewright.Diagnostics.Journal

/-! What a check returns. A check that ends with a result is taken apart into its steps:
each of them returned something and left a journal for the next. -/

namespace Tablewright.Check

variable {α β : Type}

/-- From journal `j` the check ends with `a` and leaves journal `k`. -/
def Returns (c : Check α) (j : Journal) (a : α) (k : Journal) : Prop := c.run.run j = (.ok a, k)

theorem returns_pure {a b : α} {j k : Journal} :
    (pure a : Check α).Returns j b k ↔ a = b ∧ j = k := by
  simp only [Returns, ExceptT.run_pure, StateT.run_pure]
  constructor
  · intro h
    cases h
    exact ⟨rfl, rfl⟩
  · rintro ⟨rfl, rfl⟩
    rfl

theorem returns_bind {c : Check α} {f : α → Check β} {j k : Journal} {b : β} :
    (c >>= f).Returns j b k ↔ ∃ a l, c.Returns j a l ∧ (f a).Returns l b k := by
  simp only [Returns, ExceptT.run_bind, StateT.run_bind]
  cases h : c.run.run j with
  | mk r l =>
    cases r with
    | ok a => exact ⟨fun hf => ⟨a, l, rfl, hf⟩, by rintro ⟨_, _, ⟨⟩, hf⟩; exact hf⟩
    | error e =>
      constructor
      · intro hf
        cases hf
      · rintro ⟨_, _, ⟨⟩, _⟩

/-- A step that has to find something for the rest to end. -/
theorem returns_bind_found {c : Check (Option α)} {f : Option α → Check β} {j k : Journal} {b : β}
    (h : (c >>= f).Returns j b k) (hf : ∀ l, ¬ (f none).Returns l b k) :
    ∃ a l, c.Returns j (some a) l ∧ (f (some a)).Returns l b k := by
  obtain ⟨r, l, hr, h⟩ := returns_bind.mp h
  cases r with
  | none => exact absurd h (hf l)
  | some a => exact ⟨a, l, hr, h⟩

/-- A result that is already known. -/
theorem returns_known {r : Except Failure α} {a : α} {j k : Journal} :
    Returns (.mk (pure r)) j a k ↔ r = .ok a ∧ j = k := by
  constructor
  · intro h
    cases h
    exact ⟨rfl, rfl⟩
  · rintro ⟨rfl, rfl⟩
    rfl

/-- A loop that comes to its end has come to the end of every round. -/
theorem returns_round {l : List α} {g : β → α → Check β} {x y : β} {j k : Journal}
    (h : (l.foldlM g x).Returns j y k) :
    ∀ a ∈ l, ∃ x' y' j' k', (g x' a).Returns j' y' k' := by
  induction l generalizing x j with
  | nil => exact List.forall_mem_nil _
  | cons a l ih =>
    rw [List.foldlM_cons, returns_bind] at h
    obtain ⟨z, i, hfirst, hrest⟩ := h
    exact List.forall_mem_cons.mpr ⟨⟨x, z, j, i, hfirst⟩, ih hrest⟩

/-- A condition on the way that was met. -/
theorem returns_unless {p : Prop} [Decidable p] {f : Failure} {g : β → Check α} {c : Check α}
    {a : α} {j k : Journal} :
    (if p then throw f >>= g else c : Check α).Returns j a k ↔ ¬ p ∧ c.Returns j a k := by
  split
  · rename_i hp
    exact ⟨fun h => (nomatch h), fun h => absurd hp h.1⟩
  · rename_i hp
    exact ⟨fun h => ⟨hp, h⟩, fun h => h.2⟩

/-- What a check ends with. -/
def result? (c : Check α) (j : Journal) : Option α := (c.run.run j).1.toOption

theorem returns_of_result {c : Check α} {j : Journal} (h : (c.result? j).isSome = true) :
    ∃ a k, c.Returns j a k ∧ c.result? j = some a := by
  unfold result? at h ⊢
  cases hr : c.run.run j with
  | mk r k =>
    rw [hr] at h
    cases r with
    | ok a => exact ⟨a, k, hr, rfl⟩
    | error e => cases h

/-- A check that looks for something and ends with it. -/
theorem returns_of_found {c : Check (Option α)} {j : Journal}
    (h : ((c.result? j).bind id).isSome = true) :
    ∃ a k, c.Returns j (some a) k ∧ (c.result? j).bind id = some a := by
  cases hr : c.result? j with
  | none =>
    rw [hr] at h
    cases h
  | some r =>
    obtain ⟨b, k, hb, hbr⟩ := returns_of_result (c := c) (j := j) (by rw [hr]; rfl)
    rw [hr] at h hbr
    cases hbr
    cases r with
    | none => cases h
    | some a => exact ⟨a, k, hb, rfl⟩

/-- A check that looks for something and ends without it. -/
theorem returns_of_missed {c : Check (Option α)} {j : Journal}
    (h : (c.result? j).any Option.isNone = true) : ∃ k, c.Returns j none k := by
  obtain ⟨r, k, hr, hresult⟩ := returns_of_result (Option.isSome_of_any h)
  rw [hresult, Option.any_some, Option.isNone_iff_eq_none] at h
  exact ⟨k, h ▸ hr⟩

end Tablewright.Check
