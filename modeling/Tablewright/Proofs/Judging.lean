import Tablewright.Proofs.Ending

/-! Checks that judge. Work on a request goes on after the first problem, so that all of them are
reported, and what comes out at the end is refused if there were any. A check judges if it comes to
a result from every journal, and that result is good exactly if all was good before and the check
had nothing to report. Judging is kept by doing one check after the other. -/

namespace Tablewright.Check

variable {α β : Type} {c : Check α} {a : α} {r : Except Failure α}
  {ms : List Message} {before : Prop} {good : α → Prop} {P : Message → Prop}

/-- The messages that a check reports by itself. -/
def problems (c : Check α) : List Message := c.start.2.messages

theorem Ends.problems_eq (h : c.Ends r ms) : c.problems = ms := by
  obtain ⟨log, hlog⟩ := h {}
  rw [problems, start, hlog]
  exact List.nil_append ms

theorem Returns.problems_eq {k : Journal} (h : c.Returns {} a k) : c.problems = k.messages :=
  congrArg (fun e => e.2.messages) h

/-- The check ends with a result and reports the messages `ms`. The result is good exactly if all
was good before and nothing was reported. -/
def Judges (c : Check α) (before : Prop) (good : α → Prop) (ms : List Message) : Prop :=
  ∃ a, c.Ends (.ok a) ms ∧ (good a ↔ before ∧ ms = [])

theorem Judges.problems_eq (h : c.Judges before good ms) : c.problems = ms := by
  obtain ⟨a, h, -⟩ := h
  exact h.problems_eq

theorem Judges.elim (h : c.Judges before good ms) (hb : before) :
    ∃ a, c.Ends (.ok a) ms ∧ (good a ↔ ms = []) := by
  obtain ⟨a, h, hgood⟩ := h
  exact ⟨a, h, hgood.trans (and_iff_right hb)⟩

theorem judges_pure (h : good a ↔ before) : (pure a : Check α).Judges before good [] :=
  ⟨a, ends_pure, by rw [h, and_iff_left rfl]⟩

/-- A loop judges if each of its steps does. -/
theorem judges_foldlM {l : List β} {g : α → β → Check α}
    (h : ∀ x, ∀ b ∈ l, ∃ ms, (g x b).Judges (good x) good ms ∧ ∀ m ∈ ms, P m) (x : α) :
    ∃ ms, (l.foldlM g x).Judges (good x) good ms ∧ ∀ m ∈ ms, P m := by
  induction l generalizing x with
  | nil => exact ⟨[], judges_pure Iff.rfl, List.forall_mem_nil _⟩
  | cons b l ih =>
    obtain ⟨ms, ⟨y, hstep, hgood⟩, hms⟩ := h x b List.mem_cons_self
    obtain ⟨ms', ⟨z, hrest, hgood'⟩, hms'⟩ := ih (fun x c hc => h x c (List.mem_cons_of_mem b hc)) y
    refine ⟨ms ++ ms', ⟨z, ?_, ?_⟩, List.forall_mem_append.mpr ⟨hms, hms'⟩⟩
    · rw [List.foldlM_cons]
      exact hstep.bind hrest
    · rw [hgood', hgood, List.append_eq_nil_iff, and_assoc]

end Tablewright.Check
