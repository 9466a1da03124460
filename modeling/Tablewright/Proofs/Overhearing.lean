import Tablewright.Proofs.Hearing

/-! The calls that work makes, whatever the handle replies. A handle may also fail, so nothing is
said of how the work ends, but of the calls that it made until then: what is known of them is
carried from one call to the next. -/

namespace Tablewright

/-- The calls that a run makes, the earliest first. -/
def Task.asked {α σ : Type} (h : Handle σ) (t : Task α) (s : σ) : List Call :=
  (t.heard h s).map (·.call)

namespace Work

variable {α σ : Type} {h : Handle σ} {rows : List Row} {L M : List Call → Prop}

/-- The rows are these, and something is known of the calls that were made. -/
abbrev Overheard (rows : List Row) (L : List Call → Prop) : Fact (List AnsweredCall × σ) :=
  Standing rows fun s => L (s.1.map (·.call))

/-- A call is made, and the handle answers it or fails. -/
theorem ensures_asked {c : Call} (hL : ∀ calls, L calls → M (calls ++ [c])) :
    Ensures h.listening (Overheard rows L) (ask c) (fun _ => Overheard rows M) (Overheard rows M) := by
  refine ensures_ask ?_
  intro w s hpre
  obtain ⟨hrows, hcalls⟩ := hpre
  have hafter (outcome : Except Failure c.Reply) :
      M ((s.1 ++ [AnsweredCall.mk c outcome]).map (·.call)) := by
    rw [List.map_append]
    exact hL _ hcalls
  show Ends _ _ (((h.answer c s.2).1.outcome, w.noteAll (h.answer c s.2).1.log),
    s.1 ++ [⟨c, (h.answer c s.2).1.outcome⟩], (h.answer c s.2).2)
  cases (h.answer c s.2).1.outcome with
  | ok a => exact ⟨hrows, hafter _⟩
  | error e => exact ⟨hrows, hafter _⟩

/-- What no further call can change is still known after any other work. -/
theorem keeps_asked (hL : ∀ calls more, L calls → L (calls ++ more)) (x : Work α) :
    Keeps h.listening (fun _ s => L (s.1.map (·.call))) x := by
  intro w s hpre
  obtain ⟨heard, s⟩ := s
  have hafter := hL _ (((x.start w).heard h s).map (·.call)) hpre
  rw [← List.map_append] at hafter
  rw [Task.run_listening]
  obtain ⟨r, w'⟩ := ((x.start w).run h s).1
  cases r with
  | ok a => exact hafter
  | error e => exact hafter

/-- The first call stays the first, whatever follows. -/
theorem keeps_first {c : Call} (x : Work α) :
    Keeps h.listening (fun _ s => (s.1.map (·.call)).head? = some c) x :=
  keeps_asked (L := fun calls => calls.head? = some c) (fun calls more hc => by simp [hc]) x

theorem ensures_first {c : Call} {f : c.Reply → Work α} :
    Ensures h.listening (Overheard rows (· = [])) (ask c >>= f)
      (fun _ _ s => (s.1.map (·.call)).head? = some c)
      (fun _ s => (s.1.map (·.call)).head? = some c) := by
  have hfirst : ∀ calls : List Call, calls = [] → (calls ++ [c]).head? = some c := by simp
  refine Ensures.bind (Q := fun _ _ s => (s.1.map (·.call)).head? = some c) ?_ fun a => keeps_first _
  exact (ensures_asked (M := fun calls => calls.head? = some c) hfirst).imp (fun _ _ => id)
    (fun _ _ _ hpre => hpre.2) fun _ _ hpre => hpre.2

/-- What is known of the calls at the end of the work, however it ends, is known of those that a run
makes. -/
theorem Ensures.asked {x : Work α} {Q : α → Fact (List AnsweredCall × σ)}
    {E : Fact (List AnsweredCall × σ)} {w : Workspace}
    (hx : Ensures h.listening (Overheard w.rows L) x Q E) (hL : L [])
    (hq : ∀ a w s, Q a w s → M (s.1.map (·.call))) (he : ∀ w s, E w s → M (s.1.map (·.call)))
    (s : σ) : M ((x.start w).asked h s) := by
  have hend := hx w ([], s) ⟨rfl, hL⟩
  rw [Task.run_listening, List.nil_append] at hend
  revert hend
  obtain ⟨⟨r, w'⟩, s'⟩ := (x.start w).run h s
  cases r with
  | ok a => exact hq a w' _
  | error e => exact he w' _

end Work

end Tablewright
