import Tablewright.Proofs.Work

/-! What a handle hears. A run against a handle leaves a record of its calls, each with the
outcome that it had. The record is kept beside the handle's own state, so that what work asks
for is told in the same way as what it does. -/

namespace Tablewright

/-- A call with the outcome it had. -/
structure AnsweredCall where
  call : Call
  outcome : Except Failure call.Reply

namespace Task

variable {α σ : Type}

/-- The calls of a run with their outcomes, the earliest first. -/
def heard (h : Handle σ) : Task α → σ → List AnsweredCall
  | done _, _ => []
  | ask c resume, s =>
    ⟨c, (h.answer c s).1.outcome⟩ :: (resume (h.answer c s).1).heard h (h.answer c s).2

end Task

/-- The handle with a record of what it has heard beside its state. -/
def Handle.listening {σ : Type} (h : Handle σ) : Handle (List AnsweredCall × σ) where
  answer c s := ((h.answer c s.2).1, s.1 ++ [⟨c, (h.answer c s.2).1.outcome⟩], (h.answer c s.2).2)

/-- The record has no part in how a run ends. -/
theorem Task.run_listening {α σ : Type} (h : Handle σ) (t : Task α) (heard : List AnsweredCall)
    (s : σ) : t.run h.listening (heard, s) = ((t.run h s).1, heard ++ t.heard h s, (t.run h s).2) := by
  induction t generalizing heard s with
  | done a => simp [run, Task.heard]
  | ask c resume ih =>
    have hnext := ih (h.answer c s).1 (heard ++ [⟨c, (h.answer c s).1.outcome⟩]) (h.answer c s).2
    rw [List.append_assoc] at hnext
    exact hnext

theorem Workspace.messages_noteAll (w : Workspace) (lines : List LogLine) :
    (w.noteAll lines).journal.messages = w.journal.messages := by
  have hfold : ∀ j : Journal, (lines.foldl Journal.note j).messages = j.messages := by
    induction lines with
    | nil => exact fun _ => rfl
    | cons line lines ih => exact fun j => ih (j.note line)
  exact hfold w.journal

namespace Work

variable {α σ : Type} {h : Handle σ} {rows : List Row} {messages : List Message}
  {heard : List AnsweredCall} {r : RowRef}

/-- The rows and the messages are these, and so is what the handle has heard. The log may say
anything. -/
def Heard (rows : List Row) (messages : List Message) (heard : List AnsweredCall) :
    Fact (List AnsweredCall × σ) :=
  fun w s => w.rows = rows ∧ w.journal.messages = messages ∧ s.1 = heard

/-- The work ends with a result, and what is known of it includes what the handle has heard. -/
abbrev Tells (h : Handle σ) (P : Fact (List AnsweredCall × σ)) (x : Work α)
    (Q : α → Fact (List AnsweredCall × σ)) : Prop := Ensures h.listening P x Q fun _ _ => False

theorem Tells.weaken {P : Fact (List AnsweredCall × σ)} {Q Q' : α → Fact (List AnsweredCall × σ)}
    {x : Work α} (hx : Tells h P x Q) (hq : ∀ a w s, Q a w s → Q' a w s) : Tells h P x Q' :=
  hx.imp (fun _ _ => id) hq fun _ _ => id

/-- Work that does not fail leaves nothing behind in failing. -/
theorem Tells.ensures {P E : Fact (List AnsweredCall × σ)} {Q : α → Fact (List AnsweredCall × σ)}
    {x : Work α} (hx : Tells h P x Q) : Ensures h.listening P x Q E :=
  hx.imp (fun _ _ => id) (fun _ _ _ => id) fun _ _ => False.elim

/-- How a run ends against the handle itself. -/
theorem Tells.run {P : Fact (List AnsweredCall × σ)} {Q : α → Fact (List AnsweredCall × σ)}
    {x : Work α} (hx : Tells h P x Q) {w : Workspace} {s : σ} (hpre : P w ([], s)) :
    ∃ a w', ((x.start w).run h s).1 = (.ok a, w') ∧
      Q a w' ((x.start w).heard h s, ((x.start w).run h s).2) := by
  have hend := hx w ([], s) hpre
  rw [Task.run_listening, List.nil_append] at hend
  revert hend
  obtain ⟨⟨r, w'⟩, s'⟩ := (x.start w).run h s
  intro hend
  cases r with
  | error e => exact hend.elim
  | ok a => exact ⟨a, w', rfl, hend⟩

theorem tells_note {level : Log.Level} {source : Log.Source} {text : String} :
    Tells h (Heard rows messages heard) (note level source text)
      (fun _ => Heard rows messages heard) := fun _ _ hpre => hpre

/-- What is already known to be there. -/
theorem tells_lift {x : Except Failure α} {a : α} (hx : x = .ok a)
    {P : Fact (List AnsweredCall × σ)} : Tells h P (lift x) (fun b w s => b = a ∧ P w s) := by
  subst hx
  exact fun w s hpre => ⟨rfl, hpre⟩

theorem tells_row : Tells h (Heard rows messages heard) (row r)
    (fun a w s => a = rows.getD r [] ∧ Heard rows messages heard w s) := by
  rintro w s ⟨rfl, hrest⟩
  exact ⟨rfl, rfl, hrest⟩

/-- A check that returns whatever the journal is. -/
theorem tells_check {c : Check α} {Q : α → List Message → Prop}
    (hc : ∀ j : Journal, j.messages = messages → ∃ a k, c.Returns j a k ∧ Q a k.messages) :
    Tells h (Heard rows messages heard) (check c)
      (fun a w s => ∃ more, Q a more ∧ Heard rows more heard w s) := by
  rintro w s ⟨hrows, hmessages, hheard⟩
  obtain ⟨a, k, hreturns, hq⟩ := hc w.journal hmessages
  show Ends _ _ (((c.run.run w.journal).1, { w with journal := (c.run.run w.journal).2 }), s)
  rw [show c.run.run w.journal = (.ok a, k) from hreturns]
  exact ⟨k.messages, hq, hrows, rfl, hheard⟩

theorem tells_valueAt {i : Nat} (hi : i < (rows.getD r []).length) :
    Tells h (Heard rows messages heard) (valueAt r i)
      (fun v w s => v = (rows.getD r []).getD i .null ∧ Heard rows messages heard w s) := by
  refine tells_row.bind fun a => ensures_of fun ha => ?_
  subst ha
  rw [List.getElem?_eq_getElem hi]
  exact ensures_pure fun w s hpre => ⟨List.getElem_eq_getD Value.null, hpre⟩

theorem tells_setAt {i : Nat} {v : Value} (hi : i < (rows.getD r []).length) :
    Tells h (Heard rows messages heard) (setAt r i v)
      (fun _ => Heard (rows.set r ((rows.getD r []).set i v)) messages heard) := by
  refine ensures_setAt_of ?_ ?_
  · rintro w s ⟨rfl, hrest⟩ -
    exact ⟨rfl, hrest⟩
  · rintro w s ⟨rfl, -⟩ hle
    exact absurd hi (Nat.not_lt.mpr hle)

/-- A call is heard with its reply, if the handle replies or nothing is said of failures. -/
theorem hears_ask {c : Call} {E : Fact (List AnsweredCall × σ)}
    (hc : (∀ w s, E w s) ∨ ∀ s, ∃ reply, (h.answer c s).1.outcome = .ok reply) :
    Ensures h.listening (Heard rows messages heard) (ask c)
      (fun reply w s => (∃ s, (h.answer c s).1.outcome = .ok reply) ∧
        Heard rows messages (heard ++ [⟨c, .ok reply⟩]) w s) E := by
  refine ensures_ask ?_
  rintro w ⟨calls, s⟩ ⟨hrows, hmessages, hheard⟩
  show Ends _ _ (((h.answer c s).1.outcome, w.noteAll (h.answer c s).1.log),
    calls ++ [⟨c, (h.answer c s).1.outcome⟩], (h.answer c s).2)
  cases houtcome : (h.answer c s).1.outcome with
  | ok reply =>
    refine ⟨⟨s, houtcome⟩, hrows, ?_, congrArg (· ++ [_]) hheard⟩
    rw [Workspace.messages_noteAll, hmessages]
  | error e =>
    refine hc.elim (fun hE => hE _ _) fun hreplies => ?_
    obtain ⟨reply, hreply⟩ := hreplies s
    cases houtcome.symm.trans hreply

end Work

end Tablewright
