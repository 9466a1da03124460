import Tablewright.Proofs.Overhearing

/-! What work leads to. Whatever the journal says, the same work on the same rows comes to the same
end against a handle in the same state, so two pieces of work are compared by what they lead to:
the result or the failure, the rows and the state of the handle. -/

namespace Tablewright.Work

variable {α β σ : Type} {h : Handle σ} {rows rows₁ rows₂ : List Row} {s s₁ s₂ : σ}

/-- From rows `rows` and state `s` of the handle the work ends with `r` and leaves rows `rows'` and
state `s'`. -/
def LeadsTo (h : Handle σ) (x : Work α) (rows : List Row) (s : σ) (r : Except Failure α)
    (rows' : List Row) (s' : σ) : Prop :=
  ∀ w : Workspace, w.rows = rows → ∃ w', (x.start w).run h s = ((r, w'), s') ∧ w'.rows = rows'

theorem LeadsTo.bind {x : Work α} {f : α → Work β} {a : α} {r : Except Failure β}
    (hx : LeadsTo h x rows s (.ok a) rows₁ s₁) (hf : LeadsTo h (f a) rows₁ s₁ r rows₂ s₂) :
    LeadsTo h (x >>= f) rows s r rows₂ s₂ := by
  intro w hw
  obtain ⟨w₁, hrun, hw₁⟩ := hx w hw
  obtain ⟨w₂, hrun', hw₂⟩ := hf w₁ hw₁
  exact ⟨w₂, by rw [run_bind, hrun]; exact hrun', hw₂⟩

/-- Nothing comes after a failure. -/
theorem LeadsTo.bind_error {x : Work α} {f : α → Work β} {e : Failure}
    (hx : LeadsTo h x rows s (.error e) rows₁ s₁) :
    LeadsTo h (x >>= f) rows s (.error e) rows₁ s₁ := by
  intro w hw
  obtain ⟨w₁, hrun, hw₁⟩ := hx w hw
  exact ⟨w₁, by rw [run_bind, hrun], hw₁⟩

theorem leads_pure {a : α} : LeadsTo h (pure a) rows s (.ok a) rows s := fun w hw => ⟨w, rfl, hw⟩

/-- What comes after work that has a result. -/
theorem LeadsTo.map {x : Work α} {f : α → β} {r : Except Failure α}
    (hx : LeadsTo h x rows s r rows₁ s₁) :
    LeadsTo h (x >>= fun a => pure (f a)) rows s (r.map f) rows₁ s₁ := by
  cases r with
  | error e => exact hx.bind_error
  | ok a => exact hx.bind leads_pure

theorem leads_lift {r : Except Failure α} : LeadsTo h (lift r) rows s r rows s :=
  fun w hw => ⟨w, rfl, hw⟩

theorem leads_note {level : Log.Level} {source : Log.Source} {text : String} :
    LeadsTo h (note level source text) rows s (.ok ()) rows s := fun _ hw => ⟨_, rfl, hw⟩

theorem leads_row {r : RowRef} : LeadsTo h (row r) rows s (.ok (rows.getD r [])) rows s := by
  rintro w rfl
  exact ⟨w, rfl, rfl⟩

theorem leads_setAt {r : RowRef} {i : Nat} {v : Value} (hi : i < (rows.getD r []).length) :
    LeadsTo h (setAt r i v) rows s (.ok ()) (rows.set r ((rows.getD r []).set i v)) s := by
  rintro w rfl
  refine ⟨w.setRow r ((w.row r).set i v), ?_, rfl⟩
  have hi : i < (w.row r).length := hi
  rw [start_setAt, if_pos hi]
  rfl

theorem leads_ask {c : Call} :
    LeadsTo h (ask c) rows s (h.answer c s).1.outcome rows (h.answer c s).2 := by
  rintro w rfl
  have hrows : ∀ lines : List LogLine, (w.noteAll lines).rows = w.rows := fun _ => rfl
  exact ⟨_, rfl, hrows _⟩

theorem LeadsTo.mapM_cons {f : α → Work β} {a : α} {l : List α} {b : β}
    {r : Except Failure (List β)} (ha : LeadsTo h (f a) rows s (.ok b) rows₁ s₁)
    (hl : LeadsTo h (l.mapM f) rows₁ s₁ r rows₂ s₂) :
    LeadsTo h ((a :: l).mapM f) rows s (r.map (b :: ·)) rows₂ s₂ := by
  rw [List.mapM_cons]
  exact ha.bind hl.map

theorem LeadsTo.mapM_cons_error {f : α → Work β} {a : α} {e : Failure}
    (ha : LeadsTo h (f a) rows s (.error e) rows₁ s₁) (l : List α) :
    LeadsTo h ((a :: l).mapM f) rows s (.error e) rows₁ s₁ := by
  rw [List.mapM_cons]
  exact ha.bind_error

/-- A loop whose rounds touch nothing comes to the end that their results come to. -/
theorem leads_mapM {f : α → Work β} {g : α → Except Failure β}
    (hf : ∀ a, LeadsTo h (f a) rows s (g a) rows s) (l : List α) :
    LeadsTo h (l.mapM f) rows s (l.mapM g) rows s := by
  induction l with
  | nil => exact leads_pure
  | cons a l ih =>
    have hround := hf a
    rw [List.mapM_cons (f := g)]
    cases hg : g a with
    | error e =>
      rw [hg] at hround
      exact hround.mapM_cons_error l
    | ok b =>
      rw [hg] at hround
      exact hround.mapM_cons ih

/-- What work against a handle that keeps a record leads to, without the record. -/
theorem LeadsTo.run {x : Work α} {r : Except Failure α} {heard : List AnsweredCall} {w : Workspace}
    (hx : LeadsTo h.listening x w.rows ([], s) r rows₁ (heard, s₁)) :
    (x.start w).asked h s = heard.map (·.call) ∧
      ∃ w', (x.start w).run h s = ((r, w'), s₁) ∧ w'.rows = rows₁ := by
  obtain ⟨w', hrun, hw'⟩ := hx w rfl
  rw [Task.run_listening] at hrun
  obtain ⟨hend, hstate⟩ := Prod.mk.inj hrun
  obtain ⟨hheard, hs₁⟩ := Prod.mk.inj hstate
  refine ⟨?_, w', Prod.ext hend hs₁, hw'⟩
  rw [Task.asked, ← hheard, List.nil_append]

end Tablewright.Work
