import Tablewright.Proofs.Check

/-! How a check ends. Most checks read nothing of what was written before them: from every journal
they come to the same end, a result or a failure, and report the same messages. How a check ends
follows from how its steps do. -/

namespace Tablewright.Check

variable {α β : Type} {c : Check α} {f : α → Check β} {a b : α} {r : Except Failure α}
  {ms ms' : List Message}

/-- From every journal the check ends with `r` and has reported the messages `ms`. -/
def Ends (c : Check α) (r : Except Failure α) (ms : List Message) : Prop :=
  ∀ j : Journal, ∃ log, c.run.run j = (r, ⟨log, j.messages ++ ms⟩)

theorem Ends.returns (h : c.Ends (.ok a) ms) (j : Journal) :
    ∃ k, c.Returns j a k ∧ k.messages = j.messages ++ ms := by
  obtain ⟨log, hlog⟩ := h j
  exact ⟨_, hlog, rfl⟩

/-- What is returned from some journal is what the check ends with. -/
theorem Ends.eq_of_returns {j k : Journal} (h : c.Ends (.ok a) ms) (hb : c.Returns j b k) :
    b = a ∧ k.messages = j.messages ++ ms := by
  obtain ⟨log, hlog⟩ := h j
  cases hb.symm.trans hlog
  exact ⟨rfl, rfl⟩

theorem ends_pure : (pure a : Check α).Ends (.ok a) [] := by
  intro j
  exact ⟨j.log, by rw [List.append_nil]; rfl⟩

theorem ends_throw {e : Failure} : (throw e : Check α).Ends (.error e) [] := by
  intro j
  exact ⟨j.log, by rw [List.append_nil]; rfl⟩

theorem ends_known : Ends (.mk (pure r)) r [] := by
  intro j
  exact ⟨j.log, by rw [List.append_nil]; rfl⟩

theorem ends_note {level : Log.Level} {source : Log.Source} {text : String} :
    (note level source text).Ends (.ok ()) [] := by
  intro j
  exact ⟨j.log ++ [⟨level, source, text⟩], by rw [List.append_nil]; rfl⟩

theorem ends_report {m : Message} : (report m).Ends (.ok ()) [m] := by
  intro j
  exact ⟨j.log, rfl⟩

theorem Ends.bind {r : Except Failure β} (hc : c.Ends (.ok a) ms) (hf : (f a).Ends r ms') :
    (c >>= f).Ends r (ms ++ ms') := by
  intro j
  obtain ⟨log, hlog⟩ := hc j
  obtain ⟨log', hlog'⟩ := hf ⟨log, j.messages ++ ms⟩
  refine ⟨log', ?_⟩
  simp only [ExceptT.run_bind, StateT.run_bind, hlog]
  rw [← List.append_assoc]
  exact hlog'

/-- Nothing comes after a failure. -/
theorem Ends.bind_error {e : Failure} (hc : c.Ends (.error e) ms) :
    (c >>= f).Ends (.error e) ms := by
  intro j
  obtain ⟨log, hlog⟩ := hc j
  refine ⟨log, ?_⟩
  simp only [ExceptT.run_bind, StateT.run_bind, hlog]
  rfl

/-- A step that reports nothing. -/
theorem Ends.then {r : Except Failure β} (hc : c.Ends (.ok a) []) (hf : (f a).Ends r ms) :
    (c >>= f).Ends r ms := hc.bind hf

/-- Nothing is reported after the first step. -/
theorem Ends.bind_quiet {r : Except Failure β} (hc : c.Ends (.ok a) ms) (hf : (f a).Ends r []) :
    (c >>= f).Ends r ms := by
  have h := hc.bind hf
  rwa [List.append_nil] at h

theorem Ends.map {g : α → β} (hc : c.Ends (.ok a) ms) :
    (c >>= fun x => pure (g x)).Ends (.ok (g a)) ms := hc.bind_quiet ends_pure

theorem ends_forM {l : List α} {g : α → Check Unit} (h : ∀ x ∈ l, (g x).Ends (.ok ()) []) :
    (l.forM g).Ends (.ok ()) [] := by
  induction l with
  | nil => exact ends_pure
  | cons x l ih =>
    obtain ⟨hx, hl⟩ := List.forall_mem_cons.mp h
    exact hx.then (ih hl)

/-! ## Checks that end in one way -/

/-- Whatever was written before, the check comes to the same end. -/
def Settled (c : Check α) : Prop := ∃ r ms, c.Ends r ms

theorem settled_pure : (pure a : Check α).Settled := ⟨_, _, ends_pure⟩

theorem settled_throw {e : Failure} : (throw e : Check α).Settled := ⟨_, _, ends_throw⟩

theorem settled_known : Settled (.mk (pure r)) := ⟨_, _, ends_known⟩

theorem settled_note {level : Log.Level} {source : Log.Source} {text : String} :
    (note level source text).Settled := ⟨_, _, ends_note⟩

theorem Settled.bind (hc : c.Settled) (hf : ∀ a, (f a).Settled) : (c >>= f).Settled := by
  obtain ⟨r, ms, hc⟩ := hc
  cases r with
  | ok a =>
    obtain ⟨r', ms', hf⟩ := hf a
    exact ⟨r', _, hc.bind hf⟩
  | error e => exact ⟨_, _, hc.bind_error⟩

/-- A condition on the way, which is met or not. -/
theorem Settled.unless {p : Prop} [Decidable p] {e : Failure} {g : β → Check α}
    (hc : c.Settled) : (if p then throw e >>= g else c : Check α).Settled := by
  split
  · exact ⟨_, _, ends_throw.bind_error⟩
  · exact hc

theorem settled_foldlM {l : List α} {g : β → α → Check β} {x : β} (h : ∀ y a, (g y a).Settled) :
    (l.foldlM g x).Settled := by
  induction l generalizing x with
  | nil => exact settled_pure
  | cons a l ih =>
    rw [List.foldlM_cons]
    exact (h x a).bind fun y => ih

/-- The end is the one that the check comes to by itself. -/
theorem Settled.eq_start (h : c.Settled) (j : Journal) : (c.run.run j).1 = c.start.1 := by
  obtain ⟨r, ms, h⟩ := h
  obtain ⟨log, hlog⟩ := h j
  obtain ⟨log', hlog'⟩ := h {}
  rw [start, hlog, hlog']

/-! ## Checks that fail for one reason only -/

/-- Work that gives a result, unless there is reason for a rounded number with too many digits. -/
def Yields (reason : Prop) (r : Except Failure α) : Prop :=
  (∃ a, r = .ok a) ∨ reason ∧ r = .error .decimalRange

theorem Yields.mono {reason reason' : Prop} (h : Yields reason r) (hr : reason → reason') :
    Yields reason' r := h.imp_right fun hfails => ⟨hr hfails.1, hfails.2⟩

theorem Yields.bind {reason : Prop} {f : α → Except Failure β} (h : Yields reason r)
    (hf : ∀ a, r = .ok a → Yields reason (f a)) : Yields reason (r >>= f) := by
  rcases h with ⟨a, rfl⟩ | ⟨hreason, rfl⟩
  · exact hf a rfl
  · exact .inr ⟨hreason, rfl⟩

theorem Yields.map {reason : Prop} {f : α → β} (h : Yields reason r) : Yields reason (r.map f) := by
  rcases h with ⟨a, rfl⟩ | ⟨hreason, rfl⟩
  · exact .inl ⟨f a, rfl⟩
  · exact .inr ⟨hreason, rfl⟩

theorem yields_mapM {reason : Prop} {l : List α} {f : α → Except Failure β}
    (h : ∀ a ∈ l, Yields reason (f a)) : Yields reason (l.mapM f) := by
  induction l with
  | nil => exact .inl ⟨[], rfl⟩
  | cons a l ih =>
    obtain ⟨ha, hl⟩ := List.forall_mem_cons.mp h
    rw [List.mapM_cons]
    exact ha.bind fun b _ => (ih hl).bind fun bs _ => .inl ⟨b :: bs, rfl⟩

/-- The check ends with `a` and reports the messages `ms`, unless there is reason for a rounded
number with too many digits. -/
def EndsUnless (reason : Prop) (c : Check α) (a : α) (ms : List Message) : Prop :=
  c.Ends (.ok a) ms ∨ reason ∧ ∃ ms', c.Ends (.error .decimalRange) ms'

variable {reason : Prop} {b : β}

theorem EndsUnless.mono {reason' : Prop} (h : EndsUnless reason c a ms) (hr : reason → reason') :
    EndsUnless reason' c a ms := h.imp_right fun hfails => ⟨hr hfails.1, hfails.2⟩

theorem Ends.unless (h : c.Ends (.ok a) ms) : EndsUnless reason c a ms := .inl h

theorem EndsUnless.ends (h : EndsUnless reason c a ms) (hr : ¬ reason) : c.Ends (.ok a) ms :=
  h.resolve_right fun hfails => hr hfails.1

theorem Yields.endsUnless [Inhabited α] (h : Yields reason r) :
    EndsUnless reason (.mk (pure r)) (r.toOption.getD default) [] := by
  rcases h with ⟨a, rfl⟩ | ⟨hreason, rfl⟩
  · exact .inl ends_known
  · exact .inr ⟨hreason, [], ends_known⟩

theorem EndsUnless.bind (hc : EndsUnless reason c a ms) (hf : EndsUnless reason (f a) b ms') :
    EndsUnless reason (c >>= f) b (ms ++ ms') := by
  rcases hc with hc | ⟨hreason, ms₁, hc⟩
  · rcases hf with hf | ⟨hreason, ms₂, hf⟩
    · exact .inl (hc.bind hf)
    · exact .inr ⟨hreason, _, hc.bind hf⟩
  · exact .inr ⟨hreason, ms₁, hc.bind_error⟩

/-- A step that reports nothing. -/
theorem EndsUnless.then (hc : EndsUnless reason c a []) (hf : EndsUnless reason (f a) b ms) :
    EndsUnless reason (c >>= f) b ms := hc.bind hf

/-- Nothing is reported after the first step. -/
theorem EndsUnless.bind_quiet (hc : EndsUnless reason c a ms) (hf : EndsUnless reason (f a) b []) :
    EndsUnless reason (c >>= f) b ms := by
  have h := hc.bind hf
  rwa [List.append_nil] at h

theorem EndsUnless.map {g : α → β} (hc : EndsUnless reason c a ms) :
    EndsUnless reason (c >>= fun x => pure (g x)) (g a) ms := hc.bind_quiet ends_pure.unless

/-- A loop whose steps report messages that do not depend on what came before. -/
theorem endsUnless_foldlM {l : List α} {g : β → α → Check β} {step : β → α → β}
    {reported : α → List Message} {x : β}
    (h : ∀ y, ∀ a ∈ l, EndsUnless reason (g y a) (step y a) (reported a)) :
    EndsUnless reason (l.foldlM g x) (l.foldl step x) (l.flatMap reported) := by
  induction l generalizing x with
  | nil => exact ends_pure.unless
  | cons a l ih =>
    rw [List.foldlM_cons, List.foldl_cons, List.flatMap_cons]
    exact (h x a List.mem_cons_self).bind (ih fun y b hb => h y b (List.mem_cons_of_mem a hb))

/-- A check that returned something has not failed. -/
theorem EndsUnless.ends_of_returns {j k : Journal} {a' : α} (h : EndsUnless reason c a ms)
    (hr : c.Returns j a' k) : c.Ends (.ok a) ms := by
  refine h.resolve_right fun hfails => ?_
  obtain ⟨-, ms', hfails⟩ := hfails
  obtain ⟨log, hlog⟩ := hfails j
  cases hr.symm.trans hlog

/-- A loop whose steps report nothing. -/
theorem endsUnless_foldlM_quiet {l : List α} {g : β → α → Check β} {step : β → α → β} {x : β}
    (h : ∀ y, ∀ a ∈ l, EndsUnless reason (g y a) (step y a) []) :
    EndsUnless reason (l.foldlM g x) (l.foldl step x) [] := by
  have hend : EndsUnless reason (l.foldlM g x) _ (l.flatMap fun _ => []) := endsUnless_foldlM h
  rwa [List.flatMap_eq_nil_iff.mpr fun _ _ => rfl] at hend

end Tablewright.Check
