import Tablewright.Proofs.Filter.Problems

/-! One condition at a time. What a request is told, and what is bound in its filter, comes from
what each of its conditions would be told and would bind alone, in their order: one that is
rejected puts nothing into the filter, whichever of its operands were read before, and one on a
field that does not exist ends the list. What is sorted by and selected has no say in it. -/

namespace Tablewright

open Check

namespace Resolve

variable {α β : Type}

/-- What a condition is resolved to, none if it is rejected for whatever fault. -/
def verdict (x : Resolve α) : Except Failure (Option α) := x.run.map Except.toOption

theorem verdict_bind {x : Resolve α} {f : α → Resolve β} :
    verdict (x >>= f) = verdict x >>= fun r => r.elim (pure none) fun a => verdict (f a) := by
  simp only [verdict, ExceptT.run_bind]
  cases x.run with
  | error e => rfl
  | ok r => cases r <;> rfl

end Resolve

namespace FilterCondition

open Resolve

variable {s : RecordSchema} {c : FilterCondition} {f : Field} {index : Nat}

theorem verdict_operator (index : Nat) : verdict (c.operator index) = verdict (c.operator 0) := by
  unfold operator
  dsimp only
  split
  · rfl
  · split <;> rfl

theorem verdict_operands (op : FilterOperator) (index : Nat) :
    verdict (c.operands op index) = verdict (c.operands op 0) := by
  unfold operands
  dsimp only
  split
  · rfl
  · split <;> rfl

/-- The place of a condition is told with some faults; whether there is one does not depend on it. -/
theorem verdict_resolve (index : Nat) : verdict (c.resolve s index f) = verdict (c.resolve s 0 f) := by
  have htest : verdict (c.resolveTest s index f) = verdict (c.resolveTest s 0 f) := by
    unfold resolveTest
    split
    · rfl
    · simp only [verdict_bind, verdict_operator index, verdict_operands _ index]
  simp only [resolve, verdict_bind, htest]

/-- One message about a condition that is rejected, and none about any other. -/
theorem problems_of_rejected (h : verdict (c.resolve s index f) = .ok none) :
    ∃ fault, c.problems s index f = [.fieldError f.name fault] := by
  unfold verdict at h
  unfold problems
  generalize (c.resolve s index f).run = r at h
  rcases r with e | ⟨fault | p⟩
  · cases h
  · exact ⟨_, rfl⟩
  · cases h

theorem problems_of_not_rejected (h : verdict (c.resolve s index f) ≠ .ok none) :
    c.problems s index f = [] := by
  unfold verdict at h
  unfold problems
  generalize (c.resolve s index f).run = r at h
  rcases r with e | ⟨fault | p⟩
  · rfl
  · exact absurd rfl h
  · rfl

end FilterCondition

namespace FilterRequest

open FilterCondition Resolve

variable {s : RecordSchema} {c : FilterCondition} {cs : List FilterCondition} {f : Field}
  {index : Nat} {sofar : Collected} {tenant : Value} {bound : Int} {ms : List Message}

/-! ## One condition alone -/

/-- The conditions so far with one more, of which nothing is kept if it is rejected. -/
def Collected.extend (c : Collected) (f : Field) : Option (Conjunct × List Value) → Collected
  | some (conjunct, values) => c.add conjunct values f.valueType
  | none => { c with accepted := false }

theorem ends_collectCondition : (collectCondition s index c f sofar).Ends
    ((verdict (c.resolve s index f)).map (sofar.extend f)) (c.problems s index f) := by
  unfold collectCondition verdict FilterCondition.problems
  generalize (c.resolve s index f).run = r
  rcases r with e | ⟨fault | p⟩
  · exact ends_known.bind_error
  · exact ends_known.then (ends_reject.bind_quiet ends_pure)
  · exact ends_known.then ends_pure

theorem ends_compile {request : FilterRequest} {r : Except Failure (Option Collected)}
    (h : (gather s request.filters tenant).Ends r ms) : (request.compile s tenant bound).Ends
      (r.map (Option.map fun c => c.filter s request bound)) ms := by
  rw [compile_eq]
  rcases r with e | ⟨_ | c⟩
  · exact h.bind_error
  · exact h.bind_quiet ends_pure
  · exact h.bind_quiet (request.ends_finish s bound c).map

/-- A request with one condition. -/
def alone (c : FilterCondition) : FilterRequest := ⟨[c], [], none, none⟩

/-- A condition on a field that exists, and none after it. -/
theorem ends_collect_one (hf : s.field? c.field = some f) (haccepted : sofar.accepted = true) :
    (collect s [c] 0 sofar).Ends ((verdict (c.resolve s 0 f)).map
      (Option.map fun p => sofar.append [⟨f, p.1, p.2⟩])) (c.problems s 0 f) := by
  have hcondition : (collectCondition s 0 c f sofar).Ends _ _ := ends_collectCondition
  unfold collect
  simp only [hf]
  generalize verdict (c.resolve s 0 f) = r at hcondition
  rcases r with e | ⟨_ | p⟩
  · exact hcondition.bind_error
  · exact hcondition.bind_quiet ends_pure
  · refine hcondition.bind_quiet ?_
    have hadded : sofar.extend f (some p) = sofar.append [⟨f, p.1, p.2⟩] := by
      rw [Collected.append_cons, Collected.append_nil]
      rfl
    have hstill : (sofar.append [⟨f, p.1, p.2⟩]).accepted = true := haccepted
    rw [hadded, collect, if_pos hstill]
    exact ends_pure

theorem ends_alone (htenant : ¬ (s.tenantField.isSome && tenant.isNull) = true)
    (hf : s.field? c.field = some f) : ((alone c).compile s tenant bound).Ends
      ((verdict (c.resolve s 0 f)).map (Option.map fun p =>
        filterOf s (alone c) bound (tenantParts s tenant ++ [⟨f, p.1, p.2⟩])))
      (c.problems s 0 f) := by
  have hgather : (gather s (alone c).filters tenant).Ends _ _ :=
    (ends_collectTenant htenant).then (ends_collect_one hf rfl)
  have hends : ((alone c).compile s tenant bound).Ends _ _ := ends_compile hgather
  generalize verdict (c.resolve s 0 f) = r at hends ⊢
  rcases r with e | ⟨_ | p⟩
  · exact hends
  · exact hends
  · simpa [Except.map, Collected.append_append, filter_append] using hends

/-- A request with the condition alone ends without a filter. -/
def rejectedAlone (s : RecordSchema) (tenant : Value) (bound : Int) (c : FilterCondition) : Bool :=
  (((alone c).compile s tenant bound).result? {}).any Option.isNone

theorem rejectedAlone_iff (htenant : ¬ (s.tenantField.isSome && tenant.isNull) = true)
    (hf : s.field? c.field = some f) :
    rejectedAlone s tenant bound c = true ↔ verdict (c.resolve s 0 f) = .ok none := by
  have hends : ((alone c).compile s tenant bound).Ends _ _ := ends_alone htenant hf
  obtain ⟨log, hlog⟩ := hends {}
  rw [rejectedAlone, result?, hlog]
  generalize verdict (c.resolve s 0 f) = r
  rcases r with e | ⟨_ | p⟩ <;> simp [Except.map, Except.toOption]

/-! ## All conditions -/

/-- The conditions before the first on a field that does not exist. -/
def known (s : RecordSchema) (cs : List FilterCondition) : List FilterCondition :=
  cs.takeWhile fun c => (s.field? c.field).isSome

/-- The first condition on a field that does not exist. -/
def firstUnknown (s : RecordSchema) (cs : List FilterCondition) : Option FilterCondition :=
  cs.find? fun c => (s.field? c.field).isNone

/-- The conditions up to the first on a field that does not exist. -/
def lookedAt (s : RecordSchema) (cs : List FilterCondition) : List FilterCondition :=
  known s cs ++ (firstUnknown s cs).toList

theorem known_cons (hf : s.field? c.field = some f) : known s (c :: cs) = c :: known s cs := by
  simp [known, hf]

theorem known_cons_unknown (hf : s.field? c.field = none) : known s (c :: cs) = [] := by
  simp [known, hf]

theorem firstUnknown_cons (hf : s.field? c.field = some f) :
    firstUnknown s (c :: cs) = firstUnknown s cs := by
  simp [firstUnknown, hf]

theorem firstUnknown_cons_unknown (hf : s.field? c.field = none) :
    firstUnknown s (c :: cs) = some c := by
  simp [firstUnknown, hf]

theorem lookedAt_cons (hf : s.field? c.field = some f) :
    lookedAt s (c :: cs) = c :: lookedAt s cs := by
  rw [lookedAt, known_cons hf, firstUnknown_cons hf]
  rfl

theorem lookedAt_cons_unknown (hf : s.field? c.field = none) : lookedAt s (c :: cs) = [c] := by
  rw [lookedAt, known_cons_unknown hf, firstUnknown_cons_unknown hf]
  rfl

theorem mem_known_of_mem_lookedAt (h : c ∈ lookedAt s cs) (hf : s.field? c.field = some f) :
    c ∈ known s cs := by
  rcases List.mem_append.mp h with h | h
  · exact h
  · have hunknown := List.find?_some (Option.mem_toList.mp h)
    rw [hf] at hunknown
    cases hunknown

theorem collect_lookedAt : collect s (lookedAt s cs) index sofar = collect s cs index sofar := by
  induction cs generalizing index sofar with
  | nil => rfl
  | cons c cs ih =>
    cases hf : s.field? c.field with
    | none =>
      rw [lookedAt_cons_unknown hf]
      simp only [collect, hf]
    | some f =>
      rw [lookedAt_cons hf]
      simp only [collect, hf, ih]

theorem problemsFrom_lookedAt : problemsFrom s (lookedAt s cs) index = problemsFrom s cs index := by
  induction cs generalizing index with
  | nil => rfl
  | cons c cs ih =>
    cases hf : s.field? c.field with
    | none =>
      rw [lookedAt_cons_unknown hf]
      simp only [problemsFrom, hf]
    | some f =>
      rw [lookedAt_cons hf]
      simp only [problemsFrom, hf, ih]

theorem isEmpty_lookedAt : (lookedAt s cs).isEmpty = cs.isEmpty := by
  cases cs with
  | nil => rfl
  | cons c cs =>
    cases hf : s.field? c.field with
    | none => rw [lookedAt_cons_unknown hf]; rfl
    | some f => rw [lookedAt_cons hf]; rfl

theorem gather_lookedAt : gather s (lookedAt s cs) tenant = gather s cs tenant := by
  simp only [gather, isEmpty_lookedAt, collect_lookedAt]

theorem compile_lookedAt (request : FilterRequest) :
    { request with filters := lookedAt s request.filters }.compile s tenant bound =
      request.compile s tenant bound := by
  rw [compile_eq, compile_eq, gather_lookedAt]
  rfl

/-- An error about the field of a condition. -/
def Names (c : FilterCondition) (m : Message) : Prop := m.isError = true ∧ m.field = some c.field

/-- The message about a condition on a field that does not exist. -/
def unknownField (s : RecordSchema) (c : FilterCondition) : Message :=
  .fieldError c.field ("Filter field " ++ c.field ++ " does not exist in the record " ++ s.name)

theorem problemsFrom_eq (htenant : ¬ (s.tenantField.isSome && tenant.isNull) = true) (index : Nat) :
    ∃ ms, problemsFrom s cs index = ms ++ (firstUnknown s cs).toList.map (unknownField s) ∧
      List.Forall₂ Names ((known s cs).filter (rejectedAlone s tenant bound)) ms := by
  induction cs generalizing index with
  | nil => exact ⟨[], rfl, .nil⟩
  | cons c cs ih =>
    cases hf : s.field? c.field with
    | none =>
      refine ⟨[], ?_, ?_⟩
      · rw [firstUnknown_cons_unknown hf, problemsFrom, hf]
        rfl
      · rw [known_cons_unknown hf]
        exact .nil
    | some f =>
      obtain ⟨ms, hms, hnames⟩ := ih (index + 1)
      rw [known_cons hf, firstUnknown_cons hf, problemsFrom, hf]
      simp only [hms]
      by_cases hrejected : verdict (c.resolve s 0 f) = .ok none
      · obtain ⟨fault, hfault⟩ := problems_of_rejected ((verdict_resolve index).trans hrejected)
        refine ⟨_ :: ms, by rw [hfault]; rfl, ?_⟩
        rw [List.filter_cons_of_pos ((rejectedAlone_iff htenant hf).mpr hrejected)]
        exact .cons ⟨rfl, congrArg some (RecordSchema.name_of_field hf)⟩ hnames
      · refine ⟨ms, ?_, ?_⟩
        · rw [problems_of_not_rejected fun h => hrejected ((verdict_resolve index).symm.trans h)]
          rfl
        · rwa [List.filter_cons_of_neg fun h => hrejected ((rejectedAlone_iff htenant hf).mp h)]

/-! ## What a filter selects by -/

/-- The conditions on rows, and what is bound in them. -/
structure Selection where
  conjuncts : List Conjunct
  values : List Value
  types : List ValueType

/-- What is selected by some parts, in their order. -/
def selectionOf (parts : List Part) : Selection :=
  ⟨parts.map (·.conjunct), parts.flatMap (·.values), parts.flatMap (·.types)⟩

def selection (compiled : CompiledFilter) : Selection :=
  ⟨compiled.clause.conjuncts, compiled.values, compiled.types⟩

/-- What a request ends with, and the messages that it is told, as its conditions account for. -/
structure Accounts (request : FilterRequest) (s : RecordSchema) (tenant : Value) (bound : Int)
    (r : Option CompiledFilter) (ms : List Message) : Prop where
  ends : (request.compile s tenant bound).Ends (.ok r) ms
  isNone_iff : r = none ↔ ms ≠ []
  /-- One message for each condition that would be rejected alone, and one for the first on a field
  that does not exist. -/
  reported : (s.tenantField.isSome = true → tenant.isNull = false) → ∃ rejections,
    ms = rejections ++ (firstUnknown s request.filters).toList.map (unknownField s) ∧
      List.Forall₂ Names ((known s request.filters).filter (rejectedAlone s tenant bound)) rejections
  /-- The tenant's part is bound, and behind it the part that each condition would bind alone. -/
  binds : ∀ compiled, r = some compiled → ∃ parts, List.Forall₂ (fun c p => ∃ own,
      ((alone c).compile s tenant bound).Ends (.ok (some own)) [] ∧
        selection own = selectionOf (tenantParts s tenant ++ [p])) request.filters parts ∧
    selection compiled = selectionOf (tenantParts s tenant ++ parts)
  /-- What is sorted by and selected has no say. -/
  choices : ∀ sorts outputFields, ∃ r',
    ({ request with sorts := sorts, outputFields := outputFields }.compile s tenant bound).Ends
      (.ok r') ms ∧ r'.map selection = r.map selection

theorem alone_of_supplied {p : Part} (htenant : ¬ (s.tenantField.isSome && tenant.isNull) = true)
    (h : Supplies s c p) : ∃ own, ((alone c).compile s tenant bound).Ends (.ok (some own)) [] ∧
      selection own = selectionOf (tenantParts s tenant ++ [p]) := by
  obtain ⟨hf, index, hgives⟩ := h
  have hverdict : verdict (c.resolve s 0 p.field) = .ok (some (p.conjunct, p.values)) := by
    rw [← verdict_resolve index, verdict, hgives]
    rfl
  have hends : ((alone c).compile s tenant bound).Ends _ _ := ends_alone htenant hf
  rw [hverdict, problems_of_not_rejected (by rw [hverdict]; nofun)] at hends
  exact ⟨_, hends, rfl⟩

theorem accounts_of_gather {request : FilterRequest} {g : Option Collected}
    (hg : (gather s request.filters tenant).Ends (.ok g) (request.problems s tenant))
    (hsome : g.isSome = true ↔ request.problems s tenant = []) :
    request.Accounts s tenant bound (g.map fun c => c.filter s request bound)
      (request.problems s tenant) := by
  have hends : (request.compile s tenant bound).Ends _ _ := ends_compile hg
  refine ⟨hends, ?_, ?_, ?_, ?_⟩
  · rw [Option.map_eq_none_iff, ne_eq, ← hsome, Option.not_isSome_iff_eq_none]
  · intro hnull
    have htenant : ¬ (s.tenantField.isSome && tenant.isNull) = true := by simpa using hnull
    rw [problems, if_neg htenant]
    exact problemsFrom_eq htenant 0
  · intro compiled hcompiled
    obtain ⟨k, hreturns, -⟩ := hends.returns {}
    rw [hcompiled] at hreturns
    obtain ⟨hnull, parts, hparts, rfl⟩ := supplied_of_returns hreturns
    have htenant : ¬ (s.tenantField.isSome && tenant.isNull) = true := by simpa using hnull
    exact ⟨parts, hparts.imp fun c p h => alone_of_supplied htenant h, rfl⟩
  · intro sorts outputFields
    let chosen : FilterRequest := { request with sorts := sorts, outputFields := outputFields }
    have hchosen : (gather s chosen.filters tenant).Ends _ _ := hg
    refine ⟨g.map fun c => c.filter s chosen bound, ends_compile hchosen, ?_⟩
    cases g <;> rfl

/-- A literal in a condition before the first on a field that does not exist cannot be read as a
value of its type, for it is rounded to too many digits. -/
def Raises (s : RecordSchema) (cs : List FilterCondition) : Prop :=
  ∃ c ∈ known s cs, ∃ f, s.field? c.field = some f ∧
    ∃ text ∈ c.literals, f.valueType.parseText text = .error .decimalRange

/-- Whatever was reported before stays, and what is added is accounted for by the conditions one by
one, unless a literal cannot be read at all. Those behind the first on a field that does not exist
could as well be left out. -/
theorem compile_accounts (request : FilterRequest) (s : RecordSchema) (tenant : Value)
    (bound : Int) :
    ((∃ r ms, request.Accounts s tenant bound r ms) ∨ Raises s request.filters ∧
      ∃ ms, (request.compile s tenant bound).Ends (.error .decimalRange) ms) ∧
    { request with filters := lookedAt s request.filters }.compile s tenant bound =
      request.compile s tenant bound := by
  refine ⟨?_, compile_lookedAt request⟩
  let seen : FilterRequest := { request with filters := lookedAt s request.filters }
  obtain ⟨g, hg, hsome⟩ := seen.endsUnless_gather s tenant
  have hproblems : seen.problems s tenant = request.problems s tenant := by
    rw [problems, problems, problemsFrom_lookedAt]
  rw [gather_lookedAt, hproblems] at hg
  rw [hproblems] at hsome
  rcases hg with hg | ⟨⟨c, hc, f, hf, text, htext, hover⟩, ms, hfails⟩
  · exact .inl ⟨_, _, accounts_of_gather hg hsome⟩
  · refine .inr ⟨⟨c, mem_known_of_mem_lookedAt hc hf, f, hf, text, htext, ?_⟩, ms, ?_⟩
    · exact ValueType.parseText_of_overflows hover
    · exact ends_compile hfails

/-- The second condition is rejected though its first operand can be bound, and the last, which
cannot be read, is not looked at. -/
example : ((FilterRequest.mk [⟨"customer", some "contains", some "Ada", none⟩,
    ⟨"total", some "between", some "1", some "much"⟩, ⟨"hint", some "=", some "1", none⟩,
    ⟨"colour", some "=", some "red", none⟩, ⟨"number", some "=", some "1.5e28", none⟩] [] none
    none).compile RecordSchema.invoice (.int 1) 10).start.2.messages.map (·.field) =
    [some "total", some "hint", some "colour"] := by decide +kernel

end FilterRequest

end Tablewright
