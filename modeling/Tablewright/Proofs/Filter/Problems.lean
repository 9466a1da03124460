import Tablewright.Proofs.Filter.Accepted
import Tablewright.Proofs.Schema.Building
import Tablewright.Proofs.Schema.Problems

/-! The problems of a filter request. Every condition is accepted or rejected with one fault,
unless a literal overflows, so that compiling a request reports the faults of its conditions and
ends with a filter just if there are none. With what holds of rows and keys, no text of a client
ends a request with a failure but one that overflows. -/

namespace Tablewright

open Check

namespace Resolve

variable {α β : Type} {reason : Prop}

/-- The condition is accepted or rejected, unless there is reason for a rounded number with too
many digits. -/
def Concludes (reason : Prop) (x : Resolve α) : Prop := Yields reason x.run

theorem concludes_pure {a : α} : Concludes reason (pure a) := .inl ⟨_, rfl⟩

theorem concludes_throw {e : ConditionFault} : Concludes reason (throw e : Resolve α) := .inl ⟨_, rfl⟩

theorem concludes_lift {r : Except Failure α} (h : Yields reason r) :
    Concludes reason (ExceptT.lift r) := h.map

theorem Concludes.bind {x : Resolve α} {f : α → Resolve β} (hx : Concludes reason x)
    (hf : ∀ a, Gives x a → Concludes reason (f a)) : Concludes reason (x >>= f) := by
  refine Yields.bind hx fun r hr => ?_
  cases r with
  | ok a => exact hf a hr
  | error e => exact .inl ⟨_, rfl⟩

/-- A check on the way. -/
theorem Concludes.unless {p : Prop} [Decidable p] {e : ConditionFault} {f : β → Resolve α}
    {x : Resolve α} (h : Concludes reason x) : Concludes reason (if p then throw e >>= f else x) := by
  split
  · exact .inl ⟨_, rfl⟩
  · exact h

theorem concludes_mapM {l : List α} {f : α → Resolve β} (h : ∀ a ∈ l, Concludes reason (f a)) :
    Concludes reason (l.mapM f) := by
  induction l with
  | nil => exact concludes_pure
  | cons a l ih =>
    obtain ⟨ha, hl⟩ := List.forall_mem_cons.mp h
    rw [List.mapM_cons]
    exact ha.bind fun b _ => (ih hl).bind fun bs _ => concludes_pure

end Resolve

namespace FilterCondition

open Resolve

variable {s : RecordSchema} {c : FilterCondition} {f : Field} {index : Nat} {reason : Prop}

/-- The texts of a condition that are read as literals, if they are no references. -/
def literals (c : FilterCondition) : List String :=
  match c.operator? with
  | some (.compare _) => [c.lowerText]
  | some .between => [c.lowerText, c.upperText]
  | some .isIn => (elements c.lowerText).map Text.strip
  | _ => []

/-- A literal of the condition overflows where values of the field are compared. -/
def Overflows (c : FilterCondition) (f : Field) : Prop :=
  ∃ text ∈ c.literals, f.valueType.Overflows text

theorem concludes_readLiteral {text : String} (h : f.valueType.Overflows text → reason) :
    Concludes reason (readLiteral text f) := by
  refine (concludes_lift ((f.valueType.yields_parseText text).mono h)).bind fun v _ => ?_
  cases v with
  | some v => exact concludes_pure
  | none => exact concludes_throw

theorem concludes_readOperand {text : String} {reference : Option String}
    (h : f.valueType.Overflows text → reason) : Concludes reason (readOperand text reference f) := by
  cases reference with
  | some column => exact concludes_pure
  | none => exact (concludes_readLiteral h).bind fun _ _ => concludes_pure

theorem concludes_resolveReference {text : String} {t : ValueType} :
    Concludes reason (resolveReference s text t) := by
  unfold resolveReference
  split
  · exact concludes_pure
  · split
    · exact concludes_throw
    · split
      · exact concludes_throw
      · split
        · exact concludes_throw
        · exact concludes_pure

theorem concludes_operator : Concludes reason (c.operator index) := by
  unfold operator
  dsimp only
  split
  · exact concludes_pure
  · exact concludes_throw

theorem concludes_resolvePattern {op : FilterOperator} {pattern : String} {reference : Option String} :
    Concludes reason (resolvePattern op pattern reference f) := concludes_pure.unless.unless

theorem concludes_resolveTest : Concludes (c.Overflows f) (c.resolveTest s index f) := by
  unfold resolveTest
  refine Concludes.unless (concludes_operator.bind fun op hop => ?_)
  have hop := gives_operator hop
  refine Concludes.bind concludes_pure.unless.unless fun texts htexts => ?_
  obtain ⟨value, toValue⟩ := texts
  obtain ⟨rfl, rfl⟩ := gives_operands htexts
  refine concludes_resolveReference.bind fun reference _ => ?_
  have hliteral {text : String} (hmem : text ∈ c.literals) (h : f.valueType.Overflows text) :
      c.Overflows f := ⟨text, hmem, h⟩
  cases op with
  | compare cmp =>
    have hlower : c.lowerText ∈ c.literals := by simp [literals, hop]
    exact (concludes_readOperand (hliteral hlower)).bind fun _ _ => concludes_pure
  | contains => exact concludes_resolvePattern
  | startsWith => exact concludes_resolvePattern
  | isIn =>
    have hvalues : Concludes (c.Overflows f)
        ((elements c.lowerText).mapM fun part => readLiteral (Text.strip part) f) := by
      refine concludes_mapM fun part hpart => concludes_readLiteral (hliteral ?_)
      simpa [literals, hop] using ⟨part, hpart, rfl⟩
    exact (hvalues.bind fun _ _ => concludes_pure).unless
  | between =>
    have hlower : c.lowerText ∈ c.literals := by simp [literals, hop]
    have hupper : c.upperText ∈ c.literals := by simp [literals, hop]
    refine (concludes_readOperand (hliteral hlower)).bind fun _ _ => ?_
    refine concludes_resolveReference.bind fun _ _ => ?_
    exact (concludes_readOperand (hliteral hupper)).bind fun _ _ => concludes_pure

theorem concludes_resolve : Concludes (c.Overflows f) (c.resolve s index f) :=
  concludes_resolveTest.bind fun _ _ => concludes_pure

/-- The message about a condition that is rejected. -/
def problems (s : RecordSchema) (c : FilterCondition) (index : Nat) (f : Field) : List Message :=
  match (c.resolve s index f).run with
  | .ok (.error fault) => [.fieldError f.name fault.toText]
  | _ => []

end FilterCondition

namespace FilterRequest

variable {s : RecordSchema} {cs : List FilterCondition} {index : Nat} {sofar : Collected}

theorem endsUnless_collectCondition {c : FilterCondition} {f : Field} :
    ∃ d : Collected, EndsUnless (c.Overflows f) (collectCondition s index c f sofar) d
      (c.problems s index f) ∧
      (d.accepted = true ↔ sofar.accepted = true ∧ c.problems s index f = []) := by
  unfold collectCondition FilterCondition.problems
  rcases c.concludes_resolve with ⟨r, hr⟩ | ⟨hover, hfails⟩
  · rw [hr]
    cases r with
    | ok p => exact ⟨_, ends_known.unless.then ends_pure.unless, by simp [Collected.add]⟩
    | error fault =>
      refine ⟨{ sofar with accepted := false }, ends_known.unless.then ?_, by simp⟩
      exact ends_reject.unless.bind ends_pure.unless
  · rw [hfails]
    exact ⟨sofar, .inr ⟨hover, _, ends_known.bind_error⟩, by simp⟩

/-- The messages about conditions. None comes after a field that does not exist. -/
def problemsFrom (s : RecordSchema) : List FilterCondition → Nat → List Message
  | [], _ => []
  | c :: cs, index =>
    match s.field? c.field with
    | none => [.fieldError c.field
        ("Filter field " ++ c.field ++ " does not exist in the record " ++ s.name)]
    | some f => c.problems s index f ++ problemsFrom s cs (index + 1)

/-- A literal of one of the conditions overflows. -/
def Overflows (s : RecordSchema) (cs : List FilterCondition) : Prop :=
  ∃ c ∈ cs, ∃ f, s.field? c.field = some f ∧ c.Overflows f

theorem endsUnless_collect : ∃ r : Option Collected,
    EndsUnless (Overflows s cs) (collect s cs index sofar) r (problemsFrom s cs index) ∧
      (r.isSome = true ↔ sofar.accepted = true ∧ problemsFrom s cs index = []) := by
  induction cs generalizing index sofar with
  | nil =>
    refine ⟨if sofar.accepted then some sofar else none, ?_, ?_⟩
    · unfold collect
      split <;> exact ends_pure.unless
    · cases sofar.accepted <;> simp [problemsFrom]
  | cons c cs ih =>
    unfold collect problemsFrom
    cases hf : s.field? c.field with
    | none =>
      exact ⟨none, ends_reject.unless.bind ends_pure.unless, by simp⟩
    | some f =>
      obtain ⟨d, hd, hda⟩ : ∃ d, EndsUnless (c.Overflows f) (collectCondition s index c f sofar) d _ ∧
        _ := endsUnless_collectCondition
      obtain ⟨r, hr, hra⟩ : ∃ r, EndsUnless (Overflows s cs) (collect s cs (index + 1) d) r _ ∧ _ := ih
      refine ⟨r, (hd.mono ?_).bind (hr.mono ?_), ?_⟩
      · exact fun hover => ⟨c, List.mem_cons_self, f, hf, hover⟩
      · intro hover
        obtain ⟨c', hc', hover⟩ := hover
        exact ⟨c', List.mem_cons_of_mem c hc', hover⟩
      · rw [hra, hda, List.append_eq_nil_iff, and_assoc]

/-- What is reported about a request: that the caller's tenant is not known, where one is needed,
or else what is wrong with its conditions. -/
def problems (request : FilterRequest) (s : RecordSchema) (tenant : Value) : List Message :=
  if s.tenantField.isSome && tenant.isNull then
    [.error ("Record " ++ s.name ++ " is scoped by tenant, but no tenant id is available")]
  else problemsFrom s request.filters 0

theorem endsUnless_gather (request : FilterRequest) (s : RecordSchema) (tenant : Value) :
    ∃ r : Option Collected, EndsUnless (Overflows s request.filters)
      (gather s request.filters tenant) r (request.problems s tenant) ∧
      (r.isSome = true ↔ request.problems s tenant = []) := by
  unfold gather problems
  by_cases hunknown : (s.tenantField.isSome && tenant.isNull) = true
  · rw [if_pos hunknown]
    exact ⟨none, (ends_collectTenant_unknown hunknown).unless.bind ends_pure.unless, by simp⟩
  rw [if_neg hunknown]
  obtain ⟨c, hc, hca⟩ : ∃ c : Option Collected, EndsUnless (Overflows s request.filters)
    (collect s request.filters 0 (({} : Collected).append (tenantParts s tenant))) c
    (problemsFrom s request.filters 0) ∧ _ := endsUnless_collect
  refine ⟨c, (ends_collectTenant hunknown).unless.then ?_, by simpa [Collected.append] using hca⟩
  dsimp only
  split
  · exact ends_note.unless.then hc
  · exact hc

/-- Compiling a request ends with a filter if there is nothing to report, and else with none. -/
theorem endsUnless_compile (request : FilterRequest) (s : RecordSchema) (tenant : Value)
    (bound : Int) : ∃ r : Option CompiledFilter,
    EndsUnless (Overflows s request.filters) (request.compile s tenant bound) r
      (request.problems s tenant) ∧ (r.isSome = true ↔ request.problems s tenant = []) := by
  obtain ⟨r, hr, hsome⟩ := request.endsUnless_gather s tenant
  rw [compile_eq]
  cases r with
  | none => exact ⟨none, hr.bind_quiet ends_pure.unless, hsome⟩
  | some c => exact ⟨some _, hr.bind_quiet (request.ends_finish s bound c).map.unless, hsome⟩

end FilterRequest

namespace RecordSchema

/-- Text from a client is answered and no failure: it is read as none or as a value of the type;
without pattern rules, reading a row or its keys, compiling a request and building a schema come to
an end, with a message about each text that is not taken and a result if there are none. What can
fail in all of them is only text for an integer that is rounded to too many digits. -/
theorem text_fails_only_by_overflow {s : RecordSchema} (hs : s.Valid)
    (hp : ∀ f ∈ s.fields, f.schema.pattern = none) :
    (∀ (t : ValueType) (text : String), (¬ t.Overflows text ∧ ∃ v, t.parseText text = .ok v ∧
        ∀ w, v = some w → t.admits w = true ∧ w.isNull = false) ∨
      t.Overflows text ∧ t.parseText text = .error .decimalRange) ∧
    (∀ (ctx : RequestContext) (mode : InputMode) (es : List (String × String)),
      EndsUnless (s.RowOverflows mode es) (s.parseRow ctx mode (textPayload es))
        (if (s.rowProblems ctx mode es).isEmpty then some (s.readingOf ctx mode es).row else none)
        (s.rowProblems ctx mode es)) ∧
    (∀ (ctx : RequestContext) (es : List (String × String)),
      EndsUnless (∃ f ∈ s.keyFields, InputOverflows es f) (s.parseKeys ctx (textPayload es))
        (if (s.keyProblems es).isEmpty then some (s.keysOf ctx es).row else none)
        (s.keyProblems es)) ∧
    (∀ (request : FilterRequest) (tenant : Value) (bound : Int), ∃ r : Option CompiledFilter,
      EndsUnless (FilterRequest.Overflows s request.filters) (request.compile s tenant bound) r
        (request.problems s tenant) ∧ (r.isSome = true ↔ request.problems s tenant = [])) ∧
    ∀ d : RecordDeclaration, (∀ e ∈ d.fields, e.pattern = none) → ∃ operations,
      EndsUnless (∃ e ∈ d.fields, ∃ text, e.defaultValue = some text ∧ e.valueType.Overflows text)
        (build d) (ofDraft d operations (drafted d.fields)) [] := by
  refine ⟨ValueType.parseText_cases, ?_, ?_, ?_, ?_⟩
  · intro ctx mode es
    exact endsUnless_parseRow hp
  · intro ctx es
    exact endsUnless_parseKeys fun f hf => hp f (hs.sound.key_mem hf).1
  · intro request tenant bound
    exact request.endsUnless_compile s tenant bound
  · intro d hd
    exact endsUnless_build fun e he => (yields_defaultOf (hd e he)).mono fun hover => ⟨e, he, hover⟩

/-- What a client has filled in for an invoice: the total is none, and no customer is named. -/
def invoiceInput : List (String × String) := [("number", " 7 "), ("total", "1,5"), ("customer", "")]

theorem not_rowOverflows_invoiceInput : ¬ invoice.RowOverflows {} invoiceInput := by
  have hnone : ∀ f ∈ invoice.fields, f.list = none ∧
      (Entries.get? f.name invoiceInput).all fun text => !(Text.strip text).toList.contains '.' := by
    decide +kernel
  intro h
  obtain ⟨f, hf, h⟩ := h
  obtain ⟨hlist, htext⟩ := hnone f hf
  rcases h with ⟨-, ⟨text, hfound, hover⟩ | ⟨l, hl, -⟩⟩ | ⟨l, hl, -⟩
  · have hpoint := hover.point
    simp [hfound, hpoint] at htext
  · rw [hlist] at hl
    cases hl
  · rw [hlist] at hl
    cases hl

theorem text_fails_only_by_overflow_invoice :
    (invoice.parseRow { tenant := .int 1 } {} (textPayload invoiceInput)).Ends (.ok none)
      [.fieldError "customer" "customer requires a value" Message.valueRequired,
        .fieldError "total" "'1,5' is not a valid value for total"] := by
  have hends := (text_fails_only_by_overflow invoice_valid (by decide +kernel)).2.1
    { tenant := .int 1 } {} invoiceInput
  have hproblems : invoice.rowProblems { tenant := .int 1 } {} invoiceInput =
      [.fieldError "customer" "customer requires a value" Message.valueRequired,
        .fieldError "total" "'1,5' is not a valid value for total"] := by decide +kernel
  rw [hproblems] at hends
  exact hends.ends not_rowOverflows_invoiceInput

/-- A text that is rounded to too many digits ends everything that reads it with a failure. -/
theorem overflow_ends_invoice : ValueType.integer.parseText "1.5e28" = .error .decimalRange ∧
    (invoice.parseRow {} {} (textPayload [("number", "1.5e28")])).result? {} = none ∧
    (invoice.parseKeys {} (textPayload [("number", "1.5e28")])).result? {} = none ∧
    ((FilterRequest.mk [⟨"number", some "=", some "1.5e28", none⟩] [] none none).compile invoice
      (.int 1) 10).result? {} = none ∧
    (build { invoiceDeclaration with fields := [
      { invoiceColumn "number" "number" .integer .primaryKey with
        defaultValue := some "1.5e28" }] }).result? {} = none := by
  refine ⟨ValueType.parseText_of_overflows ValueType.overflows_short, ?_, ?_, ?_, ?_⟩
  all_goals
    rw [← Option.isNone_iff_eq_none]
    decide +kernel

end RecordSchema

end Tablewright
