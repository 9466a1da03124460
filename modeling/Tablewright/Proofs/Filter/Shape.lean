import Tablewright.Proofs.Filter.Accepted
import Tablewright.Proofs.Schema.Valid

/-! Two requests of one shape. Whatever the literals of a request are, its clause and the
types of its values are those of any other request with the same fields, operators,
references and numbers of list elements. A literal decides a bound value and nothing
besides, so no part of it can reach the text of a statement. -/

namespace Tablewright

/-- Two conditions that differ in their literals at most. -/
structure FilterCondition.Alike (c d : FilterCondition) : Prop where
  field : c.field = d.field
  operator : c.operator? = d.operator?
  lower : reference? c.lowerText = reference? d.lowerText
  upper : c.operator? = some .between → reference? c.upperText = reference? d.upperText
  elements : c.operator? = some .isIn →
    (elements c.lowerText).length = (elements d.lowerText).length

/-- Two requests that differ in the literals of their conditions at most. -/
structure FilterRequest.Alike (a b : FilterRequest) : Prop where
  filters : List.Forall₂ FilterCondition.Alike a.filters b.filters
  sorts : a.sorts = b.sorts
  outputFields : a.outputFields = b.outputFields
  maxRows : a.maxRows = b.maxRows

namespace FilterCondition

/-- Texts with the same reference, or with none, stand for the same operand and bind as
many values. -/
theorem Stands.alike {s : RecordSchema} {f : Field} {text other : String} {o p : Operand}
    {vs ws : List Value} (h : Stands s f text o vs) (h' : Stands s f other p ws)
    (hr : reference? text = reference? other) : o = p ∧ vs.length = ws.length := by
  cases h with
  | reference hname hg _ _ =>
    cases h' with
    | reference hname' hg' _ _ =>
      rw [hname, hname'] at hr
      cases hr
      rw [hg] at hg'
      cases hg'
      exact ⟨rfl, rfl⟩
    | literal hnone _ =>
      rw [hname, hnone] at hr
      cases hr
  | literal hnone _ =>
    cases h' with
    | reference hname _ _ _ =>
      rw [hnone, hname] at hr
      cases hr
    | literal _ _ => exact ⟨rfl, rfl⟩

theorem Tests.alike {s : RecordSchema} {c d : FilterCondition} {f : Field} {op : FilterOperator}
    {t u : ColumnTest} {vs ws : List Value} (h : c.Alike d) (hop : c.operator? = some op)
    (hc : c.Tests s f op t vs) (hd : d.Tests s f op u ws) : t = u ∧ vs.length = ws.length := by
  cases hc with
  | compare hc =>
    cases hd with
    | compare hd =>
      obtain ⟨rfl, hlen⟩ := hc.alike hd h.lower
      exact ⟨rfl, hlen⟩
  | contains _ _ =>
    cases hd with
    | contains _ _ => exact ⟨rfl, by rw [List.length_singleton, List.length_singleton]⟩
  | startsWith _ _ =>
    cases hd with
    | startsWith _ _ => exact ⟨rfl, by rw [List.length_singleton, List.length_singleton]⟩
  | isIn _ hc =>
    cases hd with
    | isIn _ hd =>
      have hlen : vs.length = ws.length := by
        rw [← hc.length_eq, ← hd.length_eq]
        exact h.elements hop
      rw [hlen]
      exact ⟨rfl, rfl⟩
  | between hl hu =>
    cases hd with
    | between hl' hu' =>
      obtain ⟨rfl, hlower⟩ := hl.alike hl' h.lower
      obtain ⟨rfl, hupper⟩ := hu.alike hu' (h.upper hop)
      refine ⟨rfl, ?_⟩
      rw [List.length_append, List.length_append, hlower, hupper]

end FilterCondition

namespace FilterRequest

open Check

theorem types_eq_replicate (p : Part) :
    p.types = List.replicate p.values.length p.field.valueType := List.map_const' ..

theorem Contributes.alike {s : RecordSchema} {c d : FilterCondition} {p q : Part}
    (h : c.Alike d) (hc : Contributes s c p) (hd : Contributes s d q) :
    p.conjunct = q.conjunct ∧ p.types = q.types := by
  obtain ⟨hp, _, op, t, hop, ht, hpc⟩ := hc
  obtain ⟨hq, _, op', u, hop', hu, hqc⟩ := hd
  rw [← h.field, hp] at hq
  obtain rfl : op = op' := by rw [h.operator, hop'] at hop; exact (Option.some.inj hop).symm
  rw [← Option.some.inj hq] at hu hqc
  obtain ⟨rfl, hlen⟩ := ht.alike h hop hu
  rw [types_eq_replicate, types_eq_replicate, hlen, ← Option.some.inj hq]
  exact ⟨hpc.trans hqc.symm, rfl⟩

theorem parts_alike {s : RecordSchema} {cs ds : List FilterCondition} {ps qs : List Part}
    (h : List.Forall₂ FilterCondition.Alike cs ds) (hc : List.Forall₂ (Contributes s) cs ps)
    (hd : List.Forall₂ (Contributes s) ds qs) :
    ps.map (·.conjunct) = qs.map (·.conjunct) ∧ ps.flatMap (·.types) = qs.flatMap (·.types) := by
  induction h generalizing ps qs with
  | nil =>
    cases hc
    cases hd
    exact ⟨rfl, rfl⟩
  | cons h _ ih =>
    cases hc with
    | cons hp hps =>
      cases hd with
      | cons hq hqs =>
        obtain ⟨hconjunct, htypes⟩ := hp.alike h hq
        obtain ⟨hconjuncts, hrest⟩ := ih hps hqs
        simp only [List.map_cons, List.flatMap_cons]
        rw [hconjunct, hconjuncts, htypes, hrest]
        exact ⟨rfl, rfl⟩

/-- Two accepted requests of one shape, for any two callers: the clauses are the same to
the letter, and so is all else but the bound values. -/
theorem compile_alike {s : RecordSchema} {a b : FilterRequest} {tenant tenant' : Value}
    {bound : Int} {c d : CompiledFilter} {j k j' k' : Journal} (h : a.Alike b)
    (hc : (a.compile s tenant bound).Returns j (some c) k)
    (hd : (b.compile s tenant' bound).Returns j' (some d) k') :
    c.clauseText = d.clauseText ∧ c.types = d.types ∧ c.outputFields = d.outputFields ∧
      c.sorts = d.sorts ∧ c.maxRows = d.maxRows ∧ c = { d with values := c.values } := by
  obtain ⟨_, ps, hps, hcp⟩ := returns_compile hc
  obtain ⟨_, qs, hqs, hdq⟩ := returns_compile hd
  obtain ⟨hconjuncts, htypes⟩ := parts_alike h.filters hps hqs
  have hall : c = { d with values := c.values } := by
    rw [hcp, hdq]
    simp only [filterOf, List.map_append, List.flatMap_append, hconjuncts, htypes, h.sorts,
      h.outputFields, h.maxRows]
    cases hten : s.tenantField <;> simp [tenantParts, tenantPart, Part.types, hten]
  refine ⟨?_, ?_, ?_, ?_, ?_, hall⟩ <;> rw [hall] <;> rfl

theorem invoiceRequest_alike : invoiceRequest.Alike hostileRequest where
  filters := by
    refine .cons ?_ (.cons ?_ (.cons ?_ .nil)) <;> refine ⟨rfl, ?_, ?_, ?_, ?_⟩ <;> decide +kernel
  sorts := rfl
  outputFields := rfl
  maxRows := rfl

theorem compile_alike_invoice : ∃ c d k k',
    (invoiceRequest.compile RecordSchema.invoice (.int 1) 50).Returns {} (some c) k ∧
    (hostileRequest.compile RecordSchema.invoice (.int 2) 50).Returns {} (some d) k' ∧
    c.clauseText = d.clauseText ∧ c.types = d.types := by
  obtain ⟨c, k, hc, -⟩ := returns_of_found
    (c := invoiceRequest.compile RecordSchema.invoice (.int 1) 50) (j := {}) (by decide +kernel)
  obtain ⟨d, k', hd, -⟩ := returns_of_found
    (c := hostileRequest.compile RecordSchema.invoice (.int 2) 50) (j := {}) (by decide +kernel)
  obtain ⟨htext, htypes, _⟩ := compile_alike invoiceRequest_alike hc hd
  exact ⟨c, d, k, k', hc, hd, htext, htypes⟩

end FilterRequest

end Tablewright
