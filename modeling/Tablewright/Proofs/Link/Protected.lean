import Tablewright.Link.Payload
import Tablewright.Proofs.Link.Tenants
import Tablewright.Proofs.Schema.Protected

/-! Nested payloads have no more say than flat ones. The payloads of a parent and of its children
may differ in tenants, in users and, for an insert, in generated keys, each at its own level of the
tree: what comes out, what is reported and what is logged are the same. -/

namespace Tablewright

open Check RecordSchema LinkTree

namespace Link

variable {l : Link} {ctx : RequestContext} {forInsert : Bool} {v w : Value} {vs ws : List Value}

/-- Two items under a link: the same, or objects that differ at most in what is protected in the
child. -/
inductive ItemsAgree (l : Link) (forInsert : Bool) : Value → Value → Prop
  | same (v : Value) : ItemsAgree l forInsert v v
  | objects {es es' : List (String × Value)}
      (h : l.child.schema.Agree forInsert (.map es) (.map es')) :
      ItemsAgree l forInsert (.map es) (.map es')

/-- Two values under a link: one item each, or lists of items that agree one by one. -/
inductive ValuesAgree (l : Link) (forInsert : Bool) : Value → Value → Prop
  | item {v w : Value} (h : l.ItemsAgree forInsert v w) : ValuesAgree l forInsert v w
  | lists {vs ws : List Value} (h : List.Forall₂ (l.ItemsAgree forInsert) vs ws) :
      ValuesAgree l forInsert (.list vs) (.list ws)

theorem ItemsAgree.agree (h : l.ItemsAgree forInsert v w) : l.child.schema.Agree forInsert v w := by
  cases h with
  | same v => exact Agree.refl _ _ _
  | objects h => exact h

theorem ItemsAgree.payloads (h : l.ItemsAgree forInsert v w) :
    List.Forall₂ (l.ItemsAgree forInsert) (Link.payloads v) (Link.payloads w) := by
  cases h with
  | same v => exact List.forall₂_same.mpr fun item _ => .same item
  | objects h => exact .cons (.objects h) .nil

theorem ValuesAgree.payloads (h : l.ValuesAgree forInsert v w) :
    List.Forall₂ (l.ItemsAgree forInsert) (Link.payloads v) (Link.payloads w) := by
  cases h with
  | item h => exact h.payloads
  | lists h => exact h

theorem ValuesAgree.isNull (h : l.ValuesAgree forInsert v w) : v.isNull = w.isNull := by
  cases h with
  | item h => cases h <;> rfl
  | lists h => rfl

theorem parseRows_congr (h : List.Forall₂ (l.ItemsAgree forInsert) vs ws) (i : Nat) :
    l.parseRows ctx forInsert vs i = l.parseRows ctx forInsert ws i := by
  induction h generalizing i with
  | nil => rfl
  | cons hitem _ ih =>
    rw [parseRows, parseRows, parseRow_congr (l.inputMode forInsert i) hitem.agree, ih]

end Link

namespace LinkedRecord

variable {lr : LinkedRecord} {ctx : RequestContext} {forInsert : Bool}
  {es es' : List (String × Value)}

/-- Payloads of a record with links that differ at most in what is protected, in the parent's object
or in any child's. What stands under the name of a link is compared as children, whether or not a
field has that name too. -/
structure Agree (lr : LinkedRecord) (forInsert : Bool) (es es' : List (String × Value)) : Prop where
  parent : lr.mapping.schema.Agree forInsert (.map es) (.map es')
  children : ∀ t ∈ lr.links, t.link.ValuesAgree forInsert
    (Value.ofOption (Entries.get? t.name es)) (Value.ofOption (Entries.get? t.name es'))

/-- Every link is read alike, whatever was read before it. -/
theorem parseChildren_congr {ts : List LinkTree} (h : ∀ t ∈ ts, t.link.ValuesAgree forInsert
    (Value.ofOption (Entries.get? t.name es)) (Value.ofOption (Entries.get? t.name es')))
    (found : List (String × List (RowTree Row))) (ok : Bool) :
    parseChildren ctx forInsert (.map es) ts found ok =
      parseChildren ctx forInsert (.map es') ts found ok := by
  induction ts generalizing found ok with
  | nil => rfl
  | cons t ts ih =>
    obtain ⟨ht, hts⟩ := List.forall_mem_cons.mp h
    have hrest := fun found ok => ih hts found ok
    show (if (Value.ofOption (Entries.get? t.name es)).isNull = true then _ else _ : Check _) =
      (if (Value.ofOption (Entries.get? t.name es')).isNull = true then _ else _ : Check _)
    rw [ht.isNull, hrest, t.link.parseRows_congr ht.payloads 0]
    simp only [hrest]

theorem parse_congr (h : lr.Agree forInsert es es') :
    lr.parse ctx forInsert (.map es) = lr.parse ctx forInsert (.map es') := by
  rw [parse, parseRow_congr { forInsert := forInsert } h.parent,
    parseChildren_congr h.children, parse]

/-- A payload has no say in tenants, users and, for an insert, generated keys. Payloads that differ
in nothing else are read to the same end, with the same messages and the same log, on whatever was
written before; and every row that is read holds the tenant and the user of the request, and the
default of a key that is still to be generated. The same goes for nested payloads that differ so in
the parent's object and in any child's. -/
theorem parse_ignores_protected (ctx : RequestContext) :
    (∀ s : RecordSchema, s.Valid → ∀ mode : InputMode,
      (∀ p q, s.Agree mode.forInsert p q → s.parseRow ctx mode p = s.parseRow ctx mode q) ∧
        ∀ p j row k, (s.parseRow ctx mode p).Returns j (some row) k → s.FromContext ctx mode row) ∧
    ∀ (lr : LinkedRecord) (forInsert : Bool) (es es' : List (String × Value)),
      lr.Agree forInsert es es' →
        lr.parse ctx forInsert (.map es) = lr.parse ctx forInsert (.map es') := by
  refine ⟨fun s hs mode => ⟨fun p q h => parseRow_congr mode h, ?_⟩, ?_⟩
  · intro p j row k hrow
    exact hs.fromContext hrow
  · exact fun lr forInsert es es' h => parse_congr h

/-! ## A client that names companies -/

def depotRecord : LinkedRecord := ⟨depots, [.node cratesLink []]⟩

/-- A depot with a crate, both of some company. -/
def depotPayload (company : String) : List (String × Value) :=
  [("id", .int 1), ("company", .text company), ("owner", .text "Bob"),
    ("crates", .list [.map [("number", .int 2), ("company", .text company)]])]

/-- A request for the company Ada. -/
def adaRequest : RequestContext := { tenant := .text "Ada" }

/-- Whatever company a client names, the depot is of the one that the request is for. -/
theorem parse_ignores_protected_depot : ∃ row,
    ((depots.schema.parseRow adaRequest {} (.map (depotPayload "Eve"))).result? {}).bind id =
      some row ∧
    depots.schema.FromContext adaRequest {} row ∧
    depots.schema.parseRow adaRequest {} (.map (depotPayload "Eve")) =
      depots.schema.parseRow adaRequest {} (.map (depotPayload "Ada")) ∧
    depotRecord.parse adaRequest true (.map (depotPayload "Eve")) =
      depotRecord.parse adaRequest true (.map (depotPayload "Ada")) := by
  obtain ⟨hrows, htrees⟩ := parse_ignores_protected adaRequest
  obtain ⟨htwo, hcontext⟩ := hrows depots.schema (valid_declared (by decide +kernel)) {}
  have hdepot : depots.schema.Agree true (.map (depotPayload "Eve")) (.map (depotPayload "Ada")) :=
    agree_of_names ["id", "owner"] (by decide +kernel)
      (List.forall_mem_cons.mpr ⟨rfl, List.forall_mem_singleton.mpr rfl⟩)
  have hcrate : cratesLink.child.schema.Agree true
      (.map [("number", .int 2), ("company", .text "Eve")])
      (.map [("number", .int 2), ("company", .text "Ada")]) :=
    agree_of_names ["depot", "number"] (by decide +kernel)
      (List.forall_mem_cons.mpr ⟨rfl, List.forall_mem_singleton.mpr rfl⟩)
  obtain ⟨row, k, hrow, hresult⟩ := returns_of_found
    (c := depots.schema.parseRow adaRequest {} (.map (depotPayload "Eve"))) (j := {})
    (by decide +kernel)
  refine ⟨row, hresult, hcontext _ _ _ _ hrow, htwo _ _ hdepot, ?_⟩
  refine htrees depotRecord true _ _ ⟨hdepot, fun t ht => ?_⟩
  rw [List.mem_singleton.mp ht]
  exact .lists (.cons (.objects hcrate) .nil)

end LinkedRecord

end Tablewright
