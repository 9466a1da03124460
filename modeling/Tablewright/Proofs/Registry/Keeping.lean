import Tablewright.Proofs.Link.Bounds
import Tablewright.Proofs.Mapping.Places
import Tablewright.Proofs.Registry.Rebuilding
import Tablewright.Proofs.Schema.ValueType

/-! What a registry keeps cannot be told from what it answers. Each action ends as it would
on the bare records, and leaves the registry coherent: a new definition drops all that was
built on the earlier one, a new link drops all that may lead through it. So it goes on over
any sequence of actions, failed ones among them. -/

namespace Tablewright

open Check

namespace Registry

/-- What is asked of a registry. -/
inductive Action where
  | declare (d : RecordDeclaration)
  | register (s : RecordSchema)
  | link (d : LinkDeclaration)
  | schema (name : String)
  | mapping (name : String)
  | linkedRecord (name : String)

inductive Reply where
  | done
  | schema (s : RecordSchema)
  | mapping (m : Mapping)
  | linked (lr : LinkedRecord)

def perform : Action → Registering Reply
  | .declare d => return .schema (← Registry.register d)
  | .register s => do
    registerSchema s
    return .schema s
  | .link d => do
    addLink d
    return .done
  | .schema name => return .schema (← Registry.schema name)
  | .mapping name => return .mapping (← Registry.mapping name)
  | .linkedRecord name => return .linked (← Registry.linkedRecord name)

/-- The outcomes of actions one after the other. An action that fails does not end them. -/
def outcomes (r : Registry) (j : Journal) : List Action → List (Except Failure Reply)
  | [] => []
  | a :: as => let ((o, r), j) := runOn (perform a) r j
    o :: outcomes r j as

/-- The registry after some actions. -/
def after (r : Registry) (j : Journal) : List Action → Registry
  | [] => r
  | a :: as => let ((_, r), j) := runOn (perform a) r j
    after r j as

end Registry

/-! ## The same actions on bare records -/

namespace Records

open Registry (Action Reply)

def register (told : Records) (s : RecordSchema) : Except Failure Records :=
  if s.isValid then .ok { told with schemas := Entries.put s.name s told.schemas }
  else .error (.badSchema s.name (s.faults.map SchemaFault.toText))

def link (told : Records) (d : LinkDeclaration) : Except Failure Records := do
  let _ ← told.schema d.parent
  let _ ← told.schema d.child
  return { told with links := told.links ++ [d] }

def perform (told : Records) : Action → Except Failure (Reply × Records)
  | .declare d => do
    let s ← ended (RecordSchema.build d)
    return (.schema s, ← told.register s)
  | .register s => return (.schema s, ← told.register s)
  | .link d => return (.done, ← told.link d)
  | .schema name => return (.schema (← told.schema name), told)
  | .mapping name => return (.mapping (← told.mapping name), told)
  | .linkedRecord name => return (.linked (← told.linkedRecord name), told)

/-- The records that an outcome leaves; a failure leaves them as they were. -/
def left {α : Type} (told : Records) : Except Failure (α × Records) → Records
  | .ok (_, next) => next
  | .error _ => told

def outcomes (told : Records) : List Action → List (Except Failure Reply)
  | [] => []
  | a :: as => (told.perform a).map (·.1) :: (told.left (told.perform a)).outcomes as

def after (told : Records) (as : List Action) : Records :=
  as.foldl (fun told a => told.left (told.perform a)) told

end Records

/-! ## One action -/

namespace Registry

variable {α β : Type} {told : Records} {x : Registering α}

/-- From a registry of some records, whatever it keeps, the work ends with an outcome that the
records have, and leaves a registry of the records that the outcome leaves. -/
def Follows (told : Records) (x : Registering α) (o : Except Failure (α × Records)) : Prop :=
  ∀ r j, r.Coherent → r.records = told → ∃ r' k,
    runOn x r j = ((o.map (·.1), r'), k) ∧ r'.Coherent ∧ r'.records = told.left o

/-- An answer made of what was found. -/
theorem Rebuilds.follows {o : Except Failure α} (h : Rebuilds told x o) (g : α → β) :
    Follows told (do return g (← x)) (do return (g (← o), told)) := by
  intro r j hr hrec
  obtain ⟨r', k, hrun, hr', hrec'⟩ := h r j hr hrec
  cases o with
  | ok a =>
    rw [runOn_bind hrun]
    exact ⟨r', k, rfl, hr', hrec'⟩
  | error e => exact ⟨r', k, runOn_bind_error hrun, hr', hrec'⟩

theorem Rebuilds.bind_follows {o : Except Failure α} {f : α → Registering β}
    {g : α → Except Failure (β × Records)} (hx : Rebuilds told x o)
    (hf : ∀ a, Follows told (f a) (g a)) : Follows told (x >>= f) (o >>= g) := by
  intro r j hr hrec
  obtain ⟨r', k, hrun, hr', hrec'⟩ := hx r j hr hrec
  cases o with
  | ok a =>
    rw [runOn_bind hrun]
    exact hf a r' k hr' hrec'
  | error e => exact ⟨r', k, runOn_bind_error hrun, hr', hrec'⟩

/-- The registry with another schema under its name, and nothing that was built on an
earlier one. -/
def replace (r : Registry) (s : RecordSchema) : Registry :=
  { r with
    schemas := Entries.put s.name s r.schemas
    mappings := r.mappings.filter (·.1 != s.name)
    linked := [] }

theorem Coherent.replace {r : Registry} (hr : r.Coherent) (s : RecordSchema) :
    (r.replace s).Coherent := by
  refine ⟨?_, ?_, ?_⟩
  · intro name m h
    rw [Registry.replace, Entries.get?_without] at h
    obtain ⟨hne, h⟩ := Option.ite_none_left_eq_some.mp h
    have hsame := hr.mappings name m h
    simp only [Records.mapping, Records.schema, records, Registry.replace, Entries.get?_put,
      if_neg (Ne.symm hne)] at hsame ⊢
    exact hsame
  · intro name lr h
    cases h
  · intro name t h
    simp only [records, Registry.replace, Entries.get?_put] at h
    split at h
    · rename_i heq
      cases h
      exact heq
    · exact hr.names name t h

theorem follows_registerSchema (s : RecordSchema) (b : β) :
    Follows told (do registerSchema s; return b) (do return (b, ← told.register s)) := by
  intro r j hr hrec
  subst hrec
  rw [registerSchema, Records.register]
  cases hv : s.isValid with
  | false => exact ⟨r, j, rfl, hr, rfl⟩
  | true =>
    simp only [Bool.not_true, Bool.false_eq_true, if_false, bind_assoc, runOn_get]
    split
    · obtain ⟨k, hk⟩ := runOn_check settled_note r j
      rw [bind_assoc, runOn_bind hk]
      exact ⟨r.replace s, k, rfl, hr.replace s, rfl⟩
    · exact ⟨r.replace s, j, rfl, hr.replace s, rfl⟩

/-- The registry with one more link, and no linked record that lacks it. -/
def addTo (d : LinkDeclaration) (r : Registry) : Registry :=
  { r with links := r.links ++ [d], linked := [] }

theorem Coherent.addTo {r : Registry} (hr : r.Coherent) (d : LinkDeclaration) :
    (addTo d r).Coherent := by
  refine ⟨hr.mappings, ?_, hr.names⟩
  intro name lr h
  cases h

theorem follows_addLink (d : LinkDeclaration) (b : β) :
    Follows told (do addLink d; return b) (do return (b, ← told.link d)) := by
  simp only [addLink, Records.link, bind_assoc, pure_bind]
  refine (rebuilds_schema d.parent).bind_follows fun _ => ?_
  refine (rebuilds_schema d.child).bind_follows fun _ => ?_
  intro r j hr hrec
  subst hrec
  exact ⟨r.addTo d, j, rfl, hr.addTo d, rfl⟩

theorem follows_perform (a : Action) : Follows told (perform a) (told.perform a) := by
  cases a with
  | declare d =>
    simp only [perform, register, bind_assoc, pure_bind]
    exact (rebuilds_check (RecordSchema.settled_build d)).bind_follows fun s =>
      follows_registerSchema s _
  | register s => exact follows_registerSchema s _
  | link d => exact follows_addLink d _
  | schema name => exact (rebuilds_schema name).follows _
  | mapping name => exact (rebuilds_mapping name).follows _
  | linkedRecord name => exact (rebuilds_linkedRecord name).follows _

/-! ## Actions one after the other -/

theorem outcomes_eq {r : Registry} (hr : r.Coherent) (j : Journal) (as : List Action) :
    r.outcomes j as = r.records.outcomes as ∧ (r.after j as).records = r.records.after as ∧
      (r.after j as).Coherent := by
  induction as generalizing r j with
  | nil => exact ⟨rfl, rfl, hr⟩
  | cons a as ih =>
    obtain ⟨r', k, hrun, hr', hrec⟩ := follows_perform a r j hr rfl
    obtain ⟨houtcomes, hafter, hcoherent⟩ := ih hr' k
    rw [outcomes, after, Records.outcomes, Records.after, List.foldl_cons, hrun]
    rw [hrec] at houtcomes hafter
    exact ⟨congrArg _ houtcomes, hafter, hcoherent⟩

end Registry

/-! ## What answers are made of -/

namespace LinkTree

mutual

/-- The mappings at both ends of a link and of all links below it. -/
def ends : LinkTree → List Mapping
  | node l below => l.parent :: l.child :: endsAll below

def endsAll : List LinkTree → List Mapping
  | [] => []
  | t :: ts => t.ends ++ endsAll ts

end

theorem mem_endsAll {ts : List LinkTree} {m : Mapping} :
    m ∈ endsAll ts ↔ ∃ t ∈ ts, m ∈ t.ends := by
  induction ts with
  | nil => simp [endsAll]
  | cons t ts ih => simp [endsAll, ih]

end LinkTree

/-- All mappings in an answer. -/
def Registry.Reply.mappings : Registry.Reply → List Mapping
  | mapping m => [m]
  | linked lr => lr.mapping :: LinkTree.endsAll lr.links
  | done | schema _ => []

namespace Records

open Registry (Action Reply)

variable {told : Records}

theorem returns_of_ended {α : Type} {c : Check α} {a : α} (h : ended c = .ok a) :
    ∃ k, c.Returns {} a k := ⟨c.start.2, Prod.ext h rfl⟩

/-- A mapping is that of the schema under its name. -/
theorem schema_of_mapping (hn : told.Named) {name : String} {m : Mapping}
    (h : told.mapping name = .ok m) : Entries.get? m.schema.name told.schemas = some m.schema := by
  obtain ⟨s, hs, hm⟩ := ValueType.bind_eq_ok h
  obtain ⟨k, hreturns⟩ := returns_of_ended hm
  obtain ⟨rfl, -, -⟩ := Mapping.returns_build hreturns
  rw [schema] at hs
  cases hget : Entries.get? name told.schemas with
  | none =>
    rw [hget] at hs
    cases hs
  | some t =>
    rw [hget] at hs
    cases hs
    rw [hn name _ hget, hget]

theorem mem_of_mapM {α β : Type} {f : α → Except Failure β} {l : List α} {bs : List β}
    (h : l.mapM f = .ok bs) {b : β} (hb : b ∈ bs) : ∃ a ∈ l, f a = .ok b := by
  induction l generalizing bs with
  | nil =>
    cases h
    cases hb
  | cons a l ih =>
    rw [List.mapM_cons] at h
    obtain ⟨c, hc, h⟩ := ValueType.bind_eq_ok h
    obtain ⟨cs, hcs, h⟩ := ValueType.bind_eq_ok h
    cases h
    cases hb with
    | head => exact ⟨a, List.mem_cons_self, hc⟩
    | tail _ hb =>
      obtain ⟨a', ha', hb⟩ := ih hcs hb
      exact ⟨a', List.mem_cons_of_mem a ha', hb⟩

/-- Every mapping in the links of a record was built for them. -/
theorem mapping_of_trees {remaining : List String} {parent : String} {ts : List LinkTree}
    (h : told.trees remaining parent = .ok ts) {m : Mapping} (hm : m ∈ LinkTree.endsAll ts) :
    ∃ name, told.mapping name = .ok m := by
  induction remaining, parent using Records.trees.induct told generalizing ts with
  | case1 remaining parent hempty =>
    rw [trees, if_pos hempty] at h
    cases h
    cases hm
  | case2 remaining parent hsome hmem ih =>
    rw [trees, if_neg hsome, dif_pos hmem] at h
    obtain ⟨t, ht, hm⟩ := LinkTree.mem_endsAll.mp hm
    obtain ⟨d, -, ht⟩ := mem_of_mapM h ht
    obtain ⟨p, hp, ht⟩ := ValueType.bind_eq_ok ht
    obtain ⟨c, hc, ht⟩ := ValueType.bind_eq_ok ht
    obtain ⟨below, hbelow, ht⟩ := ValueType.bind_eq_ok ht
    obtain ⟨l, hl, ht⟩ := ValueType.bind_eq_ok ht
    cases ht
    obtain ⟨k, hreturns⟩ := returns_of_ended hl
    simp only [LinkTree.ends, List.mem_cons] at hm
    rcases hm with rfl | rfl | hm
    · exact ⟨d.parent, (Link.parent_of_build hreturns).symm ▸ hp⟩
    · exact ⟨d.child, (Link.child_of_build hreturns).symm ▸ hc⟩
    · exact ih d hbelow hm
  | case3 remaining parent hsome hmem =>
    rw [trees, if_neg hsome, dif_neg hmem] at h
    cases h

/-- All mappings in an answer are of the schemas that are registered under their names. -/
theorem schema_of_reply (hn : told.Named) {a : Action} {reply : Reply} {next : Records}
    (h : told.perform a = .ok (reply, next)) {m : Mapping} (hm : m ∈ reply.mappings) :
    Entries.get? m.schema.name told.schemas = some m.schema := by
  cases a with
  | declare d =>
    obtain ⟨s, -, h⟩ := ValueType.bind_eq_ok h
    obtain ⟨r, -, h⟩ := ValueType.bind_eq_ok h
    cases h
    cases hm
  | register s | link d | schema name =>
    obtain ⟨r, -, h⟩ := ValueType.bind_eq_ok h
    cases h
    cases hm
  | mapping name =>
    obtain ⟨m', hm', h⟩ := ValueType.bind_eq_ok h
    cases h
    cases List.mem_singleton.mp hm
    exact schema_of_mapping hn hm'
  | linkedRecord name =>
    obtain ⟨lr, hlr, h⟩ := ValueType.bind_eq_ok h
    cases h
    obtain ⟨m', hm', hlr⟩ := ValueType.bind_eq_ok hlr
    obtain ⟨ts, hts, hlr⟩ := ValueType.bind_eq_ok hlr
    cases hlr
    rcases List.mem_cons.mp hm with rfl | hm
    · exact schema_of_mapping hn hm'
    · obtain ⟨other, hother⟩ := mapping_of_trees hts hm
      exact schema_of_mapping hn hother

/-! ## Runs without a failed action -/

theorem outcomes_append (told : Records) (as bs : List Action) :
    told.outcomes (as ++ bs) = told.outcomes as ++ (told.after as).outcomes bs := by
  induction as generalizing told with
  | nil => rfl
  | cons a as ih =>
    rw [List.cons_append, outcomes, ih]
    rfl

theorem length_outcomes (told : Records) (as : List Action) :
    (told.outcomes as).length = as.length := by
  induction as generalizing told with
  | nil => rfl
  | cons a as ih => rw [outcomes, List.length_cons, ih, List.length_cons]

theorem outcome_at {as : List Action} {i : Nat} {o : Except Failure Reply}
    (h : (told.outcomes as)[i]? = some o) :
    ∃ a, as[i]? = some a ∧ o = ((told.after (as.take i)).perform a).map (·.1) := by
  induction as generalizing told i with
  | nil => cases h
  | cons a as ih =>
    cases i with
    | zero =>
      cases h
      exact ⟨a, rfl, rfl⟩
    | succ i => exact ih h

/-- Without an action that failed, all others end as they did. -/
theorem outcomes_without {before rest : List Action} {a : Action} {e : Failure}
    (h : (told.outcomes (before ++ a :: rest))[before.length]? = some (.error e)) :
    (told.outcomes (before ++ a :: rest)).eraseIdx before.length = told.outcomes (before ++ rest) := by
  rw [outcomes_append, outcomes] at h ⊢
  rw [← told.length_outcomes before] at h ⊢
  rw [List.getElem?_append_right (Nat.le_refl _), Nat.sub_self, List.getElem?_cons_zero] at h
  cases hfailed : (told.after before).perform a with
  | ok e =>
    rw [hfailed] at h
    cases h
  | error e =>
    rw [List.eraseIdx_append_of_length_le (Nat.le_refl _), Nat.sub_self, List.eraseIdx_cons_zero,
      outcomes_append, left]

end Records

namespace Registry

/-- A registry that was told nothing yet. -/
def opened (settings : Settings) (nullAsZero : Option Bool) (clock : Option String) : Registry where
  settings := settings
  nullAsZero := nullAsZero
  clock := clock

theorem coherent_opened (settings : Settings) (nullAsZero : Option Bool) (clock : Option String) :
    (opened settings nullAsZero clock).Coherent := by
  refine ⟨?_, ?_, ?_⟩
  all_goals
    intro name a h
    cases h

/-- What a registry keeps is invisible. Over any sequence of actions, each ends as it would if
everything were built anew; all mappings that are handed out, those of links included, are of
the schemas that are registered at that time; and without an action that failed all others end
as they did. -/
theorem keeping_invisible (settings : Settings) (nullAsZero : Option Bool) (clock : Option String)
    (j : Journal) (as : List Action) :
    (opened settings nullAsZero clock).outcomes j as =
      (opened settings nullAsZero clock).records.outcomes as ∧
    (∀ i reply, ((opened settings nullAsZero clock).outcomes j as)[i]? = some (.ok reply) →
      ∀ m ∈ reply.mappings, Entries.get? m.schema.name
        ((opened settings nullAsZero clock).after j (as.take i)).schemas = some m.schema) ∧
    ∀ before a rest e, as = before ++ a :: rest →
      ((opened settings nullAsZero clock).outcomes j as)[before.length]? = some (.error e) →
      ((opened settings nullAsZero clock).outcomes j as).eraseIdx before.length =
        (opened settings nullAsZero clock).outcomes j (before ++ rest) := by
  have hopened := coherent_opened settings nullAsZero clock
  have hrun (as : List Action) := outcomes_eq hopened j as
  refine ⟨(hrun as).1, ?_, ?_⟩
  · intro i reply hreply m hm
    obtain ⟨-, hafter, hcoherent⟩ := hrun (as.take i)
    rw [(hrun as).1] at hreply
    obtain ⟨a, -, ho⟩ := Records.outcome_at hreply
    rw [← hafter] at ho
    cases hperform : ((opened settings nullAsZero clock).after j (as.take i)).records.perform a with
    | error e =>
      rw [hperform] at ho
      cases ho
    | ok e =>
      rw [hperform] at ho
      cases ho
      exact Records.schema_of_reply hcoherent.names hperform hm
  · intro before a rest e has hfailed
    subst has
    rw [(hrun _).1] at hfailed
    rw [(hrun _).1, (hrun _).1]
    exact Records.outcomes_without hfailed

/-! ## Invoices that are registered again -/

/-- A link to a record that nobody registered. -/
def remindersDeclaration : LinkDeclaration where
  name := "reminders"
  parent := "invoice"
  child := "reminder"
  parentFields := []
  childFields := []
  isMultiRow := true
  minRows := 0
  maxRows := 0
  errorMessageId := none

/-- Invoices are asked for, and move to another table. -/
def movingActions : List Action :=
  [.declare RecordSchema.invoiceDeclaration, .linkedRecord "invoice",
    .declare { RecordSchema.invoiceDeclaration with nameInDb := some "archive" }]

/-- The link fails, and the invoices that are asked for behind it are those that they would be
without it. -/
theorem keeping_invisible_invoice :
    (∃ e, ((opened {} none none).outcomes {}
      (movingActions ++ .link remindersDeclaration :: [.linkedRecord "invoice"]))[3]? =
        some (.error e)) ∧
    ((opened {} none none).outcomes {}
      (movingActions ++ .link remindersDeclaration :: [.linkedRecord "invoice"])).eraseIdx 3 =
        (opened {} none none).outcomes {} (movingActions ++ [.linkedRecord "invoice"]) := by
  have hnone : ((opened {} none none).outcomes {}
      (movingActions ++ .link remindersDeclaration :: [.linkedRecord "invoice"]))[3]?.any
        (·.toOption.isNone) = true := by decide +kernel
  obtain ⟨o, ho, hfails⟩ := (Option.any_eq_true ..).mp hnone
  cases o with
  | ok reply => cases hfails
  | error e =>
    exact ⟨⟨e, ho⟩, (keeping_invisible {} none none {} _).2.2 movingActions
      (.link remindersDeclaration) [.linkedRecord "invoice"] e rfl ho⟩

end Registry

end Tablewright
