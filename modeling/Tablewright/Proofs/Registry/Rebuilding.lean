import Tablewright.Proofs.Schema.Building
import Tablewright.Registry

/-! Records without a memory. The same registered schemas and links, from which everything
that is asked for is built anew each time. A registry keeps what it has built; this is of no
consequence as long as whatever it keeps is what would be built anew. -/

namespace Tablewright

open Check

/-- What a registry is told. -/
structure Records where
  settings : Settings
  nullAsZero : Option Bool
  clock : Option String
  schemas : List (String × RecordSchema) := []
  links : List LinkDeclaration := []

namespace Records

/-- What a check ends with by itself. -/
def ended {α : Type} (c : Check α) : Except Failure α := c.start.1

def schema (r : Records) (name : String) : Except Failure RecordSchema :=
  match Entries.get? name r.schemas with
  | some s => .ok s
  | none => .error (.unknownRecord name)

def mapping (r : Records) (name : String) : Except Failure Mapping := do
  ended (Mapping.build r.settings r.nullAsZero r.clock (← r.schema name))

/-- The links of a record with all links below them. Nothing can be unfolded below itself. -/
def trees (r : Records) (remaining : List String) (parent : String) :
    Except Failure (List LinkTree) :=
  if (Registry.linksOf r.links parent).isEmpty then .ok []
  else if _ : parent ∈ remaining then
    (Registry.linksOf r.links parent).mapM fun d => do
      let p ← r.mapping d.parent
      let c ← r.mapping d.child
      let below ← r.trees (remaining.erase parent) d.child
      return .node (← ended (Link.build d p c)) below
  else .error (.badLink (.cycle parent))
termination_by remaining.length
decreasing_by
  have := List.length_pos_of_mem ‹parent ∈ remaining›
  rw [List.length_erase_of_mem ‹parent ∈ remaining›]
  omega

def linkedRecord (r : Records) (name : String) : Except Failure LinkedRecord := do
  let m ← r.mapping name
  return ⟨m, ← r.trees (Registry.parents r.links) name⟩

/-- Whether every schema stands under its own name. -/
def Named (r : Records) : Prop := ∀ name s, Entries.get? name r.schemas = some s → s.name = name

end Records

/-! ## Builds that read nothing -/

theorem RecordSchema.settled_fault {record : String} {x : Draft} {faults : List SchemaFault} :
    (x.fault record faults).Settled := ⟨_, _, ends_fault⟩

theorem RecordSchema.settled_declare {record : String} {ds : List FieldDeclaration} {x : Draft}
    {e : FieldDeclaration × Nat} : (declare record ds x e).Settled := by
  refine Settled.bind ⟨_, _, ends_warnOfMissingRole⟩ fun _ => ?_
  refine settled_fault.bind fun _ => settled_known.bind fun _ => ?_
  exact settled_fault.bind fun _ => settled_fault

theorem RecordSchema.settled_build (d : RecordDeclaration) : (build d).Settled := by
  refine (settled_foldlM fun _ _ => settled_declare).bind fun x => ?_
  refine Settled.bind ⟨_, _, ends_readTimestampCheck⟩ fun _ => ?_
  obtain ⟨operations, hoperations⟩ : ∃ operations,
      (readOperations d.name d.operations []).Ends (.ok operations) [] := ends_readOperations
  refine Settled.bind ⟨_, _, hoperations⟩ fun _ => ?_
  by_cases hf : x.faults.isEmpty = true
  · rw [if_pos hf]
    exact settled_note.bind fun _ => settled_pure
  · rw [if_neg hf]
    exact settled_note.bind fun _ => settled_pure

theorem Mapping.settled_build (settings : Settings) (nullAsZero : Option Bool)
    (clock : Option String) (s : RecordSchema) : (build settings nullAsZero clock s).Settled := by
  have hlimits (m : Mapping) : m.noteLimits.Settled := by
    unfold noteLimits
    split
    · exact settled_note
    · split
      · exact settled_note
      · exact settled_pure
  exact Settled.unless (Settled.unless (settled_known.bind fun _ =>
    (hlimits _).bind fun _ => settled_pure))

theorem Link.settled_build (d : LinkDeclaration) (p c : Mapping) : (build d p c).Settled := by
  refine Settled.bind ?_ fun _ => settled_pure
  unfold findPairs
  split
  · exact settled_throw
  · split
    · exact settled_note.bind fun _ => settled_pure
    · exact settled_known

/-! ## What a registry keeps -/

namespace Registry

/-- What the registry was told, without what it has built from it. -/
def records (r : Registry) : Records := ⟨r.settings, r.nullAsZero, r.clock, r.schemas, r.links⟩

/-- Everything that the registry keeps is what would be built anew, and every schema stands
under its own name. -/
structure Coherent (r : Registry) : Prop where
  mappings : ∀ name m, Entries.get? name r.mappings = some m → r.records.mapping name = .ok m
  linked : ∀ name lr, Entries.get? name r.linked = some lr → r.records.linkedRecord name = .ok lr
  names : r.records.Named

/-- The outcome of work on a registry, with the registry and the journal after it. -/
def runOn {α : Type} (x : Registering α) (r : Registry) (j : Journal) :
    (Except Failure α × Registry) × Journal := (x.run.run r).run j

/-- Whatever a registry of some records keeps, the work ends with the same outcome, and the
registry is one of the same records. -/
def Rebuilds {α : Type} (told : Records) (x : Registering α) (o : Except Failure α) : Prop :=
  ∀ r j, r.Coherent → r.records = told →
    ∃ r' k, runOn x r j = ((o, r'), k) ∧ r'.Coherent ∧ r'.records = told

variable {α β : Type} {told : Records} {x : Registering α} {f : α → Registering β}

theorem runOn_bind {r r' : Registry} {j k : Journal} {a : α} (h : runOn x r j = ((.ok a, r'), k)) :
    runOn (x >>= f) r j = runOn (f a) r' k := by
  unfold runOn at h ⊢
  simp only [ExceptT.run_bind, StateT.run_bind, h]
  rfl

theorem runOn_bind_error {r r' : Registry} {j k : Journal} {e : Failure}
    (h : runOn x r j = ((.error e, r'), k)) : runOn (x >>= f) r j = ((.error e, r'), k) := by
  unfold runOn at h ⊢
  simp only [ExceptT.run_bind, StateT.run_bind, h]
  rfl

theorem runOn_check {c : Check α} (hc : c.Settled) (r : Registry) (j : Journal) :
    ∃ k, runOn (check c) r j = ((Records.ended c, r), k) := by
  refine ⟨(c.run.run j).2, ?_⟩
  rw [Records.ended, ← hc.eq_start j]
  rfl

theorem rebuilds_pure {a : α} : Rebuilds told (pure a) (.ok a) :=
  fun r j hr hrec => ⟨r, j, rfl, hr, hrec⟩

theorem rebuilds_throw {e : Failure} : Rebuilds told (throw e : Registering α) (.error e) :=
  fun r j hr hrec => ⟨r, j, rfl, hr, hrec⟩

theorem rebuilds_check {c : Check α} (hc : c.Settled) :
    Rebuilds told (check c) (Records.ended c) := by
  intro r j hr hrec
  obtain ⟨k, hk⟩ := runOn_check hc r j
  exact ⟨r, k, hk, hr, hrec⟩

theorem Rebuilds.bind {o : Except Failure α} {g : α → Except Failure β} (hx : Rebuilds told x o)
    (hf : ∀ a, o = .ok a → Rebuilds told (f a) (g a)) : Rebuilds told (x >>= f) (o >>= g) := by
  intro r j hr hrec
  obtain ⟨r', k, hrun, hr', hrec'⟩ := hx r j hr hrec
  cases o with
  | ok a =>
    rw [runOn_bind hrun]
    exact hf a rfl r' k hr' hrec'
  | error e => exact ⟨r', k, runOn_bind_error hrun, hr', hrec'⟩

theorem rebuilds_mapM {l : List β} {f : β → Registering α} {g : β → Except Failure α}
    (h : ∀ b ∈ l, Rebuilds told (f b) (g b)) : Rebuilds told (l.mapM f) (l.mapM g) := by
  induction l with
  | nil => exact rebuilds_pure
  | cons b l ih =>
    obtain ⟨hb, hl⟩ := List.forall_mem_cons.mp h
    rw [List.mapM_cons, List.mapM_cons]
    exact hb.bind fun _ _ => (ih hl).bind fun _ _ => rebuilds_pure

/-- Keeping something before it is returned. -/
theorem rebuilds_keep {keep : Registry → Registry} {a : α} (h : ∀ r : Registry, r.Coherent →
    r.records = told → (keep r).Coherent ∧ (keep r).records = told) :
    Rebuilds told (do modify keep; return a) (.ok a) :=
  fun r j hr hrec => ⟨keep r, j, rfl, h r hr hrec⟩

/-! ## Keeping what was built -/

/-- A mapping that is what would be built may be kept. -/
theorem Coherent.keepMapping {r : Registry} (hr : r.Coherent) {name : String} {m : Mapping}
    (hm : r.records.mapping name = .ok m) :
    { r with mappings := Entries.put name m r.mappings : Registry }.Coherent := by
  refine ⟨?_, hr.linked, hr.names⟩
  intro other m' h
  rw [Entries.get?_put] at h
  split at h
  · rename_i heq
    cases h
    exact heq ▸ hm
  · exact hr.mappings other m' h

theorem Coherent.keepLinked {r : Registry} (hr : r.Coherent) {name : String} {lr : LinkedRecord}
    (hlr : r.records.linkedRecord name = .ok lr) :
    { r with linked := Entries.put name lr r.linked : Registry }.Coherent := by
  refine ⟨hr.mappings, ?_, hr.names⟩
  intro other lr' h
  rw [Entries.get?_put] at h
  split at h
  · rename_i heq
    cases h
    exact heq ▸ hlr
  · exact hr.linked other lr' h

/-- Work that begins with a look at the registry. -/
theorem runOn_get {f : Registry → Registering α} (r : Registry) (j : Journal) :
    runOn (get >>= f) r j = runOn (f r) r j := rfl

theorem rebuilds_schema (name : String) : Rebuilds told (schema name) (told.schema name) := by
  intro r j hr hrec
  subst hrec
  rw [schema, runOn_get, Records.schema, records]
  cases Entries.get? name r.schemas with
  | some s => exact rebuilds_pure r j hr rfl
  | none => exact rebuilds_throw r j hr rfl

theorem rebuilds_mapping (name : String) : Rebuilds told (mapping name) (told.mapping name) := by
  intro r j hr hrec
  rw [mapping, runOn_get]
  cases hkept : Entries.get? name r.mappings with
  | some m =>
    rw [← hrec, hr.mappings name m hkept]
    exact rebuilds_pure r j hr rfl
  | none =>
    refine (rebuilds_schema name).bind (fun s hs => ?_) r j hr hrec
    intro r' j' hr' hrec'
    subst hrec'
    rw [runOn_get, ← bind_pure (Records.ended _)]
    refine (rebuilds_check (Mapping.settled_build ..)).bind (fun m hm => ?_) r' j' hr' rfl
    refine rebuilds_keep fun r'' hr'' hrec'' => ⟨hr''.keepMapping ?_, hrec''⟩
    rw [hrec'', Records.mapping, hs]
    exact hm

theorem rebuilds_unfold (remaining : List String) (parent : String) :
    Rebuilds told (unfold told.links remaining parent) (told.trees remaining parent) := by
  induction remaining, parent using Registry.unfold.induct told.links with
  | case1 remaining parent hempty =>
    rw [unfold, Records.trees, if_pos hempty, if_pos hempty]
    exact rebuilds_pure
  | case2 remaining parent hsome hmem ih =>
    rw [unfold, Records.trees, if_neg hsome, if_neg hsome, dif_pos hmem, dif_pos hmem]
    refine rebuilds_mapM fun d _ => ?_
    refine (rebuilds_mapping d.parent).bind fun p _ => (rebuilds_mapping d.child).bind fun c _ => ?_
    refine (ih d).bind fun below _ => ?_
    exact (rebuilds_check (Link.settled_build d p c)).bind fun _ _ => rebuilds_pure
  | case3 remaining parent hsome hmem =>
    rw [unfold, Records.trees, if_neg hsome, if_neg hsome, dif_neg hmem, dif_neg hmem]
    exact rebuilds_throw

theorem rebuilds_linkedRecord (name : String) :
    Rebuilds told (linkedRecord name) (told.linkedRecord name) := by
  intro r j hr hrec
  rw [linkedRecord, runOn_get]
  cases hkept : Entries.get? name r.linked with
  | some lr =>
    rw [← hrec, hr.linked name lr hkept]
    exact rebuilds_pure r j hr rfl
  | none =>
    refine (rebuilds_mapping name).bind (fun m hm => ?_) r j hr hrec
    intro r' j' hr' hrec'
    subst hrec'
    rw [runOn_get]
    have hunfold : Rebuilds r'.records (unfold r'.links (parents r'.links) name)
        (r'.records.trees (parents r'.records.links) name) := rebuilds_unfold _ name
    refine hunfold.bind (fun ts hts => ?_) r' j' hr' rfl
    refine rebuilds_keep fun r'' hr'' hrec'' => ⟨hr''.keepLinked ?_, hrec''⟩
    simp only [hrec'', Records.linkedRecord, hm, bind, Except.bind, hts]
    rfl

end Registry

end Tablewright
