import Mathlib.Data.List.Forall2
import Tablewright.Link.Writing
import Tablewright.Proofs.Schema.Valid

/-! Links that were built, and how many child rows they admit. The pairs of a link are fields of
the two records, whether they were named or are the tenants. A number of rows that a link does
not admit is reported once, and says which link it is about. -/

namespace Tablewright

open Check

namespace Link

/-! ## Building -/

/-- The pairs of a link are fields of the two records. -/
structure Sound (l : Link) (parent : RecordSchema) : Prop where
  parents : ∀ p ∈ l.parentFields, p ∈ parent.fields
  children : ∀ c ∈ l.childFields, c ∈ l.child.schema.fields

/-- A link that a declaration describes, between records whose schemas have no faults. -/
structure Built (l : Link) (schema : RecordSchema) : Prop where
  parent : schema.Valid
  child : l.child.schema.Valid
  described : ∃ d m j k, m.schema = schema ∧ (build d m l.child).Returns j l k

theorem child_of_build {d : LinkDeclaration} {parent child : Mapping} {l : Link} {j k : Journal}
    (h : (build d parent child).Returns j l k) : l.child = child := by
  simp only [build, returns_bind, returns_pure] at h
  obtain ⟨_, _, _, rfl, -⟩ := h
  rfl

theorem parent_of_build {d : LinkDeclaration} {parent child : Mapping} {l : Link} {j k : Journal}
    (h : (build d parent child).Returns j l k) : l.parent = parent := by
  simp only [build, returns_bind, returns_pure] at h
  obtain ⟨_, _, _, rfl, -⟩ := h
  rfl

/-- What is found is a field for each name. -/
theorem named_of_resolve {schema : RecordSchema} {side : String} {mustBeColumn : Bool}
    {names : List String} {fs : List Field} (h : resolve schema side mustBeColumn names = .ok fs) :
    List.Forall₂ (fun name f => schema.field? name = some f) names fs := by
  induction names generalizing fs with
  | nil =>
    cases h
    exact .nil
  | cons name names ih =>
    rw [resolve, List.mapM_cons] at h
    split at h
    · cases h
    · rename_i f hf
      split at h
      · cases h
      · cases hrest : resolve schema side mustBeColumn names with
        | error e =>
          rw [resolve] at hrest
          rw [hrest] at h
          cases h
        | ok gs =>
          have hgs := ih hrest
          rw [resolve] at hrest
          rw [hrest] at h
          cases h
          exact .cons hf hgs

theorem mem_of_resolve {schema : RecordSchema} {side : String} {mustBeColumn : Bool}
    {names : List String} {fs : List Field} (h : resolve schema side mustBeColumn names = .ok fs) :
    ∀ f ∈ fs, f ∈ schema.fields := by
  intro f hf
  have hnamed := named_of_resolve h
  obtain ⟨i, hi, rfl⟩ := List.getElem_of_mem hf
  exact schema.field_mem (hnamed.get (hnamed.length_eq ▸ hi) hi)

theorem pairs_of_resolve {parent child : RecordSchema} (hp : parent.Sound) (hc : child.Sound)
    {parentNames childNames : List String} {pairs : List (Field × Field)}
    (h : resolvePairs parent child parentNames childNames = .ok pairs) :
    ∀ e ∈ pairs, e.1 ∈ parent.fields ∧ e.2 ∈ child.fields := by
  unfold resolvePairs at h
  cases hps : resolve parent "parent" false parentNames with
  | error e =>
    rw [hps] at h
    cases h
  | ok ps =>
    cases hcs : resolve child "child" true childNames with
    | error e =>
      rw [hps, hcs] at h
      cases h
    | ok cs =>
      rw [hps, hcs] at h
      cases h
      intro e he
      rcases List.mem_append.mp he with he | he
      · obtain ⟨hp, hc⟩ := List.of_mem_zip (a := e.1) (b := e.2) he
        exact ⟨mem_of_resolve hps _ hp, mem_of_resolve hcs _ hc⟩
      · unfold tenantPair at he
        split at he
        · rename_i p c hpt hct
          split at he
          · cases he
          · obtain rfl := List.mem_singleton.mp he
            exact ⟨(hp.tenant_mem hpt).1, (hc.tenant_mem hct).1⟩
        · cases he

theorem Built.sound {l : Link} {parent : RecordSchema} (h : l.Built parent) : l.Sound parent := by
  obtain ⟨hp, hc, d, m, j, k, rfl, h⟩ := h
  simp only [build, returns_bind, returns_pure] at h
  obtain ⟨pairs, _, hpairs, hl, -⟩ := h
  have hmem : ∀ e ∈ pairs, e.1 ∈ m.schema.fields ∧ e.2 ∈ l.child.schema.fields := by
    unfold findPairs at hpairs
    split at hpairs
    · cases hpairs
    · split at hpairs
      · simp only [returns_bind, returns_pure] at hpairs
        obtain ⟨_, _, _, rfl, -⟩ := hpairs
        simp
      · exact pairs_of_resolve hp.sound hc.sound (returns_known.mp hpairs).1
  have hl : l.pairs = pairs := (congrArg Link.pairs hl).symm
  refine ⟨fun p hp => ?_, fun c hc => ?_⟩
  · obtain ⟨e, he, rfl⟩ := List.mem_map.mp hp
    exact (hmem e (hl ▸ he)).1
  · obtain ⟨e, he, rfl⟩ := List.mem_map.mp hc
    exact (hmem e (hl ▸ he)).2

/-- A row of the parent has all places of the link. -/
theorem Built.parent_lt {l : Link} {schema : RecordSchema} {base : Row} (h : l.Built schema)
    (hlen : base.length = schema.fields.length) : ∀ p ∈ l.parentFields, p.index < base.length := by
  intro p hp
  rw [hlen]
  exact h.parent.sound.index_lt (h.sound.parents p hp)

/-- A link between records without faults is built as soon as building ends. -/
theorem built_of_result {d : LinkDeclaration} {parent child : Mapping} (hp : parent.schema.Valid)
    (hc : child.schema.Valid) (h : ((build d parent child).result? {}).isSome = true) :
    (((build d parent child).result? {}).getD default).child = child ∧
      (((build d parent child).result? {}).getD default).Built parent.schema := by
  obtain ⟨l, k, hl, hresult⟩ := returns_of_result h
  rw [hresult, Option.getD_some]
  have hchild := child_of_build hl
  refine ⟨hchild, hp, ?_, d, parent, {}, k, rfl, ?_⟩
  · rw [hchild]
    exact hc
  · rw [hchild]
    exact hl

/-! ## Numbers of child rows -/

/-- Whether a number of child rows is within the bounds of the link. -/
def Admits (l : Link) (count : Nat) : Prop :=
  (l.isMultiRow = true → l.minRows ≤ count ∧ (0 < l.maxRows → (count : Int) ≤ l.maxRows)) ∧
    (l.isMultiRow = false → (0 < l.minRows → 0 < count) ∧ count ≤ 1)

instance (l : Link) (count : Nat) : Decidable (l.Admits count) :=
  inferInstanceAs (Decidable (_ ∧ _))

/-- A message about a wrong number of child rows. It names the link, and has the link's own id
if there is one. -/
structure Blames (l : Link) (message : Message) : Prop where
  kind : message.kind = .error
  field : message.field = some l.name
  object : message.object = some l.name
  id : ∀ own, l.errorMessageId = some own → own ≠ "" → message.id = own

theorem validate_of_admits {l : Link} {count : Nat} (h : l.Admits count) :
    l.validate count = pure true := by
  unfold validate
  cases hrows : l.isMultiRow with
  | true =>
    have hbounds := h.1 hrows
    have hin : ¬ ((count : Int) < l.minRows ∨ (0 < l.maxRows ∧ l.maxRows < count)) := by omega
    simp [hin]
  | false =>
    have hbounds := h.2 hrows
    have hnone : ¬ (count = 0 ∧ 0 < l.minRows) := by omega
    have hmany : ¬ 1 < count := by omega
    simp [hnone, hmany]

theorem returns_reject (l : Link) (text id : String) (j : Journal) : ∃ k message,
    (l.reject text id).Returns j false k ∧ k.messages = j.messages ++ [message] ∧
      l.Blames message := by
  refine ⟨_, _, rfl, rfl, rfl, rfl, rfl, ?_⟩
  rintro own hown hne
  simp [Message.fieldError, hown, hne]

theorem returns_validate_of_not {l : Link} {count : Nat} (h : ¬ l.Admits count) (j : Journal) :
    ∃ k message, (l.validate count).Returns j false k ∧ k.messages = j.messages ++ [message] ∧
      l.Blames message := by
  unfold validate
  cases hrows : l.isMultiRow with
  | true =>
    have hout : (count : Int) < l.minRows ∨ (0 < l.maxRows ∧ l.maxRows < count) := by
      by_contra hin
      exact h ⟨fun _ => ⟨by omega, by omega⟩, fun hsingle => nomatch hsingle.symm.trans hrows⟩
    rw [if_neg (by simp), if_pos hout]
    exact returns_reject ..
  | false =>
    rw [if_pos (by simp)]
    split
    · exact returns_reject ..
    · rename_i hnone
      have hmany : 1 < count := by
        by_contra hone
        exact h ⟨fun hmulti => (nomatch hmulti.symm.trans hrows), fun _ => ⟨by omega, by omega⟩⟩
      rw [if_pos hmany]
      exact returns_reject ..

end Link

namespace LinkedRecord

/-- Whether a link admits as many rows as a tree has under it. -/
def Admitted (tree : RowTree RowRef) (t : LinkTree) : Prop :=
  t.link.Admits (rowsUnder tree t).length

instance (tree : RowTree RowRef) : DecidablePred (Admitted tree) :=
  fun _ => inferInstanceAs (Decidable (Link.Admits ..))

/-- Every link is looked at, and each that does not admit its rows is reported. -/
theorem returns_validateAll (tree : RowTree RowRef) (ts : List LinkTree) (j : Journal) :
    ∃ oks k added,
      Returns (ts.mapM fun t => t.link.validate (rowsUnder tree t).length) j oks k ∧
      oks.all id = decide (∀ t ∈ ts, Admitted tree t) ∧ k.messages = j.messages ++ added ∧
      List.Forall₂ (fun t message => t.link.Blames message)
        (ts.filter fun t => ¬ Admitted tree t) added := by
  induction ts generalizing j with
  | nil => exact ⟨[], j, [], rfl, by simp, by simp, .nil⟩
  | cons t ts ih =>
    by_cases ht : Admitted tree t
    · obtain ⟨oks, k, added, hreturns, hoks, hadded, hblames⟩ := ih j
      refine ⟨true :: oks, k, added, ?_, by simp [hoks, ht], hadded, by simpa [ht] using hblames⟩
      rw [List.mapM_cons, Link.validate_of_admits ht, returns_bind]
      exact ⟨true, j, rfl, returns_bind.mpr ⟨oks, k, hreturns, rfl⟩⟩
    · obtain ⟨l, message, hfirst, hmessages, hblame⟩ := Link.returns_validate_of_not ht j
      obtain ⟨oks, k, added, hreturns, hoks, hadded, hblames⟩ := ih l
      refine ⟨false :: oks, k, message :: added, ?_, by simp [ht], ?_, ?_⟩
      · rw [List.mapM_cons, returns_bind]
        exact ⟨false, l, hfirst, returns_bind.mpr ⟨oks, k, hreturns, rfl⟩⟩
      · rw [hadded, hmessages, List.append_assoc, List.singleton_append]
      · rw [List.filter_cons_of_pos (by simpa using ht)]
        exact .cons hblame hblames

theorem returns_validate (lr : LinkedRecord) (tree : RowTree RowRef) (j : Journal) : ∃ k added,
    (lr.validate tree).Returns j (decide (∀ t ∈ lr.links, Admitted tree t)) k ∧
    k.messages = j.messages ++ added ∧
    List.Forall₂ (fun t message => t.link.Blames message)
      (lr.links.filter fun t => ¬ Admitted tree t) added := by
  obtain ⟨oks, k, added, hreturns, hoks, hadded, hblames⟩ := returns_validateAll tree lr.links j
  refine ⟨k, added, ?_, hadded, hblames⟩
  rw [← hoks]
  exact returns_bind.mpr ⟨oks, k, hreturns, rfl⟩

end LinkedRecord

end Tablewright
