import Tablewright.Proofs.Link.Binding

/-! Child rows of a tenant. Where both records of a link have tenants, the link pairs them, unless
its declaration says what the child's tenant is paired with. As long as that is the parent's tenant
and nothing else, every statement that is executed for child rows binds the tenant of the parent
row, and child rows that are saved are of that tenant. -/

namespace Tablewright

open Work

namespace Link

variable {d : LinkDeclaration} {m child : Mapping} {l : Link} {j k : Journal}
  {parentTenant childTenant : Field}

/-- Entries of two lists side by side come from entries of the lists that these were made of. -/
theorem exists_mem_zip {α β γ δ : Type} {R : α → γ → Prop} {S : β → δ → Prop} {as : List α}
    {bs : List β} {cs : List γ} {ds : List δ} (hR : List.Forall₂ R as cs)
    (hS : List.Forall₂ S bs ds) {e : γ × δ} (he : e ∈ cs.zip ds) :
    ∃ o ∈ as.zip bs, R o.1 e.1 ∧ S o.2 e.2 := by
  induction hR generalizing bs ds with
  | nil => simp at he
  | cons hr _ ih =>
    cases hS with
    | nil => simp at he
    | cons hs hS =>
      rw [List.zip_cons_cons] at he ⊢
      rcases List.mem_cons.mp he with rfl | he
      · exact ⟨_, List.mem_cons_self, hr, hs⟩
      · obtain ⟨o, ho, hentries⟩ := ih hS he
        exact ⟨o, List.mem_cons_of_mem _ ho, hentries⟩

/-- What the pairs of a link are made of: the fields that are named, side by side, and the tenants
unless the child's is among those. -/
theorem pairs_of_build (h : (build d m child).Returns j l k) (hl : l.isLinked = true) :
    ∃ ps cs, List.Forall₂ (fun name f => m.schema.field? name = some f) d.parentFields ps ∧
      List.Forall₂ (fun name f => child.schema.field? name = some f) d.childFields cs ∧
      ps.length = cs.length ∧ l.pairs = ps.zip cs ++ tenantPair m.schema child.schema cs := by
  simp only [build, Check.returns_bind, Check.returns_pure] at h
  obtain ⟨pairs, _, hpairs, rfl, -⟩ := h
  unfold findPairs at hpairs
  split at hpairs
  · cases hpairs
  · rename_i hlength
    split at hpairs
    · simp only [Check.returns_bind, Check.returns_pure] at hpairs
      obtain ⟨_, _, _, rfl, -⟩ := hpairs
      cases hl
    · have hresolve := (Check.returns_known.mp hpairs).1
      unfold resolvePairs at hresolve
      cases hps : resolve m.schema "parent" false d.parentFields with
      | error e =>
        rw [hps] at hresolve
        cases hresolve
      | ok ps =>
        cases hcs : resolve child.schema "child" true d.childFields with
        | error e =>
          rw [hps, hcs] at hresolve
          cases hresolve
        | ok cs =>
          rw [hps, hcs] at hresolve
          have hparents := named_of_resolve hps
          have hchildren := named_of_resolve hcs
          refine ⟨ps, cs, hparents, hchildren, ?_, (Except.ok.inj hresolve).symm⟩
          rw [← hparents.length_eq, ← hchildren.length_eq]
          exact not_not.mp hlength

/-- The child's tenant is paired with something. If it is declared to be paired with the parent's
tenant at most, it is with the parent's tenant and nothing else. -/
theorem pairs_of_tenant (h : (build d m child).Returns j l k) (hl : l.isLinked = true)
    (hm : m.schema.Sound) (hc : child.schema.Sound) (hparent : m.schema.tenantField = some parentTenant)
    (hchild : child.schema.tenantField = some childTenant)
    (hdeclared : ∀ e ∈ d.parentFields.zip d.childFields,
      e.2 = childTenant.name → e.1 = parentTenant.name) :
    (∃ e ∈ l.pairs, e.2 = childTenant) ∧ ∀ e ∈ l.pairs, e.2 = childTenant → e.1 = parentTenant := by
  obtain ⟨ps, cs, hps, hcs, hlength, hpairs⟩ := pairs_of_build h hl
  have hfields {schema : RecordSchema} {name : String} {f g : Field} (hs : schema.Sound)
      (hf : schema.field? name = some f) (hg : g ∈ schema.fields) (hname : name = g.name) : f = g :=
    List.inj_on_of_nodup_map hs.names (schema.field_mem hf) hg ((RecordSchema.name_of_field hf).trans hname)
  rw [hpairs]
  constructor
  · by_cases hnamed : ∃ c ∈ cs, c.index = childTenant.index
    · obtain ⟨c, hcm, hindex⟩ := hnamed
      obtain ⟨i, hi, rfl⟩ := List.getElem_of_mem hcm
      have hfield : cs[i] ∈ child.schema.fields :=
        child.schema.field_mem (hcs.get (hcs.length_eq ▸ hi) hi)
      have hi' : i < ps.length := by omega
      refine ⟨(ps[i], cs[i]), List.mem_append_left _ ?_,
        hc.eq_of_index hfield (hc.tenant_mem hchild).1 hindex⟩
      exact List.mem_iff_getElem.mpr ⟨i, by simp; omega, by simp⟩
    · refine ⟨(parentTenant, childTenant), List.mem_append_right _ ?_, rfl⟩
      have hnone : cs.any (·.index == childTenant.index) = false := by simpa using hnamed
      rw [tenantPair, hparent, hchild]
      simp [hnone]
  · intro e he hcolumn
    rcases List.mem_append.mp he with he | he
    · obtain ⟨o, ho, hp, hch⟩ := exists_mem_zip hps hcs he
      have hname : o.2 = childTenant.name := by rw [← RecordSchema.name_of_field hch, hcolumn]
      exact hfields hm hp (hm.tenant_mem hparent).1 (hdeclared o ho hname)
    · rw [tenantPair, hparent, hchild] at he
      dsimp only at he
      split at he
      · cases he
      · rw [List.mem_singleton.mp he]

variable {base row : Row} {v : Value}

section

variable {schema : RecordSchema} {tenant : Value}

/-- The link hands a value down to the child's tenant, and nothing else. -/
structure HandsDown (l : Link) (base : Row) (childTenant : Field) (tenant : Value) : Prop where
  field : l.child.schema.tenantField = some childTenant
  known : tenant.isNull = false
  paired : ∃ e ∈ l.pairs, e.2 = childTenant
  value : ∀ e ∈ l.pairs, e.2 = childTenant → base.getD e.1.index .null = tenant

variable (h : l.HandsDown base childTenant tenant) (hl : l.Built schema)
include h

theorem HandsDown.binds_pairs :
    (∃ e ∈ l.pairs, e.2 = childTenant ∧ v = base.getD e.1.index .null) ↔ v = tenant := by
  constructor
  · intro hpair
    obtain ⟨e, he, hcolumn, rfl⟩ := hpair
    exact h.value e he hcolumn
  · intro hv
    obtain ⟨e, he, hcolumn⟩ := h.paired
    exact ⟨e, he, hcolumn, hv.trans (h.value e he hcolumn).symm⟩

include hl

/-- A child row with the parent row's values in it is of the tenant. -/
theorem HandsDown.carried (hlen : row.length = l.child.schema.fields.length) :
    (l.carried base row).getD childTenant.index .null = tenant := by
  obtain ⟨e, he, rfl⟩ := h.paired
  obtain ⟨p, hp, hvalue⟩ : ∃ p, (p, e.2) ∈ l.pairs ∧
      (l.carried base row).getD e.2.index .null = base.getD p.index .null :=
    carried_columns hl hlen (List.mem_map_of_mem he)
  rw [hvalue]
  exact h.value (p, e.2) hp rfl

theorem HandsDown.saved (hsaved : l.SavedAs base row) :
    row.getD childTenant.index .null = tenant := by
  obtain ⟨child, hlen, hsame⟩ := hsaved
  have hs := hl.child.sound
  obtain ⟨hfield, hrole⟩ := hs.tenant_mem h.field
  rw [hsame.getD_eq hs hfield, h.carried hl hlen]
  intro hgenerated
  rw [(hs.generated_mem hgenerated).2] at hrole
  cases hrole

/-- What is executed to save a child row binds the tenant. -/
theorem HandsDown.binds_saveCall {c : Call} (hc : l.SaveCall base c) :
    c.Binds l.marked childTenant v ↔ v = tenant := by
  obtain ⟨child, hlen, hcall⟩ := hc
  have hbound : l.child.boundValue childTenant (l.carried base child) = tenant := by
    rw [Mapping.boundValue, h.carried hl hlen, Mapping.fill_of_not_null h.known]
  rcases hcall with ⟨hcan, rfl⟩ | ⟨hkeys, rfl⟩
  · rw [binds_updateCall, hbound]
    exact and_iff_right (Mapping.tenant_mem_updateBound hcan h.field)
  · rw [binds_insertCall, hbound]
    exact and_iff_right (Mapping.tenant_mem_insertBound hl.child.sound hkeys h.field)

end

end Link

namespace LinkTree

/-- Where both records have tenants and the child's is not declared to be paired with anything but
the parent's, a parent row of a tenant has child rows of that tenant only. The statement by which
child rows are read, each by which one is saved, and that by which they are deleted bind the
parent row's tenant for the child's, and no other value; and if all child rows were saved, each is
of that tenant. Nothing depends on what the handle replies. -/
theorem tenant_bound {σ : Type} {d : LinkDeclaration} {m child : Mapping} {t : LinkTree}
    {j k : Journal} (hbuild : (Link.build d m child).Returns j t.link k)
    (hlinked : t.link.isLinked = true) (hm : m.schema.Valid) (hc : child.schema.Valid)
    {parentTenant childTenant : Field} (hparent : m.schema.tenantField = some parentTenant)
    (hchild : child.schema.tenantField = some childTenant)
    (hdeclared : ∀ e ∈ d.parentFields.zip d.childFields,
      e.2 = childTenant.name → e.1 = parentTenant.name)
    {w : Workspace} {parent : RowRef} (hlen : (w.row parent).length = m.schema.fields.length)
    {tenant : Value} (htenant : (w.row parent).getD parentTenant.index .null = tenant)
    (hknown : tenant.isNull = false) {rs : List RowRef} (hne : parent ∉ rs) (h : Handle σ) (s : σ) :
    (∃ call, (((t.read parent).start w).asked h s).head? = some call ∧
      ∀ v, call.Binds t.link.marked childTenant v ↔ v = tenant) ∧
    (∀ call ∈ ((t.save parent rs).start w).asked h s,
      ∀ v, call.Binds t.link.marked childTenant v ↔ v = tenant) ∧
    (t.isWritable = true → ∃ call, ((t.delete parent).start w).asked h s = [call] ∧
      ∀ v, call.Binds t.link.marked childTenant v ↔ v = tenant) ∧
    ∀ w', (((t.save parent rs).start w).run h s).1 = (.ok true, w') →
      ∀ r ∈ rs, (w'.row r).getD childTenant.index .null = tenant := by
  obtain ⟨hpaired, hpairs⟩ := Link.pairs_of_tenant hbuild hlinked hm.sound hc.sound hparent hchild
    hdeclared
  have hrecord : t.link.child = child := Link.child_of_build hbuild
  have hbuilt : t.link.Built m.schema :=
    ⟨hm, hrecord.symm ▸ hc, d, m, j, k, rfl, hrecord.symm ▸ hbuild⟩
  have hplaces := hbuilt.parent_lt hlen
  have hdown : t.link.HandsDown (w.row parent) childTenant tenant :=
    ⟨hrecord.symm ▸ hchild, hknown, hpaired, fun e he hcolumn => by
      rw [hpairs e he hcolumn, htenant]⟩
  refine ⟨?_, ?_, fun hwritable => ?_, ?_⟩
  · exact ⟨_, readCall_of_asked hlinked hplaces h s,
      fun v => (Link.binds_readCall hlinked).trans hdown.binds_pairs⟩
  · intro call hcall v
    exact hdown.binds_saveCall hbuilt (saveCall_of_asked hne h s call hcall)
  · exact ⟨_, deleteCall_of_asked hwritable hplaces h s,
      fun v => Link.binds_deleteCall.trans hdown.binds_pairs⟩
  · intro w' hrun r hr
    exact hdown.saved hbuilt (savedAs_of_run hne hrun r hr)

/-! ## The depots of some companies, and the crates in them -/

def depotDeclaration : RecordDeclaration where
  name := "depot"
  nameInDb := some "depots"
  useTimestampCheck := false
  operations := []
  fields := [
    RecordSchema.invoiceColumn "id" "id" .integer .primaryKey,
    RecordSchema.invoiceColumn "company" "company" .text .tenantKey,
    RecordSchema.invoiceColumn "owner" "owner" .text .requiredData]

def crateDeclaration : RecordDeclaration where
  name := "crate"
  nameInDb := some "crates"
  useTimestampCheck := false
  operations := []
  fields := [
    RecordSchema.invoiceColumn "depot" "depot" .integer .primaryKey,
    RecordSchema.invoiceColumn "number" "number" .integer .primaryKey,
    RecordSchema.invoiceColumn "company" "company" .text .tenantKey]

def depots : Mapping := ⟨RecordSchema.declared depotDeclaration, false, "CURRENT_TIMESTAMP"⟩

def crates : Mapping := ⟨RecordSchema.declared crateDeclaration, false, "CURRENT_TIMESTAMP"⟩

/-- The crates in a depot. Their company is not mentioned. -/
def cratesDeclaration : LinkDeclaration where
  name := "crates"
  parent := "depot"
  child := "crate"
  parentFields := ["id"]
  childFields := ["depot"]
  isMultiRow := true
  minRows := 0
  maxRows := 0
  errorMessageId := none

/-- The crates in a depot that are the owner's. -/
def ownedDeclaration : LinkDeclaration :=
  { cratesDeclaration with
    parentFields := ["id", "owner"]
    childFields := ["depot", "company"] }

def cratesLink : Link := ((Link.build cratesDeclaration depots crates).result? {}).getD default

def ownedLink : Link := ((Link.build ownedDeclaration depots crates).result? {}).getD default

/-- A depot of Ada's that Bob owns, and a crate. -/
def depotRows : Workspace where
  rows := [[.int 1, .text "Ada", .text "Bob"], [.null, .int 1, .null]]

theorem tenants_of_depots : ∃ p c, depots.schema.tenantField = some p ∧
    crates.schema.tenantField = some c ∧ p.index = 1 ∧ c.name = "company" ∧ p.name = "company" := by
  have hsome : depots.schema.tenantField.isSome = true ∧ crates.schema.tenantField.isSome = true := by
    decide +kernel
  obtain ⟨p, hp⟩ := Option.isSome_iff_exists.mp hsome.1
  obtain ⟨c, hc⟩ := Option.isSome_iff_exists.mp hsome.2
  have hplaces : depots.schema.tenantField.all (fun f => f.index == 1 && f.name == "company") = true ∧
      crates.schema.tenantField.all (fun f => f.name == "company") = true := by
    decide +kernel
  rw [hp, hc] at hplaces
  simp only [Option.all_some, Bool.and_eq_true, beq_iff_eq] at hplaces
  exact ⟨p, c, hp, hc, hplaces.1.1, hplaces.2, hplaces.1.2⟩

theorem tenant_bound_depot : ∃ c, crates.schema.tenantField = some c ∧
    (∀ call ∈ (((node cratesLink []).save 0 [1]).start depotRows).asked LinkedRecord.counting [],
      ∀ v, call.Binds cratesLink.marked c v ↔ v = .text "Ada") ∧
    ∃ call, (((node cratesLink []).delete 0).start depotRows).asked LinkedRecord.counting [] =
      [call] ∧ ∀ v, call.Binds cratesLink.marked c v ↔ v = .text "Ada" := by
  obtain ⟨p, c, hp, hc, hindex, hchild, hparent⟩ := tenants_of_depots
  obtain ⟨l, k, hl, hresult⟩ := Check.returns_of_result
    (c := Link.build cratesDeclaration depots crates) (j := {}) (by decide +kernel)
  obtain rfl : cratesLink = l := congrArg (Option.getD · default) hresult
  have hdeclared : ∀ e ∈ cratesDeclaration.parentFields.zip cratesDeclaration.childFields,
      e.2 = c.name → e.1 = p.name := by
    rw [hchild, hparent]
    decide
  have hlength : (depotRows.row 0).length = depots.schema.fields.length := by decide +kernel
  have htenant : (depotRows.row 0).getD p.index .null = .text "Ada" := by
    rw [hindex]
    rfl
  have hapart : 0 ∉ [1] := by decide
  obtain ⟨-, hsave, hdelete, -⟩ := tenant_bound (t := node cratesLink []) hl (by decide +kernel)
    (RecordSchema.valid_declared (by decide +kernel)) (RecordSchema.valid_declared (by decide +kernel))
    hp hc hdeclared hlength htenant rfl hapart LinkedRecord.counting []
  exact ⟨c, hc, hsave, hdelete (by decide +kernel)⟩

/-- The crates of a depot's owner are looked for and deleted with the owner for their company, which
is not that of the depot. -/
theorem owned_crates_of_others : ∃ p c, depots.schema.tenantField = some p ∧
    crates.schema.tenantField = some c ∧
    (depotRows.row 0).getD p.index .null = .text "Ada" ∧
    ∃ call, (((node ownedLink []).delete 0).start depotRows).asked LinkedRecord.counting [] =
      [call] ∧ ∀ v, call.Binds ownedLink.marked c v ↔ v = .text "Bob" := by
  obtain ⟨p, c, hp, hc, hindex, hchild, hparent⟩ := tenants_of_depots
  obtain ⟨hrecord, hbuilt⟩ : ownedLink.child = crates ∧ ownedLink.Built depots.schema :=
    Link.built_of_result (RecordSchema.valid_declared (by decide +kernel))
      (RecordSchema.valid_declared (by decide +kernel)) (by decide +kernel)
  have hlength : (depotRows.row 0).length = depots.schema.fields.length := by decide +kernel
  have hcall := deleteCall_of_asked (t := node ownedLink []) (by decide +kernel)
    (hbuilt.parent_lt hlength) LinkedRecord.counting []
  refine ⟨p, c, hp, hc, by rw [hindex]; rfl, _, hcall, fun v => Link.binds_deleteCall.trans ?_⟩
  have hpairs : ownedLink.pairs.map (fun e => (e.2.name, e.1.index)) =
      [("depot", 0), ("company", 2)] := by decide +kernel
  have hpair : ∀ x, (∃ e ∈ ownedLink.pairs, (e.2.name, e.1.index) = x) ↔
      x ∈ [("depot", 0), ("company", 2)] := fun x => by rw [← hpairs, List.mem_map]
  have hs := hbuilt.child.sound
  constructor
  · intro hbound
    obtain ⟨e, he, rfl, rfl⟩ := hbound
    have hplace := (hpair _).mp ⟨e, he, rfl⟩
    rw [hchild] at hplace
    obtain hplace : e.1.index = 2 := by simpa using hplace
    rw [hplace]
    rfl
  · intro hv
    obtain ⟨e, he, hplace⟩ := (hpair ("company", 2)).mpr (by simp)
    obtain ⟨hname, hplace⟩ := Prod.mk.inj hplace
    refine ⟨e, he, ?_, by rw [hplace, hv]; rfl⟩
    refine List.inj_on_of_nodup_map hs.names (hbuilt.sound.children _ (List.mem_map_of_mem he)) ?_
      (hname.trans hchild.symm)
    exact (hs.tenant_mem (hrecord.symm ▸ hc)).1

end LinkTree

end Tablewright
