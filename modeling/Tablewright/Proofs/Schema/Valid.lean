import Mathlib.Data.List.Forall2
import Tablewright.Proofs.Schema.Classification

/-! Schemas without faults. A fault that was noted is never taken back, so a schema that
has none had none after any of its fields. What its fields keep one by one then holds of
the whole record. -/

namespace Tablewright.RecordSchema

open Check

/-- The draft with other faults. -/
def Draft.withFaults (x : Draft) (faults : List SchemaFault) : Draft := { x with faults := faults }

@[simp] theorem Draft.faults_withFaults (x : Draft) (faults : List SchemaFault) :
    (x.withFaults faults).faults = faults := rfl

@[simp] theorem Draft.withFaults_withFaults (x : Draft) (faults more : List SchemaFault) :
    (x.withFaults faults).withFaults more = x.withFaults more := rfl

/-- Faults noted before have no part in what a field adds. -/
theorem Draft.add_withFaults (x : Draft) (faults : List SchemaFault) (f : Field) :
    (x.withFaults faults).add f = ((x.add f).1.withFaults faults, (x.add f).2) := by
  unfold Draft.add Draft.withFaults
  dsimp only
  split
  · rfl
  · split <;> rfl
  · split <;> rfl
  · split
    · split <;> rfl
    · rfl
  · rfl

theorem returns_fault {record : String} {x y : Draft} {faults : List SchemaFault} {j k : Journal}
    (h : (x.fault record faults).Returns j y k) : y = x.withFaults (x.faults ++ faults) := by
  simp only [Draft.fault, returns_bind, returns_pure] at h
  obtain ⟨_, _, _, rfl, _⟩ := h
  rfl

theorem returns_declare {record : String} {ds : List FieldDeclaration} {x y : Draft}
    {d : FieldDeclaration} {n : Nat} {j k : Journal}
    (h : (declare record ds x (d, n)).Returns j y k) :
    ∃ v, defaultOf d = .ok v ∧
      y = (x.add (fieldOf ds n d v)).1.withFaults
        (x.faults ++ columnFaults d ++ listFaults ds d ++ (x.add (fieldOf ds n d v)).2) := by
  simp only [declare, returns_bind, returns_known] at h
  obtain ⟨_, _, _, x₁, _, h₁, v, _, ⟨hv, rfl⟩, x₂, _, h₂, h₃⟩ := h
  have h₁ := returns_fault h₁
  have h₂ := returns_fault h₂
  have h₃ := returns_fault h₃
  subst h₁ h₂
  refine ⟨v, hv, ?_⟩
  simpa [Draft.add_withFaults] using h₃

theorem Draft.Takes.fields {x y : Draft} {f : Field} (h : x.Takes f y) :
    y.fields = x.fields ++ [f] := by
  cases h <;> rfl

/-- A declared field as the schema has it, without a fault of its own. -/
def Declares (ds : List FieldDeclaration) (d : FieldDeclaration × Nat) (f : Field) : Prop :=
  columnFaults d.1 = [] ∧ listFaults ds d.1 = [] ∧
    ∃ v, defaultOf d.1 = .ok v ∧ f = fieldOf ds d.2 d.1 v

/-- If no fault is left after some fields, there was none before them, and each of them was
taken without one. -/
theorem returns_declareAll {record : String} {ds : List FieldDeclaration}
    {l : List (FieldDeclaration × Nat)} {x y : Draft} {j k : Journal}
    (h : (l.foldlM (declare record ds) x).Returns j y k) (hy : y.faults = []) :
    x.faults = [] ∧ (x.Sorted → y.Sorted) ∧
      ∃ fs, y.fields = x.fields ++ fs ∧ List.Forall₂ (Declares ds) l fs := by
  induction l generalizing x j with
  | nil =>
    rw [List.foldlM_nil, returns_pure] at h
    obtain ⟨rfl, rfl⟩ := h
    exact ⟨hy, id, [], by simp, .nil⟩
  | cons d l ih =>
    rw [List.foldlM_cons, returns_bind] at h
    obtain ⟨z, _, hz, h⟩ := h
    obtain ⟨v, hv, rfl⟩ := returns_declare hz
    obtain ⟨hnone, hsorted, fs, hfs, hall⟩ := ih h
    simp only [Draft.faults_withFaults, List.append_eq_nil_iff] at hnone
    obtain ⟨⟨⟨hx, hcol⟩, hlist⟩, hadd⟩ := hnone
    obtain ⟨hname, htakes⟩ := Draft.add_takes hadd
    refine ⟨hx, ?_, fieldOf ds d.2 d.1 v :: fs, ?_, .cons ⟨hcol, hlist, v, hv, rfl⟩ hall⟩
    · intro hs
      have := hs.takes hname htakes
      exact hsorted ⟨this.names, this.keys, this.generated, this.alone, this.tenant, this.audit, this.audited⟩
    · rw [hfs, Draft.withFaults, htakes.fields, List.append_assoc, List.singleton_append]

theorem field_mem (s : RecordSchema) {name : String} {f : Field} (h : s.field? name = some f) :
    f ∈ s.fields := List.mem_reverse.mp (List.mem_of_find?_eq_some h)

theorem name_of_field {s : RecordSchema} {name : String} {f : Field}
    (h : s.field? name = some f) : f.name = name := by
  simpa using List.find?_some h

/-! ## Schemas without faults -/

/-- What holds of every schema that was built without a fault. -/
structure Sound (s : RecordSchema) : Prop where
  index_eq : ∀ (n : Nat) (f : Field), s.fields[n]? = some f → f.index = n
  names : (s.fields.map (·.name)).Nodup
  column_of_role : ∀ f ∈ s.fields, f.role.isSome = true → ∃ c, f.column = some c ∧ c ≠ ""
  keys : s.keyFields = s.fields.filter (·.role.any FieldRole.isKey)
  generated : ofRole .generatedPrimaryKey s.fields = s.generatedKey.toList
  alone : ∀ g, s.generatedKey = some g → s.keyFields = [g]
  tenant : ofRole .tenantKey s.fields = s.tenantField.toList
  audit : ∀ role, role.isAudit = true → ofRole role s.fields = (s.auditField? role).toList

/-- A schema that a declaration describes without a fault. -/
def Valid (s : RecordSchema) : Prop :=
  s.isValid = true ∧ ∃ d j k, (build d).Returns j s k

theorem returns_build {d : RecordDeclaration} {s : RecordSchema} {j k : Journal}
    (h : (build d).Returns j s k) :
    ∃ draft l, (d.fields.zipIdx.foldlM (declare d.name d.fields) {}).Returns j draft l ∧
      s.fields = draft.fields ∧ s.keyFields = draft.keyFields ∧
      s.generatedKey = draft.generatedKey ∧ s.tenantField = draft.tenantField ∧
      s.auditFields = draft.auditFields ∧ s.faults = draft.faults := by
  rw [build, returns_bind] at h
  obtain ⟨draft, l, hd, h⟩ := h
  simp only [returns_bind] at h
  obtain ⟨check, _, _, operations, _, _, h⟩ := h
  refine ⟨draft, l, hd, ?_⟩
  split at h
  all_goals
    simp only [returns_bind, returns_pure] at h
    obtain ⟨_, _, _, rfl, _⟩ := h
    exact ⟨rfl, rfl, rfl, rfl, rfl, rfl⟩

theorem sorted_empty : ({} : Draft).Sorted where
  names := List.nodup_nil
  keys := rfl
  generated := rfl
  alone := by rintro _ ⟨⟩
  tenant := rfl
  audit := fun _ _ => rfl
  audited := by rintro _ ⟨⟩

theorem Declares.column {ds : List FieldDeclaration} {d : FieldDeclaration × Nat} {f : Field}
    (h : Declares ds d f) (hr : f.role.isSome = true) : ∃ c, f.column = some c ∧ c ≠ "" := by
  obtain ⟨hc, _, v, _, rfl⟩ := h
  obtain ⟨role, hr⟩ := Option.isSome_iff_exists.mp hr
  have hrole : roleOf d.1 = some role := hr
  simp only [columnFaults, hrole] at hc
  split at hc
  · cases hc
  · rename_i hne
    cases hcol : d.1.columnName with
    | none => simp [hcol] at hne
    | some c => exact ⟨c, hcol, by simpa [hcol] using hne⟩

/-- The declaration that a field of the schema comes from. -/
theorem declared_at {ds : List FieldDeclaration} {l : List (FieldDeclaration × Nat)}
    {fs : List Field} (h : List.Forall₂ (Declares ds) l fs) {n : Nat} {f : Field}
    (hf : fs[n]? = some f) : ∃ d, l[n]? = some d ∧ Declares ds d f := by
  obtain ⟨hn, rfl⟩ := List.getElem?_eq_some_iff.mp hf
  have hl : n < l.length := by rw [h.length_eq]; exact hn
  exact ⟨l[n], List.getElem?_eq_getElem hl, h.get hl hn⟩

/-- The fields of a schema without a fault are the declared ones, none of which left a fault. -/
theorem Valid.declared_fields {s : RecordSchema} (h : s.Valid) :
    ∃ (d : RecordDeclaration) (draft : Draft), draft.Sorted ∧ s.fields = draft.fields ∧
      s.keyFields = draft.keyFields ∧ s.generatedKey = draft.generatedKey ∧
      s.tenantField = draft.tenantField ∧ s.auditFields = draft.auditFields ∧
      List.Forall₂ (Declares d.fields) d.fields.zipIdx s.fields := by
  obtain ⟨hv, d, j, k, hb⟩ := h
  obtain ⟨draft, l, hd, hfields, hkeys, hgen, hten, haud, hfaults⟩ := returns_build hb
  have hnone : draft.faults = [] := by rw [← hfaults]; exact List.isEmpty_iff.mp hv
  obtain ⟨_, hsorted, fs, hfs, hall⟩ := returns_declareAll hd hnone
  have hfs : s.fields = fs := by rw [hfields, hfs]; rfl
  exact ⟨d, draft, hsorted sorted_empty, hfields, hkeys, hgen, hten, haud, hfs ▸ hall⟩

/-- Each field of a schema without a fault was taken from its declaration without one. -/
theorem Valid.declares {s : RecordSchema} (h : s.Valid) : ∃ d : RecordDeclaration,
    d.fields.length = s.fields.length ∧ ∀ f ∈ s.fields, ∃ e, Declares d.fields e f := by
  obtain ⟨d, _, _, _, _, _, _, _, hall⟩ := h.declared_fields
  refine ⟨d, List.length_zipIdx ▸ hall.length_eq, fun f hf => ?_⟩
  obtain ⟨n, hn⟩ := List.getElem?_of_mem hf
  obtain ⟨e, -, hdeclares⟩ := declared_at hall hn
  exact ⟨e, hdeclares⟩

theorem Valid.sound {s : RecordSchema} (h : s.Valid) : s.Sound := by
  obtain ⟨d, draft, hsorted, hfields, hkeys, hgen, hten, haud, hall⟩ := h.declared_fields
  refine ⟨?_, ?_, ?_, ?_, ?_, ?_, ?_, ?_⟩
  · intro n f hf
    obtain ⟨e, he, _, _, v, _, rfl⟩ := declared_at hall hf
    rw [List.getElem?_zipIdx, Option.map_eq_some_iff] at he
    obtain ⟨_, _, rfl⟩ := he
    exact Nat.zero_add n
  · rw [hfields]; exact hsorted.names
  · intro f hf
    obtain ⟨n, hn⟩ := List.getElem?_of_mem hf
    obtain ⟨_, _, hdecl⟩ := declared_at hall hn
    exact hdecl.column
  · rw [hfields, hkeys]; exact hsorted.keys
  · rw [hfields, hgen]; exact hsorted.generated
  · rw [hgen, hkeys]; exact hsorted.alone
  · rw [hfields, hten]; exact hsorted.tenant
  · intro role hr
    rw [hfields, auditField?, haud]
    exact hsorted.audit role hr

namespace Sound

variable {s : RecordSchema} (h : s.Sound)
include h

/-- A field stands at its own place. -/
theorem at_index {f : Field} (hf : f ∈ s.fields) : s.fields[f.index]? = some f := by
  obtain ⟨n, hn⟩ := List.getElem?_of_mem hf
  rw [h.index_eq n f hn]
  exact hn

theorem index_lt {f : Field} (hf : f ∈ s.fields) : f.index < s.fields.length :=
  (List.getElem?_eq_some_iff.mp (h.at_index hf)).1

/-- The places of the fields are those of the row, from the first to the last. -/
theorem indexes : s.fields.map (·.index) = List.range s.fields.length := by
  refine List.ext_getElem? fun n => ?_
  rw [List.getElem?_map]
  cases hn : s.fields[n]? with
  | none =>
    have hle : s.fields.length ≤ n := List.getElem?_eq_none_iff.mp hn
    simp [hle]
  | some f =>
    have hlt : n < s.fields.length := (List.getElem?_eq_some_iff.mp hn).1
    simp [h.index_eq n f hn, List.getElem?_range hlt]

/-- Fields at different places are different fields. -/
theorem eq_of_index {f g : Field} (hf : f ∈ s.fields) (hg : g ∈ s.fields)
    (hi : f.index = g.index) : f = g := by
  have := h.at_index hf
  rw [hi, h.at_index hg] at this
  exact (Option.some.inj this).symm

/-- A field at the place of one of some fields is this one. -/
theorem mem_of_index {fs : List Field} (hfs : fs ⊆ s.fields) {f : Field} (hf : f ∈ s.fields)
    (hi : f.index ∈ fs.map (·.index)) : f ∈ fs := by
  obtain ⟨g, hg, hindex⟩ := List.mem_map.mp hi
  exact h.eq_of_index (hfs hg) hf hindex ▸ hg

theorem isColumn_of_role {f : Field} (hf : f ∈ s.fields) (hr : f.role.isSome = true) :
    f.isColumn = true := by
  obtain ⟨c, hc, _⟩ := h.column_of_role f hf hr
  simp [Field.isColumn, hc, hr]

theorem tenant_mem {t : Field} (ht : s.tenantField = some t) :
    t ∈ s.fields ∧ t.role = some .tenantKey := by
  have hm : t ∈ ofRole .tenantKey s.fields := by rw [h.tenant, ht]; simp
  simpa [ofRole] using List.mem_filter.mp hm

theorem key_mem {f : Field} (hf : f ∈ s.keyFields) :
    f ∈ s.fields ∧ f.role.any FieldRole.isKey = true := by
  rw [h.keys] at hf
  exact List.mem_filter.mp hf

theorem generated_mem {g : Field} (hg : s.generatedKey = some g) :
    g ∈ s.columnFields ∧ g.role = some .generatedPrimaryKey := by
  have hm : g ∈ ofRole .generatedPrimaryKey s.fields := by rw [h.generated, hg]; simp
  obtain ⟨hm, hr⟩ : g ∈ s.fields ∧ g.role = some .generatedPrimaryKey := by
    simpa [ofRole] using List.mem_filter.mp hm
  exact ⟨List.mem_filter.mpr ⟨hm, h.isColumn_of_role hm (by rw [hr]; rfl)⟩, hr⟩

theorem generated_field {g : Field} (hg : s.generatedKey = some g) : g ∈ s.fields :=
  (List.mem_filter.mp (h.generated_mem hg).1).1

theorem generated_lt {g : Field} (hg : s.generatedKey = some g) : g.index < s.fields.length :=
  h.index_lt (h.generated_field hg)

theorem generated_of_role {f : Field} (hf : f ∈ s.fields) (hr : f.role = some .generatedPrimaryKey) :
    s.generatedKey = some f := by
  have hm : f ∈ ofRole .generatedPrimaryKey s.fields := List.mem_filter.mpr ⟨hf, by simp [hr]⟩
  rw [h.generated] at hm
  exact Option.mem_toList.mp hm

theorem audit_mem {role : FieldRole} (hr : role.isAudit = true) {f : Field}
    (hf : s.auditField? role = some f) : f ∈ s.fields ∧ f.role = some role := by
  have hm : f ∈ ofRole role s.fields := by rw [h.audit role hr, hf]; simp
  simpa [ofRole] using List.mem_filter.mp hm

theorem identifying_mem {f : Field} (hf : f ∈ s.identifyingFields) :
    f ∈ s.columnFields := by
  have hf : f ∈ s.fields ∧ f.role.isSome = true := by
    rcases List.mem_append.mp hf with hk | ht
    · obtain ⟨hm, hr⟩ := h.key_mem hk
      exact ⟨hm, Option.isSome_of_any hr⟩
    · obtain ⟨hm, hr⟩ := h.tenant_mem (Option.mem_toList.mp ht)
      exact ⟨hm, by rw [hr]; rfl⟩
  exact List.mem_filter.mpr ⟨hf.1, h.isColumn_of_role hf.1 hf.2⟩

/-- A row of the right length can be told by its keys. -/
theorem emitKeys_of_length {row : Row} (hlen : row.length = s.fields.length) :
    ∃ text, s.emitKeys row = .ok text := by
  unfold emitKeys
  split
  · exact ⟨_, rfl⟩
  · have hparts : ∀ fs : List Field, (∀ f ∈ fs, f ∈ s.fields) → ∃ parts, (fs.mapM fun f =>
        (at? row f).map fun v => f.name ++ " = " ++ v.display) = .ok parts := by
      intro fs hfs
      induction fs with
      | nil => exact ⟨[], rfl⟩
      | cons f fs ih =>
        obtain ⟨hf, hfs⟩ := List.forall_mem_cons.mp hfs
        obtain ⟨parts, hparts⟩ := ih hfs
        rw [List.mapM_cons, hparts, at?, List.getElem?_eq_getElem (hlen ▸ h.index_lt hf)]
        exact ⟨_, rfl⟩
    obtain ⟨parts, hparts⟩ := hparts s.identifyingFields fun f hf =>
      (List.mem_filter.mp (h.identifying_mem hf)).1
    rw [hparts]
    exact ⟨_, rfl⟩

theorem timestamp_mem {f : Field} (hf : s.timestampField? = some f) :
    f ∈ s.columnFields ∧ f.role = some .modifiedAt := by
  have ha : s.auditField? .modifiedAt = some f := by
    unfold timestampField? at hf
    split at hf
    · exact hf
    · cases hf
  obtain ⟨hm, hr⟩ := h.audit_mem rfl ha
  exact ⟨List.mem_filter.mpr ⟨hm, h.isColumn_of_role hm (by rw [hr]; rfl)⟩, hr⟩

end Sound

/-- The schema that a declaration describes. -/
def declared (d : RecordDeclaration) : RecordSchema := ((build d).result? {}).getD default

theorem valid_declared {d : RecordDeclaration}
    (h : ((build d).result? {}).any RecordSchema.isValid = true) : (declared d).Valid := by
  obtain ⟨s, k, hs, hr⟩ := returns_of_result (c := build d) (j := {}) (Option.isSome_of_any h)
  rw [declared, hr, Option.getD_some]
  rw [hr, Option.any_some] at h
  exact ⟨h, d, {}, k, hs⟩

/-! ## A record with fields of every role but the generated key -/

def invoiceColumn (name column : String) (t : ValueType) (role : FieldRole) : FieldDeclaration :=
  { (default : FieldDeclaration) with
    name := name
    columnName := some column
    valueType := t
    role := some role }

/-- Invoices of several companies. The hint is not stored. -/
def invoiceDeclaration : RecordDeclaration where
  name := "invoice"
  nameInDb := some "invoice"
  useTimestampCheck := true
  operations := []
  fields := [
    invoiceColumn "number" "number" .integer .primaryKey,
    invoiceColumn "company" "company_id" .integer .tenantKey,
    invoiceColumn "customer" "customer" .text .requiredData,
    invoiceColumn "contact" "contact" .text .optionalData,
    invoiceColumn "total" "total" .decimal .requiredData,
    invoiceColumn "dueOn" "due_on" .date .optionalData,
    invoiceColumn "createdAt" "created_at" .timestamp .createdAt,
    invoiceColumn "createdBy" "created_by" .text .createdBy,
    invoiceColumn "modifiedAt" "modified_at" .timestamp .modifiedAt,
    invoiceColumn "modifiedBy" "modified_by" .text .modifiedBy,
    { (default : FieldDeclaration) with name := "hint" }]

def invoice : RecordSchema := ((build invoiceDeclaration).result? {}).getD default

theorem invoice_built : ∃ k, (build invoiceDeclaration).Returns {} invoice k := by
  obtain ⟨s, k, hs, hr⟩ := returns_of_result (c := build invoiceDeclaration) (j := {})
    (by decide +kernel)
  have : invoice = s := congrArg (Option.getD · default) hr
  exact ⟨k, this ▸ hs⟩

theorem invoice_valid : invoice.Valid :=
  ⟨by decide +kernel, invoiceDeclaration, {}, invoice_built⟩

end Tablewright.RecordSchema
