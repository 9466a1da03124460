import Tablewright.Proofs.Ending
import Tablewright.Proofs.Schema.Valid

/-! When a declaration has no faults. The fields are looked at one after the other, and what is
said of one depends on those before it. But as long as no fault was found, the role lists are
the fields of each role, so a field adds no fault exactly if the names and roles with its own fit
together. Whether names and roles fit together does not depend on their order. -/

namespace Tablewright

namespace RecordSchema

open Check

/-! ## Names and roles that fit together -/

/-- What is asked of the names and roles of a record, in whatever order they stand. -/
structure Fits (names : List String) (roles : List (Option FieldRole)) : Prop where
  names : names.Nodup
  generated : roles.count (some .generatedPrimaryKey) ≤ 1
  alone : some .generatedPrimaryKey ∈ roles → some .primaryKey ∉ roles
  tenant : roles.count (some .tenantKey) ≤ 1
  audit : ∀ role : FieldRole, role.isAudit = true → roles.count (some role) ≤ 1

theorem Fits.of_append {ns ms : List String} {rs ss : List (Option FieldRole)}
    (h : Fits (ns ++ ms) (rs ++ ss)) : Fits ns rs := by
  have hcount : ∀ role, rs.count role ≤ (rs ++ ss).count role := fun role =>
    (List.sublist_append_left rs ss).count_le role
  refine ⟨(List.nodup_append.mp h.names).1, Nat.le_trans (hcount _) h.generated, ?_,
    Nat.le_trans (hcount _) h.tenant, fun role ha => Nat.le_trans (hcount _) (h.audit role ha)⟩
  intro hg hk
  exact h.alone (List.mem_append_left ss hg) (List.mem_append_left ss hk)

/-- Nothing but how often the roles occur is asked for, data aside. -/
theorem Fits.of_count {ns : List String} {rs ss : List (Option FieldRole)} (h : Fits ns rs)
    (hc : ∀ role : FieldRole, role ≠ .optionalData → ss.count (some role) = rs.count (some role)) :
    Fits ns ss := by
  have hmem : ∀ role : FieldRole, role ≠ .optionalData → (some role ∈ ss ↔ some role ∈ rs) := by
    intro role hr
    rw [← List.count_pos_iff, ← List.count_pos_iff, hc role hr]
  refine ⟨h.names, ?_, ?_, ?_, ?_⟩
  · rw [hc _ (by decide)]
    exact h.generated
  · rw [hmem _ (by decide), hmem _ (by decide)]
    exact h.alone
  · rw [hc _ (by decide)]
    exact h.tenant
  · intro role ha
    have hr : role ≠ .optionalData := by
      intro hr
      rw [hr] at ha
      cases ha
    rw [hc role hr]
    exact h.audit role ha

theorem Fits.perm {ns ms : List String} {rs ss : List (Option FieldRole)} (h : Fits ns rs)
    (hn : ns.Perm ms) (hr : rs.Perm ss) : Fits ms ss :=
  { h.of_count fun _ _ => (hr.count_eq _).symm with names := hn.nodup_iff.mp h.names }

theorem count_role (role : FieldRole) (fields : List Field) :
    (fields.map (·.role)).count (some role) = (ofRole role fields).length := by
  rw [List.count, List.countP_map, List.countP_eq_length_filter]
  rfl

theorem mem_roles {role : FieldRole} {fields : List Field} :
    some role ∈ fields.map (·.role) ↔ ∃ f, f ∈ ofRole role fields := by
  simp [ofRole]

variable {x : Draft} {f : Field}

/-- What the role lists say fits together. -/
theorem Draft.Sorted.fits (h : x.Sorted) : Fits (x.fields.map (·.name)) (x.fields.map (·.role)) := by
  refine ⟨h.names, ?_, ?_, ?_, ?_⟩
  · rw [count_role, h.generated]
    exact Option.length_toList_le
  · intro hg hk
    obtain ⟨g, hg⟩ := mem_roles.mp hg
    obtain ⟨k, hk⟩ := mem_roles.mp hk
    simp only [ofRole, List.mem_filter, beq_iff_eq] at hk
    -- both are keys, and a generated key is the only one
    have hkey : k ∈ x.keyFields := by
      rw [h.keys]
      simp [hk, FieldRole.isKey]
    have hrole : g.role = some .generatedPrimaryKey := by
      simpa [ofRole] using (List.mem_filter.mp hg).2
    rw [h.generated, Option.mem_toList] at hg
    rw [h.alone g hg, List.mem_singleton] at hkey
    rw [← hkey, hk.2] at hrole
    cases hrole
  · rw [count_role, h.tenant]
    exact Option.length_toList_le
  · intro role ha
    rw [count_role, h.audit role ha]
    exact Option.length_toList_le

/-- A role that fits once is no role of the fields before the one that has it. -/
theorem ofRole_eq_nil {role : FieldRole} {fields : List Field}
    (h : ((fields ++ [f]).map (·.role)).count (some role) ≤ 1) (hr : f.role = some role) :
    ofRole role fields = [] := by
  rw [count_role, ofRole_concat, if_pos hr, List.length_append] at h
  exact List.length_eq_zero_iff.mp (Nat.le_zero.mp (Nat.le_of_succ_le_succ h))

theorem names_fresh {fields : List Field} (h : ((fields ++ [f]).map (·.name)).Nodup) :
    fields.any (·.name == f.name) = false := by
  rw [List.map_append, List.nodup_append] at h
  rw [List.any_eq_false]
  intro g hg he
  exact h.2.2 g.name (List.mem_map_of_mem hg) f.name (by simp) (by simpa using he)

theorem Draft.add_nil_of_fits (h : x.Sorted)
    (hf : Fits ((x.fields ++ [f]).map (·.name)) ((x.fields ++ [f]).map (·.role))) :
    (x.add f).2 = [] := by
  unfold Draft.add
  simp only [names_fresh hf.names, Bool.false_eq_true, if_false, List.nil_append]
  have hrole : ∀ role, f.role = some role → some role ∈ (x.fields ++ [f]).map (·.role) := by
    intro role hr
    simp [hr]
  split
  · rename_i hr
    -- a generated key before it would not fit
    cases hg : x.generatedKey with
    | none => rfl
    | some g =>
      have hmem : g ∈ ofRole .generatedPrimaryKey x.fields := by simp [h.generated, hg]
      have hgen := mem_roles.mpr ⟨g, hmem⟩
      exact absurd (hrole _ hr) (hf.alone (by rw [List.map_append]; exact List.mem_append_left _ hgen))
  · rename_i hr
    have hnone := ofRole_eq_nil hf.generated hr
    split
    · rename_i g hg
      simp [h.generated, hg] at hnone
    · rename_i key keys hg hkeys
      have hkey : key ∈ x.keyFields := by simp [hkeys]
      rw [h.keys, List.mem_filter] at hkey
      cases hkr : key.role with
      | none => simp [hkr] at hkey
      | some role =>
        have hmem : key ∈ ofRole role x.fields := List.mem_filter.mpr ⟨hkey.1, by simp [hkr]⟩
        have hin : some role ∈ (x.fields ++ [f]).map (·.role) := by
          rw [List.map_append]
          exact List.mem_append_left _ (mem_roles.mpr ⟨key, hmem⟩)
        cases role with
        | primaryKey => exact absurd hin (hf.alone (hrole _ hr))
        | generatedPrimaryKey => simp [hnone] at hmem
        | _ => simp [hkr, FieldRole.isKey] at hkey
    · rfl
  · rename_i hr
    have hnone := ofRole_eq_nil hf.tenant hr
    split
    · rename_i t ht
      simp [h.tenant, ht] at hnone
    · rfl
  · rename_i role hk hg ht hr
    by_cases ha : role.isAudit = true
    · have hnone := ofRole_eq_nil (hf.audit role ha) hr
      rw [if_pos ha]
      split
      · rename_i _ existing hfound
        simp [h.audit role ha, hfound] at hnone
      · rfl
    · rw [if_neg ha]
  · rfl

/-- A field adds no fault exactly if it fits to those before it. -/
theorem Draft.add_nil_iff (h : x.Sorted) : (x.add f).2 = [] ↔
    Fits ((x.fields ++ [f]).map (·.name)) ((x.fields ++ [f]).map (·.role)) := by
  constructor
  · intro hnil
    obtain ⟨hn, ht⟩ := Draft.add_takes hnil
    have hfits := (h.takes hn ht).fits
    rwa [ht.fields] at hfits
  · exact Draft.add_nil_of_fits h

/-- A field is taken into the row whatever its faults are. -/
theorem Draft.fields_add (x : Draft) (f : Field) : (x.add f).1.fields = x.fields ++ [f] := by
  unfold Draft.add
  dsimp only
  split
  · rfl
  · split <;> rfl
  · split <;> rfl
  · split
    · split <;> rfl
    · rfl
  · rfl

/-! ## One field after the other -/

/-- The default value of a field whose default can be read. -/
def defaultValue (d : FieldDeclaration) : Value := (defaultOf d).toOption.getD .null

/-- The draft with one more declared field and all faults that it has. -/
def Draft.next (ds : List FieldDeclaration) (x : Draft) (e : FieldDeclaration × Nat) : Draft :=
  let added := x.add (fieldOf ds e.2 e.1 (defaultValue e.1))
  added.1.withFaults (x.faults ++ columnFaults e.1 ++ listFaults ds e.1 ++ added.2)

/-- The draft of all fields. -/
def drafted (ds : List FieldDeclaration) : Draft := ds.zipIdx.foldl (Draft.next ds) {}

variable {ds : List FieldDeclaration} {d : FieldDeclaration} {record : String}

theorem ends_fault {faults : List SchemaFault} :
    (x.fault record faults).Ends (.ok (x.withFaults (x.faults ++ faults))) [] :=
  (ends_forM fun _ _ => ends_note).then ends_pure

theorem ends_warnOfMissingRole : (warnOfMissingRole d).Ends (.ok ()) [] := by
  unfold warnOfMissingRole
  split
  · exact ends_note
  · exact ends_pure

/-- A field is added to the draft, unless its default value cannot be read. -/
theorem endsUnless_declare {reason : Prop} {n : Nat} (h : Yields reason (defaultOf d)) :
    EndsUnless reason (declare record ds x (d, n)) (x.next ds (d, n)) [] := by
  have hend : ((((x.withFaults (x.faults ++ columnFaults d)).withFaults
      (x.faults ++ columnFaults d ++ listFaults ds d)).add
      (fieldOf ds n d (defaultValue d))).1.fault record
      (x.add (fieldOf ds n d (defaultValue d))).2).Ends _ [] := ends_fault
  rw [Draft.withFaults_withFaults, Draft.add_withFaults, Draft.withFaults_withFaults] at hend
  refine ends_warnOfMissingRole.unless.then (ends_fault.unless.then (h.endsUnless.then ?_))
  refine ends_fault.unless.then ?_
  simp only [Draft.withFaults_withFaults, Draft.add_withFaults]
  exact hend.unless

theorem ends_readOperations {texts : List String} {found : List Operation} :
    ∃ operations, (readOperations record texts found).Ends (.ok operations) [] := by
  induction texts generalizing found with
  | nil => exact ⟨found, ends_pure⟩
  | cons text texts ih =>
    unfold readOperations
    split
    · exact ih
    · exact ih.imp fun _ hrest => ends_note.then hrest

theorem ends_readTimestampCheck {d : RecordDeclaration} : (readTimestampCheck d x).Ends
    (.ok (d.useTimestampCheck && x.auditFields.any (·.1 == .modifiedAt))) [] := by
  unfold readTimestampCheck
  cases hu : d.useTimestampCheck with
  | false => exact ends_pure
  | true =>
    cases ha : x.auditFields.any (·.1 == .modifiedAt) with
    | true => exact ends_pure
    | false => exact ends_note.then ends_pure

/-- The schema that is made of a draft. -/
def ofDraft (d : RecordDeclaration) (operations : List Operation) (x : Draft) : RecordSchema where
  name := d.name
  nameInDb := d.nameInDb
  fields := x.fields
  keyFields := x.keyFields
  generatedKey := x.generatedKey
  tenantField := x.tenantField
  auditFields := x.auditFields
  useTimestampCheck := d.useTimestampCheck && x.auditFields.any (·.1 == .modifiedAt)
  operations := operations
  faults := x.faults

/-- Building a schema ends with one and reports nothing, unless a default value cannot be read. -/
theorem endsUnless_build {reason : Prop} {d : RecordDeclaration}
    (h : ∀ e ∈ d.fields, Yields reason (defaultOf e)) : ∃ operations,
    EndsUnless reason (build d) (ofDraft d operations (drafted d.fields)) [] := by
  obtain ⟨operations, hoperations⟩ : ∃ operations,
      (readOperations d.name d.operations []).Ends (.ok operations) [] := ends_readOperations
  refine ⟨operations, ?_⟩
  have hfields : EndsUnless reason (d.fields.zipIdx.foldlM (declare d.name d.fields) {})
      (drafted d.fields) [] :=
    endsUnless_foldlM_quiet fun y e he => endsUnless_declare (h e.1 (List.fst_mem_of_mem_zipIdx he))
  refine hfields.then (ends_readTimestampCheck.unless.then (hoperations.unless.then ?_))
  by_cases hf : (drafted d.fields).faults.isEmpty = true
  · rw [if_pos hf]
    exact ends_note.unless.then ends_pure.unless
  · rw [if_neg hf]
    exact ends_note.unless.then ends_pure.unless

/-- If all defaults can be read, it ends with one in any case. -/
theorem ends_build {d : RecordDeclaration} (h : ∀ e ∈ d.fields, ∃ v, defaultOf e = .ok v) :
    ∃ operations, (build d).Ends (.ok (ofDraft d operations (drafted d.fields))) [] := by
  have hyields : ∀ e ∈ d.fields, Yields False (defaultOf e) := fun e he => .inl (h e he)
  obtain ⟨operations, hends⟩ := endsUnless_build hyields
  exact ⟨operations, hends.ends id⟩

/-! ## Faults of a whole declaration -/

@[simp] theorem Draft.fields_next (x : Draft) (e : FieldDeclaration × Nat) :
    (x.next ds e).fields = x.fields ++ [fieldOf ds e.2 e.1 (defaultValue e.1)] :=
  Draft.fields_add ..

/-- What a field leaves without a fault is in order if everything before it was. -/
theorem Draft.next_nil_iff (hx : x.faults = [] → x.Sorted) (e : FieldDeclaration × Nat) :
    ((x.next ds e).faults = [] → (x.next ds e).Sorted) ∧
      ((x.next ds e).faults = [] ↔ x.faults = [] ∧ (columnFaults e.1 = [] ∧ listFaults ds e.1 = []) ∧
        Fits ((x.next ds e).fields.map (·.name)) ((x.next ds e).fields.map (·.role))) := by
  have hfaults : (x.next ds e).faults = [] ↔ ((x.faults = [] ∧ columnFaults e.1 = []) ∧
      listFaults ds e.1 = []) ∧ (x.add (fieldOf ds e.2 e.1 (defaultValue e.1))).2 = [] := by
    simp [next, and_assoc]
  refine ⟨fun h => ?_, ?_⟩
  · obtain ⟨⟨⟨hnone, -⟩, -⟩, hadd⟩ := hfaults.mp h
    obtain ⟨hn, ht⟩ := Draft.add_takes hadd
    have hsorted := (hx hnone).takes hn ht
    exact ⟨hsorted.names, hsorted.keys, hsorted.generated, hsorted.alone, hsorted.tenant,
      hsorted.audit, hsorted.audited⟩
  · rw [hfaults, Draft.fields_next]
    constructor
    · intro h
      obtain ⟨⟨⟨hnone, hc⟩, hl⟩, hadd⟩ := h
      exact ⟨hnone, ⟨hc, hl⟩, (Draft.add_nil_iff (hx hnone)).mp hadd⟩
    · intro h
      obtain ⟨hnone, ⟨hc, hl⟩, hfits⟩ := h
      exact ⟨⟨⟨hnone, hc⟩, hl⟩, (Draft.add_nil_iff (hx hnone)).mpr hfits⟩

/-- Fields one after the other leave no fault exactly if none has one of its own and all of them
fit together. -/
theorem faults_foldl {l : List (FieldDeclaration × Nat)} (hx : x.faults = [] → x.Sorted) :
    (l.foldl (Draft.next ds) x).faults = [] ↔ x.faults = [] ∧
      (∀ e ∈ l, columnFaults e.1 = [] ∧ listFaults ds e.1 = []) ∧
      (x.faults = [] → Fits (x.fields.map (·.name) ++ l.map (·.1.name))
        (x.fields.map (·.role) ++ l.map (roleOf ·.1))) := by
  induction l generalizing x with
  | nil =>
    simp only [List.foldl_nil, List.map_nil, List.append_nil]
    exact ⟨fun h => ⟨h, List.forall_mem_nil _, fun hnone => (hx hnone).fits⟩, fun h => h.1⟩
  | cons e l ih =>
    obtain ⟨hsorted, hnext⟩ : _ ∧ ((x.next ds e).faults = [] ↔ _) := Draft.next_nil_iff hx e
    have hnames : (x.next ds e).fields.map (·.name) ++ l.map (·.1.name) =
        x.fields.map (·.name) ++ (e :: l).map (·.1.name) := by simp [fieldOf]
    have hroles : (x.next ds e).fields.map (·.role) ++ l.map (roleOf ·.1) =
        x.fields.map (·.role) ++ (e :: l).map (roleOf ·.1) := by simp [fieldOf]
    rw [List.foldl_cons, ih hsorted, hnames, hroles, List.forall_mem_cons]
    constructor
    · intro h
      obtain ⟨hnone, hown, hfits⟩ := h
      obtain ⟨hx', he, -⟩ := hnext.mp hnone
      exact ⟨hx', ⟨he, hown⟩, fun _ => hfits hnone⟩
    · intro h
      obtain ⟨hnone, ⟨he, hown⟩, hfits⟩ := h
      -- what fits together with all later fields fits together without them
      have hfirst := hfits hnone
      rw [← hnames, ← hroles] at hfirst
      exact ⟨hnext.mpr ⟨hnone, he, hfirst.of_append⟩, hown, fun _ => hfits hnone⟩

/-- What is asked of the fields of a declaration, in whatever order they stand. -/
structure Consistent (ds : List FieldDeclaration) : Prop where
  fits : Fits (ds.map (·.name)) (ds.map (·.role))
  columns : ∀ d ∈ ds, d.role.isSome = true → ∃ c, d.columnName = some c ∧ c ≠ ""
  listKeys : ∀ d ∈ ds, ∀ key, d.listKey = some key →
    key ∈ ds.map (·.name) ∧ hasKeyedList d = true
  keyedLists : ∀ d ∈ ds, hasKeyedList d = true → d.listKey.isSome = true

theorem Consistent.perm {es : List FieldDeclaration} (h : Consistent ds) (hp : ds.Perm es) :
    Consistent es := by
  refine ⟨h.fits.perm (hp.map _) (hp.map _), ?_, ?_, ?_⟩
  · intro d hd
    exact h.columns d (hp.mem_iff.mpr hd)
  · intro d hd key hkey
    obtain ⟨hmem, hlist⟩ := h.listKeys d (hp.mem_iff.mpr hd) key hkey
    exact ⟨(hp.map _).mem_iff.mp hmem, hlist⟩
  · intro d hd
    exact h.keyedLists d (hp.mem_iff.mpr hd)

/-- The only role that is not declared is that of a column without one. -/
theorem roleOf_eq_iff {role : FieldRole} (h : role ≠ .optionalData) :
    roleOf d = some role ↔ d.role = some role := by
  unfold roleOf
  split
  · rename_i column hr hc
    rw [hr]
    split <;> simp [Ne.symm h]
  · rfl

theorem count_roleOf {role : FieldRole} (h : role ≠ .optionalData) :
    (ds.map roleOf).count (some role) = (ds.map (·.role)).count (some role) := by
  simp only [List.count, List.countP_map]
  refine List.countP_congr fun d _ => ?_
  simp [roleOf_eq_iff h]

theorem fits_roleOf_iff {names : List String} :
    Fits names (ds.map roleOf) ↔ Fits names (ds.map (·.role)) :=
  ⟨fun h => h.of_count fun _ hr => (count_roleOf hr).symm, fun h => h.of_count fun _ => count_roleOf⟩

theorem columnFaults_nil_iff :
    columnFaults d = [] ↔ (d.role.isSome = true → ∃ c, d.columnName = some c ∧ c ≠ "") := by
  unfold columnFaults roleOf
  cases d.role <;> cases hc : d.columnName <;> simp
  rename_i c
  by_cases h : c = "" <;> simp [h]

theorem map_zipIdx_fst {α : Type} (g : FieldDeclaration → α) :
    ds.zipIdx.map (fun e => g e.1) = ds.map g := by
  conv_rhs => rw [← List.zipIdx_map_fst 0 ds, List.map_map]
  rfl

theorem position?_some {name : String} {n : Nat} (h : position? ds name = some n) :
    ∃ d, ds[n]? = some d ∧ d.name = name := by
  obtain ⟨e, he, rfl⟩ := Option.map_eq_some_iff.mp h
  refine ⟨e.1, ?_, by simpa using List.find?_some he⟩
  exact List.mem_zipIdx_iff_getElem?.mp (List.mem_reverse.mp (List.mem_of_find?_eq_some he))

theorem position?_isNone_iff {name : String} :
    (position? ds name).isNone = true ↔ name ∉ ds.map (·.name) := by
  have hmem : name ∈ ds.map (·.name) ↔ ∃ e ∈ ds.zipIdx.reverse, e.1.name = name := by
    rw [← List.zipIdx_map_fst 0 ds, List.map_map]
    simp
  rw [hmem]
  simp [position?]

theorem listFaults_nil_iff : listFaults ds d = [] ↔
    (∀ key, d.listKey = some key → key ∈ ds.map (·.name) ∧ hasKeyedList d = true) ∧
      (hasKeyedList d = true → d.listKey.isSome = true) := by
  unfold listFaults
  cases d.listKey with
  | none => simp
  | some key =>
    by_cases hnone : (position? ds key).isNone = true
    · have hmem := position?_isNone_iff.mp hnone
      simp only [if_pos hnone, Option.some.injEq, forall_eq', hmem]
      simp
    · have hmem : key ∈ ds.map (·.name) := by
        by_contra h
        exact hnone (position?_isNone_iff.mpr h)
      simp only [if_neg hnone, Option.some.injEq, forall_eq', hmem]
      simp

/-- The faults of a declaration do not depend on the order of its fields. -/
theorem faults_drafted_iff : (drafted ds).faults = [] ↔ Consistent ds := by
  have hnames : ds.zipIdx.map (·.1.name) = ds.map (·.name) := map_zipIdx_fst (·.name)
  have hroles : ds.zipIdx.map (roleOf ·.1) = ds.map roleOf := map_zipIdx_fst roleOf
  have hown : (∀ e ∈ ds.zipIdx, columnFaults e.1 = [] ∧ listFaults ds e.1 = []) ↔
      ∀ d ∈ ds, columnFaults d = [] ∧ listFaults ds d = [] := by
    have h := List.forall_mem_map (f := Prod.fst) (l := ds.zipIdx)
      (P := fun d => columnFaults d = [] ∧ listFaults ds d = [])
    rw [List.zipIdx_map_fst] at h
    exact h.symm
  rw [drafted, faults_foldl fun _ => sorted_empty, hown, hnames, hroles]
  simp only [true_and, forall_const, List.map_nil, List.nil_append]
  rw [fits_roleOf_iff]
  constructor
  · intro h
    obtain ⟨hown, hfits⟩ := h
    exact ⟨hfits, fun d hd => columnFaults_nil_iff.mp (hown d hd).1,
      fun d hd => (listFaults_nil_iff.mp (hown d hd).2).1,
      fun d hd => (listFaults_nil_iff.mp (hown d hd).2).2⟩
  · intro h
    exact ⟨fun d hd => ⟨columnFaults_nil_iff.mpr (h.columns d hd),
      listFaults_nil_iff.mpr ⟨h.listKeys d hd, h.keyedLists d hd⟩⟩, h.fits⟩

/-! ## Schemas of declarations -/

theorem auditFields_foldl {l : List (FieldDeclaration × Nat)}
    (hx : ∀ e ∈ x.auditFields, e.1.isAudit = true) :
    ∀ e ∈ (l.foldl (Draft.next ds) x).auditFields, e.1.isAudit = true := by
  induction l generalizing x with
  | nil => exact hx
  | cons e l ih =>
    refine ih fun entry hentry => ?_
    have hadd : entry ∈ (x.add (fieldOf ds e.2 e.1 (defaultValue e.1))).1.auditFields := hentry
    unfold Draft.add at hadd
    dsimp only at hadd
    split at hadd
    · exact hx entry hadd
    · split at hadd <;> exact hx entry hadd
    · split at hadd <;> exact hx entry hadd
    · split at hadd
      · rename_i ha
        split at hadd
        · exact hx entry hadd
        · rcases List.mem_append.mp hadd with hold | hnew
          · exact hx entry hold
          · rw [List.mem_singleton.mp hnew]
            exact ha
      · exact hx entry hadd
    · exact hx entry hadd

/-- What a schema without faults says of the fields that were declared. -/
structure Classifies (s : RecordSchema) (d : RecordDeclaration) : Prop where
  names : s.fields.map (·.name) = d.fields.map (·.name)
  roles : s.fields.map (·.role) = d.fields.map roleOf
  places : s.fields.map (·.index) = List.range d.fields.length
  keys : s.keyFields = s.fields.filter (·.role.any FieldRole.isKey)
  generated : s.generatedKey.toList = ofRole .generatedPrimaryKey s.fields
  tenant : s.tenantField.toList = ofRole .tenantKey s.fields
  audit : ∀ role, (s.auditField? role).toList = if role.isAudit then ofRole role s.fields else []
  listKeys : ∀ (n : Nat) (e : FieldDeclaration) (f : Field), d.fields[n]? = some e →
    s.fields[n]? = some f → (e.listKey = none → f.listKey = none) ∧
      ∀ key, e.listKey = some key → ∃ g ∈ s.fields, g.name = key ∧ f.listKey = some g.index
  timestamp : s.timestampField?.toList =
    if d.useTimestampCheck then ofRole .modifiedAt s.fields else []

theorem fields_drafted (ds : List FieldDeclaration) : (drafted ds).fields =
    ds.zipIdx.map fun e => fieldOf ds e.2 e.1 (defaultValue e.1) := by
  have h : ∀ (l : List (FieldDeclaration × Nat)) (x : Draft), (l.foldl (Draft.next ds) x).fields =
      x.fields ++ l.map fun e => fieldOf ds e.2 e.1 (defaultValue e.1) := by
    intro l
    induction l with
    | nil => simp
    | cons e l ih =>
      intro x
      rw [List.foldl_cons, ih, Draft.fields_next]
      simp
  exact h ds.zipIdx {}

theorem auditField?_toList {s : RecordSchema} (hs : s.Sound)
    (haudit : ∀ e ∈ s.auditFields, e.1.isAudit = true) (role : FieldRole) :
    (s.auditField? role).toList = if role.isAudit then ofRole role s.fields else [] := by
  by_cases ha : role.isAudit = true
  · rw [if_pos ha, hs.audit role ha]
  · rw [if_neg ha, auditField?]
    have hnone : s.auditFields.find? (·.1 == role) = none := by
      rw [List.find?_eq_none]
      intro e he h
      rw [← beq_iff_eq.mp h] at ha
      exact ha (haudit e he)
    rw [hnone]
    rfl

/-- A list key that stands with a keyed list selects the place of the field that it names, before
or behind. -/
theorem listKeyOf_consistent (h : Consistent ds) (hd : d ∈ ds) {key : String}
    (hkey : d.listKey = some key) :
    ∃ n e, listKeyOf ds d = some n ∧ ds[n]? = some e ∧ e.name = key := by
  obtain ⟨hmem, hlist⟩ := h.listKeys d hd key hkey
  have hplace : listKeyOf ds d = position? ds key := by
    rw [listKeyOf, if_pos hlist, hkey, Option.bind_some]
  cases hp : position? ds key with
  | none => exact absurd hmem (position?_isNone_iff.mp (by rw [hp]; rfl))
  | some n =>
    obtain ⟨e, he, hname⟩ := position?_some hp
    exact ⟨n, e, hplace.trans hp, he, hname⟩

theorem classifies_of_sound {d : RecordDeclaration} {operations : List Operation}
    (hs : (ofDraft d operations (drafted d.fields)).Sound) (hc : Consistent d.fields) :
    (ofDraft d operations (drafted d.fields)).Classifies d := by
  have hfields : (ofDraft d operations (drafted d.fields)).fields =
      d.fields.zipIdx.map fun e => fieldOf d.fields e.2 e.1 (defaultValue e.1) :=
    fields_drafted d.fields
  have haudit := auditField?_toList hs (auditFields_foldl (x := {}) (by simp))
  refine ⟨?_, ?_, ?_, hs.keys, hs.generated.symm, hs.tenant.symm, haudit, ?_, ?_⟩
  · rw [hfields, List.map_map]
    exact map_zipIdx_fst (·.name)
  · rw [hfields, List.map_map]
    exact map_zipIdx_fst roleOf
  · rw [hfields, List.map_map, List.range_eq_range']
    exact List.zipIdx_map_snd 0 d.fields
  · intro n e f he hf
    have hfield : ∀ (m : Nat) (e' : FieldDeclaration), d.fields[m]? = some e' →
        (ofDraft d operations (drafted d.fields)).fields[m]? =
          some (fieldOf d.fields m e' (defaultValue e')) := by
      intro m e' he'
      rw [hfields, List.getElem?_map, List.getElem?_zipIdx, he']
      simp
    rw [hfield n e he, Option.some.injEq] at hf
    subst hf
    constructor
    · intro hnone
      show listKeyOf d.fields e = none
      simp [listKeyOf, hnone]
    · intro key hkey
      obtain ⟨m, e', hm, he', hname⟩ := listKeyOf_consistent hc (List.mem_of_getElem? he) hkey
      exact ⟨_, List.mem_of_getElem? (hfield m e' he'), hname, hm⟩
  · have hstamp : _ = ofRole .modifiedAt _ := haudit .modifiedAt
    rw [← hstamp, timestampField?]
    show (if (d.useTimestampCheck && (drafted d.fields).auditFields.any (·.1 == .modifiedAt)) = true
      then _ else none : Option Field).toList = _
    cases d.useTimestampCheck with
    | false => rfl
    | true =>
      cases hany : (drafted d.fields).auditFields.any (·.1 == .modifiedAt) with
      | true => rfl
      | false =>
        have hnone : (drafted d.fields).auditFields.find? (·.1 == .modifiedAt) = none := by
          simpa using hany
        simp [auditField?, ofDraft, hnone]

theorem isValid_ofDraft_iff {d : RecordDeclaration} {operations : List Operation} :
    (ofDraft d operations (drafted d.fields)).isValid = true ↔ Consistent d.fields := by
  rw [← faults_drafted_iff]
  exact List.isEmpty_iff

/-- Building a schema classifies the fields exactly. If no default value is a text that fails to be
read, it ends with a schema, which is valid just if the fields are consistent, in whatever order
they stand; and a valid schema says of every field what was declared of it. -/
theorem build_classifies {d : RecordDeclaration} (h : ∀ e ∈ d.fields, ∃ v, defaultOf e = .ok v) :
    ∃ s, (∀ j, ∃ k, (build d).Returns j s k) ∧ (s.isValid = true ↔ Consistent d.fields) ∧
      (∀ d' : RecordDeclaration, d'.fields.Perm d.fields →
        ∃ s', (∀ j, ∃ k, (build d').Returns j s' k) ∧ s'.isValid = s.isValid) ∧
      (s.isValid = true → s.Classifies d) := by
  have hbuilt : ∀ d' : RecordDeclaration, d'.fields.Perm d.fields → ∃ operations,
      ∀ j, ∃ k, (build d').Returns j (ofDraft d' operations (drafted d'.fields)) k := by
    intro d' hp
    obtain ⟨operations, hends⟩ := ends_build fun e he => h e (hp.mem_iff.mp he)
    refine ⟨operations, fun j => ?_⟩
    obtain ⟨k, hk, -⟩ := hends.returns j
    exact ⟨k, hk⟩
  obtain ⟨operations, hreturns⟩ := hbuilt d (.refl _)
  refine ⟨_, hreturns, isValid_ofDraft_iff, fun d' hp => ?_, fun hvalid => ?_⟩
  · obtain ⟨operations', hreturns'⟩ := hbuilt d' hp
    refine ⟨_, hreturns', ?_⟩
    rw [Bool.eq_iff_iff, isValid_ofDraft_iff, isValid_ofDraft_iff]
    exact ⟨fun hc => hc.perm hp, fun hc => hc.perm hp.symm⟩
  · obtain ⟨k, hk⟩ := hreturns {}
    have hs : Valid _ := ⟨hvalid, d, {}, k, hk⟩
    exact classifies_of_sound hs.sound (isValid_ofDraft_iff.mp hvalid)

/-! ## Parcels, whose district is one of a state that is declared behind it -/

def districts : ValueList := ⟨"districts", [], [("KA", ["BLR", "MYS"]), ("TN", ["MAA"])]⟩

def parcelDeclaration : RecordDeclaration where
  name := "parcel"
  nameInDb := some "parcels"
  useTimestampCheck := true
  operations := ["get", "ship"]
  fields := [
    { invoiceColumn "district" "district" .text .requiredData with
      valueList := some districts
      listKey := some "state" },
    invoiceColumn "id" "id" .integer .generatedPrimaryKey,
    { invoiceColumn "count" "count" .integer .optionalData with defaultValue := some "1.5" },
    invoiceColumn "modifiedAt" "modified_at" .timestamp .modifiedAt,
    invoiceColumn "company" "company_id" .integer .tenantKey,
    invoiceColumn "state" "state" .text .requiredData]

theorem build_classifies_parcel : (∀ e ∈ parcelDeclaration.fields, ∃ v, defaultOf e = .ok v) ∧
    Consistent parcelDeclaration.fields ∧ ∃ s, (∀ j, ∃ k, (build parcelDeclaration).Returns j s k) ∧
      s.Classifies parcelDeclaration := by
  have hdefaults : ∀ e ∈ parcelDeclaration.fields, ∃ v, defaultOf e = .ok v := by
    have hread : ∀ e ∈ parcelDeclaration.fields, (defaultOf e).toOption.isSome = true := by decide +kernel
    intro e he
    cases hv : defaultOf e with
    | ok v => exact ⟨v, rfl⟩
    | error failure =>
      have hsome := hread e he
      rw [hv] at hsome
      cases hsome
  have hconsistent : Consistent parcelDeclaration.fields := faults_drafted_iff.mp (by decide +kernel)
  obtain ⟨s, hreturns, hvalid, -, hclassifies⟩ := build_classifies hdefaults
  exact ⟨hdefaults, hconsistent, s, hreturns, hclassifies (hvalid.mpr hconsistent)⟩

end RecordSchema

end Tablewright
