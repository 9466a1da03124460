import Mathlib.Data.List.Nodup
import Mathlib.Data.List.Perm.Subperm
import Tablewright.Proofs.Mapping.Sentences
import Tablewright.Proofs.Schema.Building

/-! Where in a row the parameters of a mapping's statements are. The places of a selection of
the record's fields rise, and no place stands for two fields. Only the places of an update are
put together, from what it sets, from the identity and from the stamp; these are fields of
different roles, so no place comes up twice there either. -/

namespace Tablewright

namespace RecordSchema

open Check

variable {s : RecordSchema}

/-- The check on the stamp is in force only if there is a field that holds it. -/
theorem Valid.timestamp_of_check (h : s.Valid) (hc : s.useTimestampCheck = true) :
    ∃ f, s.timestampField? = some f := by
  obtain ⟨-, d, j, k, hb⟩ := h
  have haudit : s.auditFields.any (·.1 == .modifiedAt) = true := by
    rw [build, returns_bind] at hb
    obtain ⟨draft, _, -, hb⟩ := hb
    simp only [returns_bind] at hb
    obtain ⟨check, _, hcheck, _, _, _, hb⟩ := hb
    have hs : s.useTimestampCheck = check ∧ s.auditFields = draft.auditFields := by
      split at hb
      all_goals
        simp only [returns_bind, returns_pure] at hb
        obtain ⟨_, _, _, rfl, _⟩ := hb
        exact ⟨rfl, rfl⟩
    rw [hs.1, (ends_readTimestampCheck.eq_of_returns hcheck).1] at hc
    rw [hs.2]
    exact (Bool.and_eq_true_iff.mp hc).2
  obtain ⟨e, he⟩ := Option.isSome_iff_exists.mp (List.find?_isSome.mpr (List.any_eq_true.mp haudit))
  exact ⟨e.2, by rw [timestampField?, if_pos hc, auditField?, he]; rfl⟩

end RecordSchema

namespace Mapping

open Check

variable {m : Mapping} {f : Field}

/-- Whether a field holds data of a row that an update takes from the row at hand. -/
def IsData (f : Field) : Prop :=
  f.role = some .modifiedBy ∨ f.role = some .requiredData ∨ f.role = some .optionalData

instance (f : Field) : Decidable (IsData f) := inferInstanceAs (Decidable (_ ∨ _))

/-- The places rise, and are those of the record's columns of some kind. -/
structure RisesThrough (m : Mapping) (kind : Field → Prop) (ps : List Nat) : Prop where
  rises : ps.Pairwise (· < ·)
  mem_iff : ∀ p, p ∈ ps ↔ ∃ f, m.schema.fields[p]? = some f ∧ f.isColumn = true ∧ kind f

/-- The places stand for values of the row, each for another one. -/
structure Within (m : Mapping) (ps : List Nat) : Prop where
  once : ps.Nodup
  lt : ∀ p ∈ ps, p < m.schema.fields.length
  length_le : ps.length ≤ m.schema.fields.length

/-- The places of each statement's parameters, said by the roles of the fields alone. -/
structure ExactPositions (m : Mapping) : Prop where
  within : ∀ fs ∈ [m.selectFields, m.whereFields, m.insertBound, m.updateBound],
    m.Within (places fs)
  select : m.RisesThrough (fun _ => True) (places m.selectFields)
  identity : places m.whereFields = places m.schema.keyFields ++ places m.schema.tenantField.toList
  insert : m.RisesThrough (fun f => f.role ≠ some .generatedPrimaryKey ∧ ¬ IsStamp f)
    (places m.insertBound)
  update : m.updateBound ≠ [] → ∃ data stamp, m.RisesThrough IsData data ∧
    places m.updateBound = data ++ places m.whereFields ++ stamp ∧
    (m.schema.useTimestampCheck = false → stamp = []) ∧
    (m.schema.useTimestampCheck = true → ∃ f : Field, m.schema.fields[f.index]? = some f ∧
      f.role = some .modifiedAt ∧ stamp = [f.index])
  noUpdate : m.updateBound = [] ↔
    ∀ f ∈ m.schema.fields, f.isColumn = true → ¬ (IsData f ∨ f.role = some .modifiedAt)
  spared : ∀ f ∈ m.updateFields, f ∈ m.schema.fields ∧ ¬ IsKept f

/-! ## Selections of fields -/

theorem risesThrough_filter (hs : m.schema.Sound) {kind : Field → Prop} {test : Field → Bool}
    (h : ∀ f, test f = true ↔ kind f) :
    m.RisesThrough kind (places (m.schema.columnFields.filter test)) where
  rises := by
    have hall : (m.schema.fields.map (·.index)).Pairwise (· < ·) :=
      hs.indexes ▸ List.pairwise_lt_range
    exact hall.sublist ((List.filter_sublist.trans List.filter_sublist).map _)
  mem_iff p := by
    constructor
    · intro hp
      obtain ⟨f, hf, rfl⟩ := List.mem_map.mp hp
      obtain ⟨hf, htest⟩ := List.mem_filter.mp hf
      obtain ⟨hf, hcolumn⟩ := List.mem_filter.mp hf
      exact ⟨f, hs.at_index hf, hcolumn, (h f).mp htest⟩
    · rintro ⟨f, hf, hcolumn, hkind⟩
      obtain rfl := hs.index_eq p f hf
      have hmem := List.mem_filter.mpr ⟨List.mem_of_getElem? hf, hcolumn⟩
      exact List.mem_map_of_mem (List.mem_filter.mpr ⟨hmem, (h f).mpr hkind⟩)

/-- Fields of the record have places of their own. -/
theorem within_of_nodup (hs : m.schema.Sound) {fs : List Field}
    (hfs : ∀ f ∈ fs, f ∈ m.schema.fields) (h : fs.Nodup) : m.Within (places fs) := by
  have honce : (places fs).Nodup :=
    h.map_on fun f hf g hg hi => hs.eq_of_index (hfs f hf) (hfs g hg) hi
  have hlt : ∀ p ∈ places fs, p < m.schema.fields.length :=
    List.forall_mem_map.mpr fun f hf => hs.index_lt (hfs f hf)
  refine ⟨honce, hlt, ?_⟩
  have hsub : places fs ⊆ List.range m.schema.fields.length :=
    fun p hp => List.mem_range.mpr (hlt p hp)
  simpa using (honce.subperm hsub).length_le

/-! ## Roles of the parts -/

theorem nodup_fields (hs : m.schema.Sound) : m.schema.fields.Nodup :=
  List.Nodup.of_map _ (indexes_nodup hs)

/-- What a row is found by are keys and the tenant. -/
theorem role_of_where (hs : m.schema.Sound) (hf : f ∈ m.whereFields) :
    f.role.any FieldRole.isKey = true ∨ f.role = some .tenantKey := by
  unfold whereFields at hf
  split at hf
  · exact (List.mem_append.mp hf).imp (fun hk => (hs.key_mem hk).2)
      fun ht => (hs.tenant_mem (Option.mem_toList.mp ht)).2
  · cases hf

theorem nodup_whereFields (hs : m.schema.Sound) : m.whereFields.Nodup := by
  unfold whereFields
  split
  · refine List.Nodup.append ?_ (Option.toList_nodup _) ?_
    · rw [hs.keys]
      exact (nodup_fields hs).filter _
    · intro f hk ht
      have hkey := (hs.key_mem hk).2
      rw [(hs.tenant_mem (Option.mem_toList.mp ht)).2] at hkey
      cases hkey
  · exact List.nodup_nil

/-- What an update sets, what it finds the row by and the stamp are of different roles. -/
theorem nodup_updateBound (hs : m.schema.Sound) : m.updateBound.Nodup := by
  unfold updateBound
  split
  · rw [updateBoundFields_eq, updateConditions]
    refine List.Nodup.append ((nodup_fields hs).filter _ |>.filter _) ?_ ?_
    · refine List.Nodup.append (nodup_whereFields hs) (Option.toList_nodup _) ?_
      intro f hw ht
      have hrole := (hs.timestamp_mem (Option.mem_toList.mp ht)).2
      rcases role_of_where hs hw with hkey | htenant
      · rw [hrole] at hkey
        cases hkey
      · cases htenant.symm.trans hrole
    · intro f hset hf
      have hdata : IsData f := of_decide_eq_true (List.mem_filter.mp hset).2
      have hother : f.role.any FieldRole.isKey = true ∨ f.role = some .tenantKey ∨
          f.role = some .modifiedAt := by
        rcases List.mem_append.mp hf with hw | ht
        · exact (role_of_where hs hw).imp_right .inl
        · exact .inr (.inr (hs.timestamp_mem (Option.mem_toList.mp ht)).2)
      rcases hdata with hr | hr | hr <;> simp [hr, FieldRole.isKey] at hother
  · exact List.nodup_nil

theorem isUpdated_iff : f.role.any FieldRole.isUpdated = true ↔
    IsData f ∨ f.role = some .modifiedAt := by
  unfold IsData
  cases hr : f.role with
  | none => simp
  | some role => cases role <;> simp [FieldRole.isUpdated]

theorem updateBound_eq_nil_iff (hk : m.hasKeys = true) : m.updateBound = [] ↔
    ∀ f ∈ m.schema.fields, f.isColumn = true → ¬ (IsData f ∨ f.role = some .modifiedAt) := by
  have hnone : m.updateFields = [] ↔
      ∀ f ∈ m.schema.fields, f.isColumn = true → ¬ (IsData f ∨ f.role = some .modifiedAt) := by
    simp only [updateFields, RecordSchema.columnFields, List.filter_eq_nil_iff, List.mem_filter,
      isUpdated_iff, and_imp]
  rw [← hnone]
  constructor
  · intro hempty
    by_contra hne
    have hcan : m.canUpdate = true := by simp [canUpdate, hk, hne]
    rw [updateBound_eq hcan] at hempty
    have hkeys : m.schema.keyFields = [] := by simp_all
    simp [hasKeys, hkeys] at hk
  · intro hempty
    simp [updateBound, canUpdate, hempty]

/-- The places of an update: what it sets, the identity, and the stamp if it is looked at. -/
theorem updateBound_places (hs : m.schema.Valid) (hne : m.updateBound ≠ []) :
    ∃ data stamp, m.RisesThrough IsData data ∧
      places m.updateBound = data ++ places m.whereFields ++ stamp ∧
      (m.schema.useTimestampCheck = false → stamp = []) ∧
      (m.schema.useTimestampCheck = true → ∃ f : Field, m.schema.fields[f.index]? = some f ∧
        f.role = some .modifiedAt ∧ stamp = [f.index]) := by
  refine ⟨places (setFields m.schema), places m.schema.timestampField?.toList,
    risesThrough_filter hs.sound fun f => decide_eq_true_iff, ?_, fun hoff => ?_, fun hon => ?_⟩
  · have hcan : m.canUpdate = true := by
      by_contra hcan
      exact hne (if_neg hcan)
    rw [updateBound, if_pos hcan, updateBoundFields_eq, updateConditions, ← List.append_assoc]
    simp only [places, List.map_append]
  · have hnone : m.schema.timestampField? = none := by simp [RecordSchema.timestampField?, hoff]
    rw [hnone]
    rfl
  · obtain ⟨f, hf⟩ := hs.timestamp_of_check hon
    obtain ⟨hcolumn, hrole⟩ := hs.sound.timestamp_mem hf
    refine ⟨f, hs.sound.at_index (List.mem_filter.mp hcolumn).1, hrole, ?_⟩
    rw [hf]
    rfl

/-! ## All statements of a mapping -/

/-- The parameters of each statement are at exactly the places that the roles of the fields give
them. No place comes up twice for one statement, so none has more parameters than the row has
values, and no update sets a key, the tenant or a mark of creation. -/
theorem positions_exact {d : RecordDeclaration} {s : RecordSchema} {settings : Settings}
    {nullAsZero : Option Bool} {clock : Option String} {m : Mapping} {j k j' k' : Journal}
    (hs : (RecordSchema.build d).Returns j s k)
    (hm : (build settings nullAsZero clock s).Returns j' m k') (hkeys : s.keyFields ≠ []) :
    m.ExactPositions := by
  obtain ⟨rfl, hv, -⟩ := returns_build hm
  have hvalid : m.schema.Valid := ⟨hv, d, j, k, hs⟩
  have hsound := hvalid.sound
  have hk : m.hasKeys = true := by simp [hasKeys, hkeys]
  have hinsert : m.insertBound = m.schema.columnFields.filter
      fun f => decide (f.role ≠ some .generatedPrimaryKey ∧ ¬ IsStamp f) := by
    rw [insertBound_eq hk, insertedFields, List.filter_filter]
    exact List.filter_congr fun f _ => by simp [Bool.and_comm]
  have hfields : ∀ f ∈ m.updateBound, f ∈ m.schema.fields := by
    refine columns_subset fun f hf => ?_
    unfold updateBound at hf
    split at hf
    · rw [updateBoundFields_eq] at hf
      exact (List.mem_append.mp hf).elim (setFields_columns f) (updateConditions_columns hsound f)
    · cases hf
  refine ⟨?_, ?_, ?_, ?_, updateBound_places hvalid, updateBound_eq_nil_iff hk, ?_⟩
  · have hcolumns : m.schema.columnFields.Nodup := (nodup_fields hsound).filter _
    simp only [List.forall_mem_cons, List.not_mem_nil, false_implies, implies_true, and_true]
    refine ⟨?_, ?_, ?_, ?_⟩
    · exact within_of_nodup hsound (columns_subset fun f hf => hf) hcolumns
    · exact within_of_nodup hsound (columns_subset (whereFields_columns hsound))
        (nodup_whereFields hsound)
    · rw [hinsert]
      exact within_of_nodup hsound (columns_subset fun f hf => (List.mem_filter.mp hf).1)
        (hcolumns.filter _)
    · exact within_of_nodup hsound hfields (nodup_updateBound hsound)
  · have hall : m.RisesThrough (fun _ => True)
        (places (m.schema.columnFields.filter fun _ => true)) :=
      risesThrough_filter hsound (by simp)
    rwa [List.filter_true] at hall
  · rw [whereFields, if_pos hk, RecordSchema.identifyingFields]
    exact List.map_append
  · rw [hinsert]
    exact risesThrough_filter hsound fun f => decide_eq_true_iff
  · intro f hf
    obtain ⟨hcolumn, hupdated⟩ := List.mem_filter.mp hf
    refine ⟨(List.mem_filter.mp hcolumn).1, fun hkept => ?_⟩
    rw [hkept.not_updated] at hupdated
    cases hupdated

theorem positions_exact_invoice : ∃ s m k k',
    (RecordSchema.build RecordSchema.invoiceDeclaration).Returns {} s k ∧
    (build {} none none s).Returns {} m k' ∧ s.keyFields ≠ [] ∧ m.ExactPositions ∧
    places m.updateBound = [2, 3, 4, 5, 9, 0, 1, 8] := by
  obtain ⟨k, hs⟩ := RecordSchema.invoice_built
  obtain ⟨m, k', hm, -⟩ := returns_of_result (c := build {} none none RecordSchema.invoice)
    (j := {}) (by decide +kernel)
  obtain ⟨hschema, -, -⟩ := returns_build hm
  have hkeys : RecordSchema.invoice.keyFields ≠ [] := by
    rw [← List.isEmpty_eq_false_iff]
    decide +kernel
  refine ⟨_, m, k, k', hs, hm, hkeys, positions_exact hs hm hkeys, ?_⟩
  rw [updateBound, updateBoundFields_eq, canUpdate, hasKeys, updateConditions, whereFields, hasKeys,
    updateFields, hschema]
  decide +kernel

end Mapping

end Tablewright
