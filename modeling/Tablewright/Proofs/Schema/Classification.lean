import Tablewright.Proofs.Check
import Tablewright.Schema.Build

/-! How the fields of a record are sorted by role. As long as no fault was found, the
draft's role lists are the fields of each role: every field added keeps this, and with it
names stay distinct and single roles single. A schema without faults therefore has all of
it for its whole field list. -/

namespace Tablewright.RecordSchema

/-- The fields of one role. -/
def ofRole (role : FieldRole) (fields : List Field) : List Field :=
  fields.filter (·.role == some role)

/-! ## What one field adds -/

/-- The draft with a field that has no place but the one in the row. -/
def Draft.push (x : Draft) (f : Field) : Draft := { x with fields := x.fields ++ [f] }

/-- How a field is taken without a fault: what its role requires of the fields before it,
and the draft it leaves. -/
inductive Draft.Takes (x : Draft) (f : Field) : Draft → Prop
  | key : f.role = some .primaryKey → x.generatedKey = none →
      x.Takes f { x.push f with keyFields := x.keyFields ++ [f] }
  | generated : f.role = some .generatedPrimaryKey → x.generatedKey = none → x.keyFields = [] →
      x.Takes f { x.push f with generatedKey := some f, keyFields := [f] }
  | tenant : f.role = some .tenantKey → x.tenantField = none →
      x.Takes f { x.push f with tenantField := some f }
  | audit {role : FieldRole} : f.role = some role → role.isAudit = true →
      x.auditFields.find? (·.1 == role) = none →
      x.Takes f { x.push f with auditFields := x.auditFields ++ [(role, f)] }
  | data {role : FieldRole} : f.role = some role → role.isUpdated = true → role.isAudit = false →
      x.Takes f (x.push f)
  | memory : f.role = none → x.Takes f (x.push f)

/-- A repeated name is a fault whatever the role. -/
theorem Draft.add_repeated {x : Draft} {f : Field} (h : x.fields.any (·.name == f.name) = true) :
    (x.add f).2 ≠ [] := by
  unfold Draft.add
  simp only [h, if_true]
  split
  · simp
  · split <;> simp
  · split <;> simp
  · split
    · split <;> simp
    · simp
  · simp

theorem Draft.add_takes {x : Draft} {f : Field} (h : (x.add f).2 = []) :
    x.fields.any (·.name == f.name) = false ∧ x.Takes f (x.add f).1 := by
  have hn : x.fields.any (·.name == f.name) = false :=
    Bool.eq_false_iff.mpr fun hn => add_repeated hn h
  refine ⟨hn, ?_⟩
  unfold Draft.add at h ⊢
  simp only [hn, Bool.false_eq_true, if_false, List.nil_append] at h ⊢
  split at h
  · rename_i hr
    simp only [List.map_eq_nil_iff, Option.toList_eq_nil_iff] at h
    exact .key hr h
  · rename_i hr
    split at h
    · simp at h
    · simp at h
    · rename_i hg hk
      rw [hk]
      exact .generated hr hg hk
  · rename_i hr
    split at h
    · simp at h
    · rename_i ht
      exact .tenant hr ht
  · rename_i role hk hg ht hr
    split at h
    · rename_i ha
      rw [if_pos ha]
      split at h
      · simp at h
      · rename_i hf
        exact .audit hr ha hf
    · rename_i ha
      rw [if_neg ha]
      refine .data hr ?_ (by simpa using ha)
      cases role <;> simp_all [FieldRole.isAudit, FieldRole.isUpdated]
  · rename_i hr
    exact .memory hr

/-! ## What the role lists say -/

/-- The role lists say what the fields' roles say. -/
structure Draft.Sorted (x : Draft) : Prop where
  names : (x.fields.map (·.name)).Nodup
  keys : x.keyFields = x.fields.filter (·.role.any FieldRole.isKey)
  generated : ofRole .generatedPrimaryKey x.fields = x.generatedKey.toList
  alone : ∀ g, x.generatedKey = some g → x.keyFields = [g]
  tenant : ofRole .tenantKey x.fields = x.tenantField.toList
  audit : ∀ role, role.isAudit = true →
    ofRole role x.fields = ((x.auditFields.find? (·.1 == role)).map (·.2)).toList
  audited : ∀ e ∈ x.auditFields, ∃ f ∈ x.fields, e = (e.1, f) ∧ f.role = some e.1

theorem ofRole_concat (role : FieldRole) (fields : List Field) (f : Field) :
    ofRole role (fields ++ [f]) = ofRole role fields ++ if f.role = some role then [f] else [] := by
  by_cases h : f.role = some role <;> simp [ofRole, List.filter_append, h]

theorem names_concat {fields : List Field} {f : Field} (h : (fields.map (·.name)).Nodup)
    (hf : fields.any (·.name == f.name) = false) : ((fields ++ [f]).map (·.name)).Nodup := by
  rw [List.map_append, List.nodup_append]
  refine ⟨h, by simp, ?_⟩
  intro n hn m hm
  obtain ⟨g, hg, rfl⟩ := List.mem_map.mp hn
  rw [List.map_singleton, List.mem_singleton] at hm
  subst hm
  simpa using List.any_eq_false.mp hf g hg

theorem Draft.Sorted.takes {x y : Draft} {f : Field} (h : x.Sorted)
    (hn : x.fields.any (·.name == f.name) = false) (ht : x.Takes f y) : y.Sorted := by
  have names := names_concat h.names hn
  have audited : ∀ e ∈ x.auditFields, ∃ g ∈ x.fields ++ [f], e = (e.1, g) ∧ g.role = some e.1 := by
    intro e he
    obtain ⟨g, hg, hr⟩ := h.audited e he
    exact ⟨g, List.mem_append_left _ hg, hr⟩
  cases ht with
  | key hr hg =>
    refine ⟨names, ?_, ?_, ?_, ?_, ?_, audited⟩
    · simp [push, h.keys, hr, FieldRole.isKey]
    · simp [push, ofRole_concat, h.generated, hr]
    · intro g hg'
      simp only [push, hg] at hg'
      cases hg'
    · simp [push, ofRole_concat, h.tenant, hr]
    · intro role ha
      have : some FieldRole.primaryKey ≠ some role := by rintro ⟨⟩; cases ha
      simp [push, ofRole_concat, h.audit role ha, hr, this]
  | generated hr hg hk =>
    have hkeys := h.keys
    rw [hk] at hkeys
    refine ⟨names, ?_, ?_, ?_, ?_, ?_, audited⟩
    · simp [push, ← hkeys, hr, FieldRole.isKey]
    · simp [push, ofRole_concat, h.generated, hr, hg]
    · intro g hg'
      cases hg'
      rfl
    · simp [push, ofRole_concat, h.tenant, hr]
    · intro role ha
      have : some FieldRole.generatedPrimaryKey ≠ some role := by rintro ⟨⟩; cases ha
      simp [push, ofRole_concat, h.audit role ha, hr, this]
  | tenant hr hnone =>
    refine ⟨names, ?_, ?_, h.alone, ?_, ?_, audited⟩
    · simp [push, h.keys, hr, FieldRole.isKey]
    · simp [push, ofRole_concat, h.generated, hr]
    · simp [push, ofRole_concat, h.tenant, hr, hnone]
    · intro role ha
      have : some FieldRole.tenantKey ≠ some role := by rintro ⟨⟩; cases ha
      simp [push, ofRole_concat, h.audit role ha, hr, this]
  | @audit r hr ha hnone =>
    have hkey : r.isKey = false := by cases r <;> first | rfl | cases ha
    have hgen : r ≠ .generatedPrimaryKey := by rintro rfl; cases ha
    have hten : r ≠ .tenantKey := by rintro rfl; cases ha
    refine ⟨names, ?_, ?_, h.alone, ?_, ?_, ?_⟩
    · simp [push, h.keys, hr, hkey]
    · simp [push, ofRole_concat, h.generated, hr, hgen]
    · simp [push, ofRole_concat, h.tenant, hr, hten]
    · intro role hrole
      by_cases he : r = role
      · subst he
        simp [push, ofRole_concat, h.audit r ha, hr, hnone, List.find?_append]
      · simp [push, ofRole_concat, h.audit role hrole, hr, he, List.find?_append]
    · intro e he
      rcases List.mem_append.mp he with he | he
      · exact audited e he
      · rw [List.mem_singleton] at he
        subst he
        exact ⟨f, List.mem_append_right _ (by simp), rfl, hr⟩
  | @data r hr hu ha =>
    have hkey : r.isKey = false := by cases r <;> first | rfl | cases hu
    have hgen : r ≠ .generatedPrimaryKey := by rintro rfl; cases hu
    have hten : r ≠ .tenantKey := by rintro rfl; cases hu
    refine ⟨names, ?_, ?_, h.alone, ?_, ?_, audited⟩
    · simp [push, h.keys, hr, hkey]
    · simp [push, ofRole_concat, h.generated, hr, hgen]
    · simp [push, ofRole_concat, h.tenant, hr, hten]
    · intro role hrole
      have : r ≠ role := by rintro rfl; rw [ha] at hrole; cases hrole
      simp [push, ofRole_concat, h.audit role hrole, hr, this]
  | memory hr =>
    refine ⟨names, ?_, ?_, h.alone, ?_, ?_, audited⟩
    · simp [push, h.keys, hr]
    · simp [push, ofRole_concat, h.generated, hr]
    · simp [push, ofRole_concat, h.tenant, hr]
    · intro role hrole
      simp [push, ofRole_concat, h.audit role hrole, hr]

end Tablewright.RecordSchema
