import Tablewright.Proofs.Mapping.Marshal
import Tablewright.Proofs.Schema.NormalForm

/-! Rows that are made from keys. What a field reads from input is a value of its own type and
never null, so a row in which all keys were accepted has a known value at each of them. The other
places hold the tenant of the request and the defaults of the fields. -/

namespace Tablewright

open Check

/-- A value that is known: neither null, nor a list or a map. -/
def Value.IsKnown (v : Value) : Prop := v.isPlain = true ∧ v.isNull = false

namespace RecordSchema

variable {s : RecordSchema} {payload : Value} {f : Field} {fs : List Field} {r r' : Reading}
  {j k : Journal}

/-! ## Rows of keys -/

theorem returns_readKeyInto (h : (readKeyInto payload r f).Returns j r' k)
    (ha : r'.accepted = true) : r.accepted = true ∧
      ∃ v : Value, v.IsKnown ∧ r'.row = r.row.set f.index v := by
  simp only [readKeyInto, returns_bind, returns_pure] at h
  obtain ⟨entry, l, hentry, rfl, -⟩ := h
  simp only [readKey, returns_bind, returns_known] at hentry
  obtain ⟨raw, _, -, hentry⟩ := hentry
  split at hentry
  · simp only [returns_bind, returns_pure] at hentry
    obtain ⟨_, _, -, rfl, -⟩ := hentry
    cases ha
  · simp only [returns_bind, returns_known] at hentry
    obtain ⟨x, _, ⟨hx, -⟩, hentry⟩ := hentry
    cases x with
    | none =>
      simp only [returns_bind, returns_pure] at hentry
      obtain ⟨_, _, -, rfl, -⟩ := hentry
      cases ha
    | some v =>
      obtain ⟨rfl, -⟩ := returns_pure.mp hentry
      obtain ⟨hadmits, hnull⟩ := (Field.parse_iff.mp hx).1.own
      exact ⟨ha, v, ⟨ValueType.isPlain_of_admits hadmits, hnull⟩, rfl⟩

/-- Reading key after key into a row leaves what was there or something known at each place. If all
keys are accepted, something known is at the place of each. -/
theorem returns_readKeys (h : (fs.foldlM (readKeyInto payload) r).Returns j r' k)
    (ha : r'.accepted = true) : r.accepted = true ∧ r'.row.length = r.row.length ∧
      (∀ f ∈ fs, f.index < r.row.length → (r'.row.getD f.index .null).IsKnown) ∧
      ∀ i, (r'.row.getD i .null).IsKnown ∨ r'.row.getD i .null = r.row.getD i .null := by
  induction fs generalizing r j with
  | nil =>
    obtain ⟨rfl, -⟩ := returns_pure.mp h
    exact ⟨ha, rfl, List.forall_mem_nil _, fun i => .inr rfl⟩
  | cons f fs ih =>
    rw [List.foldlM_cons, returns_bind] at h
    obtain ⟨first, _, hfirst, h⟩ := h
    obtain ⟨hfirst', hlength, hkeys, hrest⟩ := ih h
    obtain ⟨haccepted, v, hv, hrow⟩ := returns_readKeyInto hfirst hfirst'
    rw [hrow, List.length_set] at hlength hkeys
    rw [hrow] at hrest
    refine ⟨haccepted, hlength, List.forall_mem_cons.mpr ⟨fun hi => ?_, hkeys⟩, fun i => ?_⟩
    · rcases hrest f.index with hknown | hsame
      · exact hknown
      · rw [hsame, getD_set_self hi]
        exact hv
    · rcases hrest i with hknown | hsame
      · exact .inl hknown
      · rcases getD_set r.row f.index i v .null with ⟨-, hset⟩ | hset
        · rw [hsame, hset]
          exact .inl hv
        · exact .inr (hsame.trans hset)

/-- The defaults of a schema without faults are values that texts spell. -/
theorem Valid.isPlain_default (h : s.Valid) (hf : f ∈ s.fields) : f.default.isPlain = true := by
  rcases h.default_cases hf with hnull | ⟨⟨text, hreads⟩, -⟩
  · rw [hnull]
    rfl
  · exact ValueType.isPlain_of_admits hreads.own.1

theorem Valid.isPlain_newRow (h : s.Valid) (i : Nat) : (s.newRow.getD i .null).isPlain = true := by
  rw [newRow, List.getD_eq_getElem?_getD, List.getElem?_map]
  cases hf : s.fields[i]? with
  | none => rfl
  | some f => exact h.isPlain_default (List.mem_of_getElem? hf)

/-- Where reading begins, there are defaults and the tenant of the request. -/
theorem Valid.isPlain_set_newRow (h : s.Valid) {tenant : Value} (htenant : tenant.isPlain = true)
    (n i : Nat) : ((s.newRow.set n tenant).getD i .null).isPlain = true := by
  rcases getD_set s.newRow n i tenant .null with ⟨-, hset⟩ | hset
  · rw [hset]
    exact htenant
  · rw [hset]
    exact h.isPlain_newRow i

/-- What holds of a row that was made from keys: it has a known value at each of them, and no lists
or maps anywhere. -/
structure OfKeys (s : RecordSchema) (row : Row) : Prop where
  keyed : s.keyFields.isEmpty = false
  length : row.length = s.fields.length
  known : ∀ f ∈ s.keyFields, (row.getD f.index .null).IsKnown
  plain : ∀ i, (row.getD i .null).isPlain = true

theorem OfKeys.hasKeys {m : Mapping} {row : Row} (h : m.schema.OfKeys row) : m.hasKeys = true := by
  rw [Mapping.hasKeys, h.keyed]
  rfl

/-- Keys that were all accepted make such a row, if the tenant of the request is no list or map
where there is a place for it. -/
theorem returns_parseKeys {ctx : RequestContext} {row : Row} (hs : s.Valid)
    (htenant : s.tenantField.isSome = true → ctx.tenant.isPlain = true)
    (h : (s.parseKeys ctx payload).Returns j (some row) k) : s.OfKeys row := by
  have hread {start : Row} {reading : Reading} {l : Journal} (hlength : start.length = s.fields.length)
      (hstart : ∀ i, (start.getD i .null).isPlain = true)
      (hreading : (s.keyFields.foldlM (readKeyInto payload) { row := start }).Returns j reading l)
      (ha : reading.accepted = true) (hkeyed : s.keyFields.isEmpty = false) : s.OfKeys reading.row := by
    obtain ⟨-, hsame, hkeys, hplaces⟩ := returns_readKeys hreading ha
    refine ⟨hkeyed, hsame.trans hlength, fun f hf => hkeys f hf ?_, fun i => ?_⟩
    · rw [hlength]
      exact hs.sound.index_lt (hs.sound.key_mem hf).1
    · rcases hplaces i with hknown | hdefault
      · exact hknown.1
      · rw [hdefault]
        exact hstart i
  unfold parseKeys at h
  split at h
  · simp only [returns_bind, returns_pure] at h
    obtain ⟨_, _, -, _, _, -, ⟨⟩, -⟩ := h
  · rename_i hkeys
    simp only [returns_bind, returns_pure] at h
    obtain ⟨reading, _, hreading, hrow, -⟩ := h
    split at hrow
    · rename_i ha
      obtain rfl := Option.some.inj hrow
      have hsome := Bool.eq_false_of_not_eq_true hkeys
      have hlength : s.newRow.length = s.fields.length := List.length_map ..
      split at hreading
      · rename_i t ht
        have hplain := htenant (Option.isSome_of_eq_some ht)
        exact hread (List.length_set.trans hlength) (hs.isPlain_set_newRow hplain _) hreading ha hsome
      · exact hread hlength hs.isPlain_newRow hreading ha hsome
    · cases hrow

end RecordSchema

end Tablewright
