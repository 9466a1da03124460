import Tablewright.Proofs.Schema.Problems

/-! Rows of any payload, place by place. Whenever reading a row comes to an end, what became of each
place is settled by its field alone: the row is put together from the fields' places, and what was
reported are the messages about the places and then those about keyed lists. -/

namespace Tablewright.RecordSchema

open Check

variable {s : RecordSchema} {ctx : RequestContext} {mode : InputMode} {payload : Value} {f : Field}
  {fs : List Field} {r : Option Row} {row : Row} {j k : Journal}

/-- What stands under a field's name in a payload; null if nothing does. -/
def rawOf (payload : Value) (f : Field) : Value := (payloadValue payload f.name).toOption.getD .null

/-- What becomes of a field's place in the row. -/
def entryOf (ctx : RequestContext) (mode : InputMode) (payload : Value) (f : Field) : Entry :=
  if readsPayload mode f then placed (needsInput mode f) f (rawOf payload f)
  else contextEntry ctx mode f

/-- What is reported about a field's place. -/
def entryProblems (ctx : RequestContext) (mode : InputMode) (payload : Value) (f : Field) :
    List Message := (entryOf ctx mode payload f).problems (refusal mode f (rawOf payload f))

/-- The value at a place that had a default. -/
def Entry.value (default : Value) : Entry → Value
  | .put v => v
  | .keep | .rejected => default

/-- The row that a payload describes. Where nothing was put, the fields have their defaults. -/
def rowOf (s : RecordSchema) (ctx : RequestContext) (mode : InputMode) (payload : Value) : Row :=
  s.fields.map fun f => (entryOf ctx mode payload f).value f.default

/-- What is reported about a payload: first the fields' places, then the values in keyed lists. -/
def problemsOf (s : RecordSchema) (ctx : RequestContext) (mode : InputMode) (payload : Value) :
    List Message :=
  s.fields.flatMap (entryProblems ctx mode payload) ++
    s.dependentFields.flatMap (s.dependentProblems mode (s.rowOf ctx mode payload))

/-! ## One place -/

/-- The value under a field's name can be looked up, and it is missing, taken or refused. -/
structure Legible (payload : Value) (f : Field) : Prop where
  found : payloadValue payload f.name = .ok (rawOf payload f)
  parsed : isMissing (rawOf payload f) = false → ∃ v, f.parse (rawOf payload f) = .ok v

/-- What was looked up, and parsed unless it was missing, was legible. -/
theorem legible_of_lookup {missed : Value → Check Entry} {taken : Value → Option Value → Check Entry}
    {e : Entry} (h : (do
      let raw ← .mk (pure (payloadValue payload f.name))
      if isMissing raw then missed raw
      else taken raw (← .mk (pure (f.parse raw))) : Check Entry).Returns j e k) :
    Legible payload f := by
  simp only [returns_bind, returns_known] at h
  obtain ⟨raw, _, ⟨hfound, rfl⟩, h⟩ := h
  have hraw : rawOf payload f = raw := by rw [rawOf, hfound]; rfl
  rw [← hraw] at hfound h
  refine ⟨hfound, fun hmissing => ?_⟩
  rw [if_neg (Bool.eq_false_iff.mp hmissing), returns_bind] at h
  obtain ⟨v, _, hv, -⟩ := h
  exact ⟨v, (returns_known.mp hv).1⟩

theorem legible_of_returns {e : Entry} (h : (readPayload mode payload f).Returns j e k) :
    Legible payload f := legible_of_lookup h

theorem endsUnless_parse {raw : Value} (h : ∃ v, f.parse raw = .ok v) :
    EndsUnless False (.mk (pure (f.parse raw))) (f.taken? raw) [] := by
  obtain ⟨v, hv⟩ := h
  rw [Field.taken?, hv]
  exact ends_known.unless

theorem Legible.ends (h : Legible payload f) : (readPayload mode payload f).Ends
    (.ok (placed (needsInput mode f) f (rawOf payload f)))
    ((placed (needsInput mode f) f (rawOf payload f)).problems
      (refusal mode f (rawOf payload f))) := by
  refine (endsUnless_readPayload h.found fun hmissing => ?_).ends id
  exact endsUnless_parse (h.parsed (Bool.eq_false_of_not_eq_true hmissing))

/-- The field's place can be filled: from the payload only if what stands there is legible. -/
theorem ends_readField (h : readsPayload mode f = true → Legible payload f) :
    (readField ctx mode payload f).Ends (.ok (entryOf ctx mode payload f))
      (entryProblems ctx mode payload f) := by
  unfold entryProblems entryOf
  rw [readField_eq]
  by_cases hread : readsPayload mode f = true
  · simp only [if_pos hread]
    exact (h hread).ends
  · simp only [if_neg hread, problems_contextEntry]
    exact ends_pure

/-- What is reported about a place is that it is refused. -/
theorem mem_entryProblems {m : Message} (h : m ∈ entryProblems ctx mode payload f) :
    m = refusal mode f (rawOf payload f) := by
  unfold entryProblems at h
  cases he : entryOf ctx mode payload f with
  | rejected =>
    rw [he] at h
    exact List.mem_singleton.mp h
  | keep | put =>
    rw [he] at h
    cases h

theorem legible_of_readField {e : Entry} (h : (readField ctx mode payload f).Returns j e k)
    (hread : readsPayload mode f = true) : Legible payload f := by
  rw [readField_eq, if_pos hread] at h
  exact legible_of_returns h

/-- What becomes of a place that is read: it is refused, or keeps its default because nothing is
given or needed, or has what is taken. -/
theorem placed_cases (needed : Bool) (f : Field) (raw : Value) :
    placed needed f raw = .rejected ∨
      (isMissing raw = true ∧ needed = false ∧ placed needed f raw = .keep) ∨
      ∃ v, isMissing raw = false ∧ f.parse raw = .ok (some v) ∧ placed needed f raw = .put v := by
  unfold placed
  by_cases hmissing : isMissing raw = true
  · rw [if_pos hmissing]
    cases needed with
    | true => exact .inl rfl
    | false => exact .inr (.inl ⟨hmissing, rfl, rfl⟩)
  · rw [if_neg hmissing, Field.taken?]
    cases hparse : f.parse raw with
    | error e => exact .inl rfl
    | ok found =>
      cases found with
      | none => exact .inl rfl
      | some v => exact .inr (.inr ⟨v, Bool.eq_false_of_not_eq_true hmissing, rfl, rfl⟩)

/-! ## All places -/

/-- A row in which each field of a part of it has its own place is filled part by part. -/
theorem row_foldl_enter {e : Field → Entry} {done : Row} {accepted : Bool}
    (h : ∀ n f, fs[n]? = some f → f.index = done.length + n) :
    (fs.foldl (fun (r : Reading) f => r.enter f (e f))
        ⟨done ++ fs.map (·.default), accepted⟩).row =
      done ++ fs.map fun f => (e f).value f.default := by
  -- What stands in front are the places that were filled: the next field has the first of the rest.
  induction fs generalizing done accepted with
  | nil => rfl
  | cons f fs ih =>
    have hplace : f.index = done.length := h 0 f rfl
    have hrest (v : Value) : ∀ n g, fs[n]? = some g → g.index = (done ++ [v]).length + n := by
      intro n g hg
      have hindex := h (n + 1) g hg
      rw [List.length_append, List.length_singleton]
      omega
    have henter : ∃ accepted',
        (Reading.mk (done ++ (f :: fs).map (·.default)) accepted).enter f (e f) =
          ⟨(done ++ [(e f).value f.default]) ++ fs.map (·.default), accepted'⟩ := by
      cases e f with
      | put v =>
        refine ⟨accepted, ?_⟩
        simp [Reading.enter, Entry.value, hplace]
      | keep => exact ⟨accepted, by simp [Reading.enter, Entry.value]⟩
      | rejected => exact ⟨false, by simp [Reading.enter, Entry.value]⟩
    obtain ⟨accepted', henter⟩ := henter
    rw [List.foldl_cons, henter, ih (hrest _), List.map_cons, List.append_assoc,
      List.singleton_append]

theorem Sound.row_foldl_enter (hs : s.Sound) (e : Field → Entry) :
    (s.fields.foldl (fun (r : Reading) f => r.enter f (e f)) { row := s.newRow }).row =
      s.fields.map fun f => (e f).value f.default := by
  have hplaces : ∀ n f, s.fields[n]? = some f → f.index = ([] : Row).length + n := fun n f hf =>
    (hs.index_eq n f hf).trans (Nat.zero_add n).symm
  exact RecordSchema.row_foldl_enter hplaces

/-- The value of the row at a field's place. -/
theorem Sound.rowOf_at (hs : s.Sound) (hf : f ∈ s.fields) : (s.rowOf ctx mode payload)[f.index]? =
    some ((entryOf ctx mode payload f).value f.default) := by
  rw [rowOf, List.getElem?_map, hs.at_index hf]
  rfl

theorem Sound.getD_rowOf (hs : s.Sound) (hf : f ∈ s.fields) :
    (s.rowOf ctx mode payload).getD f.index .null =
      (entryOf ctx mode payload f).value f.default := by
  rw [List.getD_eq_getElem?_getD, hs.rowOf_at hf]
  rfl

/-- Fields whose places can be filled are read to their end. -/
theorem ends_readFields (h : ∀ f ∈ fs, readsPayload mode f = true → Legible payload f)
    (x : Reading) : (fs.foldlM (readInto ctx mode payload) x).Ends
      (.ok (fs.foldl (fun r f => r.enter f (entryOf ctx mode payload f)) x))
      (fs.flatMap (entryProblems ctx mode payload)) := by
  refine (endsUnless_foldlM fun y f hf => ?_).ends id
  exact (ends_readField (h f hf)).map.unless

theorem Sound.ends_readFields (hs : s.Sound)
    (h : ∀ f ∈ s.fields, readsPayload mode f = true → Legible payload f) :
    ∃ reading : Reading, (s.fields.foldlM (readInto ctx mode payload) { row := s.newRow }).Ends
        (.ok reading) (s.fields.flatMap (entryProblems ctx mode payload)) ∧
      reading.row = s.rowOf ctx mode payload ∧
      (reading.accepted = true ↔ s.fields.flatMap (entryProblems ctx mode payload) = []) :=
  ⟨_, RecordSchema.ends_readFields h _, hs.row_foldl_enter _,
    accepted_foldl_iff.trans (and_iff_right rfl)⟩

theorem legible_of_readFields {x y : Reading}
    (h : (fs.foldlM (readInto ctx mode payload) x).Returns j y k) :
    ∀ f ∈ fs, readsPayload mode f = true → Legible payload f := by
  intro f hf
  obtain ⟨_, _, _, _, hround⟩ := returns_round h f hf
  rw [readInto, returns_bind] at hround
  obtain ⟨e, _, hentry, -⟩ := hround
  exact legible_of_readField hentry

/-- Nothing that a payload has for a row is a failure to read, and neither is any list that the row
selects. -/
structure LegibleRow (s : RecordSchema) (ctx : RequestContext) (mode : InputMode)
    (payload : Value) : Prop where
  places : ∀ f ∈ s.fields, readsPayload mode f = true → Legible payload f
  lists : ∀ f ∈ s.dependentFields, (s.checkDependent mode (s.rowOf ctx mode payload) f).Ends
    (.ok (s.dependentProblems mode (s.rowOf ctx mode payload) f).isEmpty)
    (s.dependentProblems mode (s.rowOf ctx mode payload) f)

theorem ends_of_checkAll {ok ok' : Bool}
    (h : (fs.foldlM (s.checkNext mode row) ok).Returns j ok' k) :
    ∀ f ∈ fs, (s.checkDependent mode row f).Ends (.ok (s.dependentProblems mode row f).isEmpty)
      (s.dependentProblems mode row f) := by
  intro f hf
  obtain ⟨_, _, _, _, hround⟩ := returns_round h f hf
  rw [checkNext, returns_bind] at hround
  obtain ⟨found, _, hfound, -⟩ := hround
  exact endsUnless_checkDependent.ends_of_returns hfound

/-- A row that was read to its end was legible. -/
theorem Sound.legibleRow_of_returns (hs : s.Sound)
    (h : (s.parseRow ctx mode payload).Returns j r k) : s.LegibleRow ctx mode payload := by
  rw [parseRow, returns_bind] at h
  obtain ⟨reading, i, hfields, h⟩ := h
  rw [returns_bind] at h
  obtain ⟨ok, _, hlists, -⟩ := h
  have hplaces := legible_of_readFields hfields
  obtain ⟨reading', hends, hrow, -⟩ := hs.ends_readFields hplaces
  obtain ⟨rfl, -⟩ := hends.eq_of_returns hfields
  exact ⟨hplaces, hrow ▸ ends_of_checkAll hlists⟩

/-- Reading what is legible ends with the row that the payload describes if there is nothing to
report, and else with none. -/
theorem LegibleRow.ends (h : s.LegibleRow ctx mode payload) (hs : s.Sound) :
    (s.parseRow ctx mode payload).Ends (.ok (if (s.problemsOf ctx mode payload).isEmpty then
      some (s.rowOf ctx mode payload) else none)) (s.problemsOf ctx mode payload) := by
  obtain ⟨reading, hfields, hrow, haccepted⟩ := hs.ends_readFields h.places
  have hlists : EndsUnless False (s.dependentFields.foldlM (s.checkNext mode reading.row)
      reading.accepted) _ _ := endsUnless_foldlM fun y f hf => (hrow ▸ h.lists f hf).map.unless
  have hlists := hlists.ends id
  rw [isEmpty_foldl, hrow] at hlists
  have hok : (s.problemsOf ctx mode payload).isEmpty = (reading.accepted &&
      (s.dependentFields.flatMap
        (s.dependentProblems mode (s.rowOf ctx mode payload))).isEmpty) := by
    rw [Bool.eq_iff_iff, Bool.and_eq_true, haccepted, List.isEmpty_iff, List.isEmpty_iff,
      problemsOf, List.append_eq_nil_iff]
  rw [hok, ← hrow, problemsOf]
  rw [← hrow] at hlists ⊢
  exact hfields.bind hlists.map

end Tablewright.RecordSchema
